import EwsnCrypto.Aes.RuntimeTests
import EwsnCrypto.Base.Probe
import EwsnCrypto.Hashes.Model

/-!
# The windows of the runtime tests

The four runtime tests of section 5 raise the trace pin around every call that they
measure. The AES tests return at the first failure, and still close each window before
they look at a return code.
-/

open InputProgram Aes Section5 Hashes RuntimeTests

namespace RuntimeWindows

section Aes
variable {len : Nat} {v : TestVectors len} {n i : Nat} {r : Replies len}

/-- The pin and the calls; the delay before the loop is not measured. -/
def aesProbe : RuntimeTests.Event → Option (Probe Call)
  | .gpioWrite high => some (.level high)
  | .call (.xtimerSleep _) _ => none
  | .call c _ => some (.call c)
  | _ => none

/-- The calls of an iteration. -/
def calls (t : RuntimeTest) (v : TestVectors len) : List Call :=
  match t with
  | .cbc => [.aesInit v.key.toList, .aesEncryptCbc v.cbcIv.toList v.cbcPlain.toList,
      .aesDecryptCbc v.cbcIv.toList v.cbcCipher.toList]
  | .ecb => [.aesInit v.key.toList, .aesEncryptEcb v.ecbPlain.toList,
      .aesDecryptEcb v.ecbCipher.toList]

theorem cbcIteration_windows : InWindows aesProbe (cbcIteration v n i r) fun flow cs =>
    cs <+: calls .cbc v ∧ (flow = .next → cs = calls .cbc v) := by
  unfold cbcIteration
  refine .silent (fun _ => rfl) fun _ => .window rfl (fun _ => rfl) rfl fun ret => ?_
  split
  · refine .silent (fun _ => rfl) fun _ => .pure ⟨⟨_, rfl⟩, fun hflow => nomatch hflow⟩
  refine .window rfl (fun _ => rfl) rfl fun ret => ?_
  split
  · refine .silent (fun _ => rfl) fun _ => .pure ⟨⟨_, rfl⟩, fun hflow => nomatch hflow⟩
  refine .silent (fun _ => rfl) fun differs => .silent_onlyIf rfl ?_
  refine .window rfl (fun _ => rfl) rfl fun ret => ?_
  split
  · refine .silent (fun _ => rfl) fun _ => .pure ⟨⟨_, rfl⟩, fun hflow => nomatch hflow⟩
  refine .silent (fun _ => rfl) fun differs => ?_
  split
  · exact .silent (fun _ => rfl) fun _ => .pure ⟨List.prefix_rfl, fun hflow => nomatch hflow⟩
  · exact .silent (fun _ => rfl) fun _ => .pure ⟨List.prefix_rfl, fun _ => rfl⟩

theorem ecbIteration_windows : InWindows aesProbe (ecbIteration v n i r) fun flow cs =>
    cs <+: calls .ecb v ∧ (flow = .next → cs = calls .ecb v) := by
  unfold ecbIteration
  refine .silent (fun _ => rfl) fun _ => .window rfl (fun _ => rfl) rfl fun ret => ?_
  refine .silent_onlyIf rfl ?_
  refine .window rfl (fun _ => rfl) rfl fun ret => ?_
  split
  · refine .silent (fun _ => rfl) fun _ => .pure ⟨⟨_, rfl⟩, fun hflow => nomatch hflow⟩
  refine .window rfl (fun _ => rfl) rfl fun ret => ?_
  split
  · refine .silent (fun _ => rfl) fun _ => .pure ⟨⟨_, rfl⟩, fun hflow => nomatch hflow⟩
  refine .silent (fun _ => rfl) fun differs => ?_
  split
  · exact .silent (fun _ => rfl) fun _ => .pure ⟨List.prefix_rfl, fun hflow => nomatch hflow⟩
  · exact .silent (fun _ => rfl) fun _ => .pure ⟨List.prefix_rfl, fun _ => rfl⟩

theorem iteration_windows (t : RuntimeTest) : InWindows aesProbe (t.iteration v n i r)
    fun flow cs => cs <+: calls t v ∧ (flow = .next → cs = calls t v) := by
  cases t with
  | cbc => exact cbcIteration_windows
  | ecb => exact ecbIteration_windows

/-- However an AES test ends, the probe has seen the calls of whole iterations and of a
part of the last one, each in its window. Where all iterations pass it has seen all. -/
theorem aesTest_windows (t : RuntimeTest) (v : TestVectors len) (n : Nat)
    (replies : Nat → Replies len) (data : Buffer len) :
    ∃ cs, cs <+: repeated n (calls t v) ∧
      ((t.test v n replies).exec [] data).trace.filterMap aesProbe = windowsOf cs ∧
      ((∀ j < n, Passes t v (replies j) (startBuffer t v j)) → cs = repeated n (calls t v)) := by
  have hloop : InWindows aesProbe (forReturn n fun i => t.iteration v n i (replies i))
      fun flow cs => cs <+: repeated n (calls t v) ∧ (flow = .next → cs = repeated n (calls t v)) :=
    .forReturn fun _ => iteration_windows t
  obtain ⟨flow, cs, hvalue, htrace, hcalls, hall⟩ := hloop [] zeros
  refine ⟨cs, hcalls, ?_, fun hpassed => hall ?_⟩
  · have hsleep : aesProbe (.call (.xtimerSleep 1) 0) = none := rfl
    have hline (line : String) : aesProbe (.printf line []) = none := rfl
    cases t with
    | cbc =>
      simp only [RuntimeTest.iteration] at hvalue htrace
      cases flow <;> simp [RuntimeTest.test, aesCbcTest, andThen_of_value hvalue, htrace, hsleep,
        hline]
    | ecb =>
      simp only [RuntimeTest.iteration] at hvalue htrace
      cases flow <;> simp [RuntimeTest.test, aesEcbTest, andThen_of_value hvalue, htrace, hsleep,
        hline]
  · have hentered : Entered (fun i => t.iteration v n i (replies i)) [] zeros n [] _ :=
      entered_of_passed hpassed
    have hnext := hentered.1
    rw [hvalue] at hnext
    exact Option.some.inj hnext

end Aes

section Hash
variable {C : Type}

/-- The pin and the calls but `sleep`. -/
def hashProbe [DecidableEq C] (sleep : C) : TestEvent C → Option (Probe C)
  | .gpioWrite high => some (.level high)
  | .call c => if c = sleep then none else some (.call c)
  | _ => none

/-- A line printed without arguments. -/
def line : TestEvent C → Option String
  | .printf format [] => some format
  | _ => none

/-- The result behind `i` iterations. -/
def resultAfter (writes : Nat → Writes 32) (result : Digest) : Nat → Digest
  | 0 => result
  | i + 1 => patch (writes i) (resultAfter writes result i)

section Test
variable {sleep init update final : C} {failure success : String} {expected : Digest} {n : Nat}
variable {writes : Nat → Writes 32}

theorem hashTest_windows [DecidableEq C] (hinit : init ≠ sleep) (hupdate : update ≠ sleep)
    (hfinal : final ≠ sleep) :
    InWindows (hashProbe sleep)
      (hashTest sleep init update final failure success expected n writes)
      fun _ cs => cs = repeated n [init, update, final] := by
  have hcall {c : C} (hc : c ≠ sleep) :
      [(.call c : TestEvent C)].filterMap (hashProbe sleep) = [.call c] := by simp [hashProbe, hc]
  have hsleep : [(.call sleep : TestEvent C)].filterMap (hashProbe sleep) = [] := by
    simp [hashProbe]
  refine .silent (fun _ => hsleep) fun _ => .forRange fun i => ?_
  simp only [hashIteration, inWindow, bind_assoc]
  refine .silent (fun _ => rfl) fun _ => ?_
  refine .window rfl (fun _ => hcall hinit) rfl fun _ => ?_
  refine .window rfl (fun _ => hcall hupdate) rfl fun _ => ?_
  refine .window rfl (fun _ => hcall hfinal) rfl fun _ => ?_
  exact fun _ _ => ⟨(), [], rfl, rfl, rfl⟩

theorem hashLoop_exec (result : Digest) (m : Nat) : ∃ tr,
    (forRange m (hashIteration init update final failure success expected n writes)).exec []
        result = ⟨tr, resultAfter writes result m, [], some ()⟩ ∧
      tr.filterMap line = (List.range m).map fun i =>
        if resultAfter writes result (i + 1) ≠ expected then failure else success := by
  induction m with
  | zero => exact ⟨[], rfl, rfl⟩
  | succ m ih =>
    obtain ⟨tr, hexec, hlines⟩ := ih
    have hdone : ((forRange m (hashIteration init update final failure success expected n
        writes)).exec [] result).value = some () := by rw [hexec]
    refine ⟨tr ++ ((hashIteration init update final failure success expected n writes m).exec []
      (resultAfter writes result m)).trace, ?_, ?_⟩
    · rw [forRange_succ_exec hdone, hexec]
      rfl
    · rw [List.filterMap_append, hlines, List.range_succ, List.map_append]
      rfl

/-- The verdict of iteration `i` is about the result that all iterations share. -/
theorem hashTest_lines (result : Digest) :
    ((hashTest sleep init update final failure success expected n writes).exec []
        result).trace.filterMap line = (List.range n).map fun i =>
        if resultAfter writes result (i + 1) ≠ expected then failure else success := by
  obtain ⟨tr, hexec, hlines⟩ : ∃ tr, (forRange n (hashIteration init update final failure success
      expected n writes)).exec [] result = ⟨tr, _, [], some ()⟩ ∧ tr.filterMap line = _ :=
    hashLoop_exec result n
  rw [hashTest, bind_exec, emit_exec, andThen_some, hexec, List.filterMap_append, hlines]
  rfl

end Test

/-- Both hash tests make all their calls, each in its window and in order, and print one
verdict an iteration. It is about the bytes that the calls up to there have written. -/
theorem hashTests_run (v : ShaVectors) (w : HmacVectors) (n : Nat) (writes : Nat → Writes 32)
    (result : Digest) :
    (((sha256Test v n writes).exec [] result).trace.filterMap (hashProbe (.xtimerSleep 1)) =
        windowsOf (repeated n [.sha256Init, .sha256Update v.input v.size, .sha256Final]) ∧
      ((sha256Test v n writes).exec [] result).trace.filterMap line = (List.range n).map fun i =>
        if resultAfter writes result (i + 1) ≠ v.expected then "SHA-256 Failure\n"
        else "SHA-256 Success\n") ∧
    ((hmacSha256Test w n writes).exec [] result).trace.filterMap (hashProbe (.xtimerSleep 1)) =
        windowsOf (repeated n [.hmacSha256Init w.key w.keySize, .hmacSha256Update w.input w.size,
          .hmacSha256Final]) ∧
      ((hmacSha256Test w n writes).exec [] result).trace.filterMap line =
        (List.range n).map fun i =>
        if resultAfter writes result (i + 1) ≠ w.expected then "HMAC SHA-256 Failure\n"
        else "HMAC SHA-256 Success\n" := by
  have hwindows {C : Type} {probe : TestEvent C → Option (Probe C)} {p : TestApp C Unit}
      {cs : List C} (hp : InWindows probe p fun _ cs' => cs' = cs) :
      (p.exec [] result).trace.filterMap probe = windowsOf cs := by
    obtain ⟨_, cs', _, htrace, rfl⟩ := hp [] result
    exact htrace
  refine ⟨⟨hwindows ?_, hashTest_lines result⟩, hwindows ?_, hashTest_lines result⟩
  · refine hashTest_windows ?_ ?_ ?_ <;> exact fun h => nomatch h
  · refine hashTest_windows ?_ ?_ ?_ <;> exact fun h => nomatch h

end Hash

end RuntimeWindows
