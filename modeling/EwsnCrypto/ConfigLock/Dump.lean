import EwsnCrypto.ConfigLock.Runs

/-!
# The printed config zone

`read_config` prints the zone in 32 rows of four bytes, with a dozen loops that
share one byte index and three label counters. Here the text is decoded again:
a row is a header, four binary numbers and four labels. The zone that the chip
returned comes back, each byte once, under its address. The labels name the fields
that the comments of `pattern_slot_config` lay out, at all addresses but three.
-/

open InputProgram

namespace ConfigLock

/-- The fields of the zone. `rfu` is a label of the print only: reserved for future use. -/
inductive Field where
  | serial (byte : Nat)
  | revision (byte : Nat)
  | reserved
  | i2cEnable
  | i2cAddress
  | otpMode
  | chipMode
  | slotConfig (slot : Nat)
  | counter (no : Nat)
  | lastKeyUse (byte : Nat)
  | userExtra
  | selector
  | lockValue
  | lockConfig
  | slotLocked (byte : Nat)
  | x509Format (byte : Nat)
  | keyConfig (slot : Nat)
  | rfu (byte : Nat)
deriving DecidableEq

/-- The field of an address, as the comments of `pattern_slot_config` lay it out line by
line. The bytes of a field are numbered through. The comment of the fourth line has three
names for its four bytes; the I2C enable is the third byte. -/
def fieldAt (a : Nat) : Field :=
  if a < 4 then .serial a
  else if a < 8 then .revision (a - 4)
  else if a < 12 then .serial (a - 4)
  else if a < 16 then if a = 14 then .i2cEnable else .reserved
  else if a = 16 then .i2cAddress
  else if a = 17 then .reserved
  else if a = 18 then .otpMode
  else if a = 19 then .chipMode
  else if a < 52 then .slotConfig ((a - 20) / 2)
  else if a < 68 then .counter ((a - 52) / 8)
  else if a < 84 then .lastKeyUse (a - 68)
  else if a = 84 then .userExtra
  else if a = 85 then .selector
  else if a = 86 then .lockValue
  else if a = 87 then .lockConfig
  else if a < 92 then .slotLocked (a - 88)
  else if a < 96 then .x509Format (a - 92)
  else .keyConfig ((a - 96) / 2)

/-- The field under whose label a byte is printed: a ninth serial byte opens the fourth
row, and the word of SlotLocked ends with two bytes that are reserved for future use. -/
def labelledAt (a : Nat) : Field :=
  if a = 12 then .serial 8
  else if a = 90 then .rfu 0
  else if a = 91 then .rfu 1
  else fieldAt a

def Field.label : Field → List Char
  | .serial byte => "SN".toList ++ Nat.toDigits 10 byte
  | .revision byte => "RN".toList ++ Nat.toDigits 10 byte
  | .reserved => "RSVD".toList
  | .i2cEnable => "I2CE".toList
  | .i2cAddress => "I2CA".toList
  | .otpMode => "OTPM".toList
  | .chipMode => "CM".toList
  | .slotConfig slot => "SC".toList ++ Nat.toDigits 10 slot
  | .counter no => "CNT".toList ++ Nat.toDigits 10 no
  | .lastKeyUse byte => "LKU".toList ++ Nat.toDigits 10 byte
  | .userExtra => "UE".toList
  | .selector => "SEL".toList
  | .lockValue => "LV".toList
  | .lockConfig => "LC".toList
  | .slotLocked byte => "SL".toList ++ Nat.toDigits 10 byte
  | .x509Format byte => "X509-".toList ++ Nat.toDigits 10 byte
  | .keyConfig slot => "KC".toList ++ Nat.toDigits 10 slot
  | .rfu byte => "RFU".toList ++ Nat.toDigits 10 byte

section Text

/-- `printf` with the conversions of the program. -/
def render : List Char → List Arg → List Char
  | '%' :: '0' :: '3' :: 'd' :: format, .int n :: args =>
    List.leftpad 3 '0' (Nat.toDigits 10 n) ++ render format args
  | '%' :: 'd' :: format, .int n :: args => Nat.toDigits 10 n ++ render format args
  | '%' :: 's' :: format, .str s :: args => s ++ render format args
  | c :: format, args => c :: render format args
  | [], _ => []

def Event.text : Event → List Char
  | .printf format args => render format.toList args
  | _ => []

/-- Everything that a run prints. -/
def output (trace : List Event) : List Char := trace.flatMap Event.text

theorem output_append (tr tr' : List Event) : output (tr ++ tr') = output tr ++ output tr' :=
  List.flatMap_append

theorem mem_intercalate {sep c : Char} {words : List (List Char)}
    (hc : c ∈ [sep].intercalate words) : c = sep ∨ ∃ word ∈ words, c ∈ word := by
  induction words with
  | nil => exact False.elim (List.not_mem_nil hc)
  | cons word words ih =>
    cases words with
    | nil =>
      rw [List.intercalate_singleton] at hc
      exact .inr ⟨word, List.mem_cons_self, hc⟩
    | cons next words =>
      rw [List.intercalate_cons_cons, List.append_assoc] at hc
      rcases List.mem_append.mp hc with hword | hrest
      · exact .inr ⟨word, List.mem_cons_self, hword⟩
      · rcases List.mem_append.mp hrest with hsep | hlater
        · exact .inl (List.mem_singleton.mp hsep)
        · rcases ih hlater with hsep | ⟨other, hother, hmem⟩
          · exact .inl hsep
          · exact .inr ⟨other, List.mem_cons_of_mem _ hother, hmem⟩

/-- A text of terminated lines splits into them, with nothing behind the last. -/
theorem splitOn_lines {lines : List (List Char)} (hlines : ∀ line ∈ lines, '\n' ∉ line) :
    (lines.flatMap fun line => line ++ ['\n']).splitOn '\n' = lines ++ [[]] := by
  have hjoin : lines.flatMap (fun line => line ++ ['\n']) = ['\n'].intercalate (lines ++ [[]]) := by
    clear hlines
    induction lines with
    | nil => rfl
    | cons line lines ih =>
      rw [List.flatMap_cons, ih, List.cons_append, List.intercalate_cons_of_ne_nil (by simp)]
  rw [hjoin]
  refine List.splitOn_intercalate '\n' (fun line hline => ?_) (by simp)
  rcases List.mem_append.mp hline with hbefore | hlast
  · exact hlines line hbefore
  · rw [List.mem_singleton.mp hlast]
    exact List.not_mem_nil

end Text

section Decoding

def decodeNumber (cs : List Char) : Option Nat :=
  if cs ≠ [] ∧ cs.all Char.isDigit then
    some (cs.foldl (fun n c => 10 * n + (c.toNat - '0'.toNat)) 0)
  else none

/-- The field that a label names. -/
def Field.ofLabel : List Char → Option Field
  | 'S' :: 'N' :: byte => (decodeNumber byte).map .serial
  | 'R' :: 'N' :: byte => (decodeNumber byte).map .revision
  | ['R', 'S', 'V', 'D'] => some .reserved
  | ['I', '2', 'C', 'E'] => some .i2cEnable
  | ['I', '2', 'C', 'A'] => some .i2cAddress
  | ['O', 'T', 'P', 'M'] => some .otpMode
  | ['C', 'M'] => some .chipMode
  | 'S' :: 'C' :: slot => (decodeNumber slot).map .slotConfig
  | 'C' :: 'N' :: 'T' :: no => (decodeNumber no).map .counter
  | 'L' :: 'K' :: 'U' :: byte => (decodeNumber byte).map .lastKeyUse
  | ['U', 'E'] => some .userExtra
  | ['S', 'E', 'L'] => some .selector
  | ['L', 'V'] => some .lockValue
  | ['L', 'C'] => some .lockConfig
  | 'S' :: 'L' :: byte => (decodeNumber byte).map .slotLocked
  | 'R' :: 'F' :: 'U' :: byte => (decodeNumber byte).map .rfu
  | 'X' :: '5' :: '0' :: '9' :: '-' :: byte => (decodeNumber byte).map .x509Format
  | 'K' :: 'C' :: slot => (decodeNumber slot).map .keyConfig
  | _ => none

/-- Eight binary digits, the most significant first. -/
def decodeByte (cs : List Char) : Option UInt8 :=
  if cs.length = 8 ∧ cs.all (fun c => c = '0' ∨ c = '1') then
    some (UInt8.ofNat (cs.foldl (fun n c => 2 * n + if c = '1' then 1 else 0) 0))
  else none

/-- `aaa:bbb`. -/
def decodeHeader (cs : List Char) : Option (Nat × Nat) :=
  match cs.splitOn ':' with
  | [first, last] => do
    let a ← decodeNumber first
    let b ← decodeNumber last
    pure (a, b)
  | _ => none

structure Row where
  first : Nat
  last : Nat
  bytes : List UInt8
  labels : List (List Char)
deriving DecidableEq

def decodeRow (line : List Char) : Option Row :=
  match line.splitOn ' ' with
  | header :: b0 :: b1 :: b2 :: b3 :: labels => do
    let (first, last) ← decodeHeader header
    let bytes ← [b0, b1, b2, b3].mapM decodeByte
    pure ⟨first, last, bytes, labels⟩
  | _ => none

/-- The rows among the lines of a text. -/
def decodeRows (text : List Char) : List Row := (text.splitOn '\n').filterMap decodeRow

/-- A byte under its address and its label. -/
structure Cell where
  address : Nat
  byte : UInt8
  label : List Char
deriving DecidableEq

def Row.cells (row : Row) : List Cell :=
  (List.range 4).map fun j => ⟨row.first + j, row.bytes.getD j 0, row.labels.getD j []⟩

end Decoding

section Rows
variable (data : Vector UInt8 configSize)

def byteEvents (a : Nat) : List Event :=
  [.dataIndex a, .printf "%s " [.str (getBin (data.toList.getD a 0))]]

/-- What is printed after the four bytes of row `r`. -/
def labelEvents (r : Nat) : List Event :=
  if r = 0 then [.printf "SN0 SN1 SN2 SN3\n" []]
  else if r = 1 then [.printf "RN0 RN1 RN2 RN3\n" []]
  else if r = 2 then [.printf "SN4 SN5 SN6 SN7\n" []]
  else if r = 3 then [.printf "SN8 RSVD I2CE RSVD\n" []]
  else if r = 4 then [.printf "I2CA RSVD OTPM CM\n" []]
  else if r < 13 then
    [.printf "SC%d SC%d " [.int (2 * (r - 5)), .int (2 * (r - 5))],
      .printf "SC%d SC%d\n" [.int (2 * (r - 5) + 1), .int (2 * (r - 5) + 1)]]
  else if r < 17 then
    [.printf "CNT%d CNT%d CNT%d CNT%d\n" [.int ((r - 13) / 2), .int ((r - 13) / 2),
      .int ((r - 13) / 2), .int ((r - 13) / 2)]]
  else if r < 21 then
    [.printf "LKU%d LKU%d LKU%d LKU%d\n" [.int (4 * (r - 17)), .int (4 * (r - 17) + 1),
      .int (4 * (r - 17) + 2), .int (4 * (r - 17) + 3)]]
  else if r = 21 then [.printf "UE SEL LV LC\n" []]
  else if r = 22 then [.printf "SL0 SL1 RFU0 RFU1\n" []]
  else if r = 23 then [.printf "X509-0 X509-1 X509-2 X509-3\n" []]
  else
    [.printf "KC%d KC%d " [.int (2 * (r - 24)), .int (2 * (r - 24))],
      .printf "KC%d KC%d\n" [.int (2 * (r - 24) + 1), .int (2 * (r - 24) + 1)]]

/-- Header and bytes of row `r`. -/
def bytesEvents (r : Nat) : List Event :=
  .printf "%03d:%03d " [.int (4 * r), .int (4 * r + 3)] ::
    (List.range 4).flatMap fun j => byteEvents data (4 * r + j)

def rowEvents (r : Nat) : List Event := bytesEvents data r ++ labelEvents r

/-- The index and the counters where row `r` begins. -/
def boardAt (d : Device) (r : Nat) : Board :=
  ⟨d, UInt8.ofNat (4 * r), min 16 (2 * (r - 5)), min 2 ((r - 13) / 2), 2 * (r - 24)⟩

/-- From the start of row `r` the program prints `n` rows and stops behind them,
with the board that `boards` has for each row. -/
def PrintsRows (boards : Nat → Board) (r n : Nat) (p : App Unit) : Prop :=
  ∀ ins, p.exec ins (boards r) =
    ⟨(List.range' r n).flatMap (rowEvents data), boards (r + n), ins, some ()⟩

end Rows

section Printing
variable {data : Vector UInt8 configSize} {r : Nat}

theorem printByte_exec {a : Nat} (ha : a < configSize) (s : Board) (ins : List Empty) :
    (printByte data).exec ins { s with dataCount := UInt8.ofNat a } =
      ⟨byteEvents data a, { s with dataCount := UInt8.ofNat (a + 1) }, ins, some ()⟩ := by
  have hindex : (UInt8.ofNat a).toNat = a := by
    rw [UInt8.toNat_ofNat']
    have : a < 128 := ha
    omega
  simp [printByte, byteEvents, hindex, UInt8.ofNat_add]

/-- The index runs through the row. -/
theorem printedBytes_exec {n : Nat} (hn : 4 * r + n ≤ 128) (s : Board) (ins : List Empty) :
    (forRange n fun _ => printByte data).exec ins { s with dataCount := UInt8.ofNat (4 * r) } =
      ⟨(List.range n).flatMap fun j => byteEvents data (4 * r + j),
        { s with dataCount := UInt8.ofNat (4 * r + n) }, ins, some ()⟩ := by
  induction n with
  | zero => rfl
  | succ n ih =>
    have hprev := ih (by omega)
    rw [forRange_succ_exec (by rw [hprev])]
    have ha : 4 * r + n < configSize := by
      simp only [configSize]
      omega
    simp only [hprev, printByte_exec ha, List.range_succ, List.flatMap_append,
      List.flatMap_singleton, Nat.add_assoc]

theorem printBytes_exec (hr : r < 32) (s : Board) (ins : List Empty) :
    (printBytes data).exec ins { s with dataCount := UInt8.ofNat (4 * r) } =
      ⟨bytesEvents data r, { s with dataCount := UInt8.ofNat (4 * (r + 1)) }, ins, some ()⟩ := by
  have hindex : (UInt8.ofNat (4 * r)).toNat = 4 * r := by
    rw [UInt8.toNat_ofNat']
    omega
  have hbytes : (forRange 4 fun _ => printByte data).exec ins
      { s with dataCount := UInt8.ofNat (4 * r) } = _ := printedBytes_exec (by omega) s ins
  simp only [printBytes, bind_exec, act_exec, andThen_some, hbytes, hindex]
  rfl

section Rules
variable {boards : Nat → Board} {n k : Nat}

theorem PrintsRows.bind {p q : App Unit} (hp : PrintsRows data boards r n p)
    (hq : PrintsRows data boards (r + n) k q) :
    PrintsRows data boards r (n + k) (p >>= fun _ => q) := by
  intro ins
  rw [bind_exec, hp ins, andThen_some, hq ins, ← List.flatMap_append, List.range'_append_1,
    Nat.add_assoc]

theorem PrintsRows.forRange {body : Nat → App Unit}
    (h : ∀ i, i < k → PrintsRows data boards (r + n * i) n (body i)) :
    PrintsRows data boards r (n * k) (forRange k body) := by
  induction k with
  | zero => exact fun ins => rfl
  | succ k ih =>
    have hprev : PrintsRows data boards r (n * k) (InputProgram.forRange k body) :=
      ih fun i hi => h i (by omega)
    rw [Nat.mul_succ]
    exact hprev.bind (h k (by omega))

/-- A row is its bytes and what `p` prints. -/
theorem printsRows_one {p : App Unit} (hr : r < 32)
    (hindex : (boards r).dataCount = UInt8.ofNat (4 * r))
    (hp : ∀ ins, p.exec ins { boards r with dataCount := UInt8.ofNat (4 * (r + 1)) } =
      ⟨labelEvents r, boards (r + 1), ins, some ()⟩) :
    PrintsRows data boards r 1 (printBytes data >>= fun _ => p) := by
  intro ins
  have hstart : boards r = { boards r with dataCount := UInt8.ofNat (4 * r) } := by rw [← hindex]
  rw [bind_exec, hstart, printBytes_exec hr, andThen_some, hp]
  simp [rowEvents]

theorem printsRows_printRow {label : String} (hr : r < 32)
    (hindex : (boards r).dataCount = UInt8.ofNat (4 * r))
    (hlabel : labelEvents r = [.printf label []])
    (hboard : { boards r with dataCount := UInt8.ofNat (4 * (r + 1)) } = boards (r + 1)) :
    PrintsRows data boards r 1 (printRow data label) := by
  refine printsRows_one hr hindex fun ins => ?_
  rw [hboard, hlabel]
  rfl

end Rules

variable (d : Device)

theorem printsRows_slot {i : Nat} (hi : i < 8) :
    PrintsRows data (boardAt d) (5 + i) 1 (printSlotRow data) := by
  have hlabel : labelEvents (5 + i) = [.printf "SC%d SC%d " [.int (2 * i), .int (2 * i)],
      .printf "SC%d SC%d\n" [.int (2 * i + 1), .int (2 * i + 1)]] := by
    revert i
    decide
  have hcount : min 16 (2 * (5 + i - 5)) = 2 * i := by omega
  have hcount' : min 16 (2 * (5 + i + 1 - 5)) = 2 * i + 1 + 1 := by omega
  have hno : min 2 ((5 + i - 13) / 2) = min 2 ((5 + i + 1 - 13) / 2) := by omega
  have hkey : 2 * (5 + i - 24) = 2 * (5 + i + 1 - 24) := by omega
  refine printsRows_one (by omega) rfl fun ins => ?_
  simp only [boardAt, hcount, hcount', hno, hkey, hlabel]
  rfl

theorem printsRows_counters {k : Nat} (hk : k < 2) :
    PrintsRows data (boardAt d) (13 + 2 * k) 2 (do
      forRange 2 fun _ => printCounterRow data
      act fun s => ((), { s with cntNo := s.cntNo + 1 }, [])) := by
  -- the counter is stepped behind two rows, so the rows before are its own
  have hrows : PrintsRows data
      (fun r => { boardAt d (13 + 2 * k) with dataCount := UInt8.ofNat (4 * r) }) (13 + 2 * k)
      (1 * 2)
      (forRange 2 fun _ => printCounterRow data) := by
    refine .forRange fun i hi => printsRows_one (by omega) rfl fun ins => ?_
    have hlabel : labelEvents (13 + 2 * k + 1 * i) =
        [.printf "CNT%d CNT%d CNT%d CNT%d\n" [.int k, .int k, .int k, .int k]] := by
      obtain rfl | rfl : k = 0 ∨ k = 1 := by omega
      all_goals obtain rfl | rfl : i = 0 ∨ i = 1 := by omega
      all_goals rfl
    have hno : min 2 ((13 + 2 * k - 13) / 2) = k := by omega
    simp only [boardAt, hno, hlabel]
    rfl
  intro ins
  have hno : min 2 ((13 + 2 * k - 13) / 2) + 1 = min 2 ((13 + 2 * k + 2 - 13) / 2) := by omega
  have hslot : min 16 (2 * (13 + 2 * k - 5)) = min 16 (2 * (13 + 2 * k + 2 - 5)) := by omega
  have hkey : 2 * (13 + 2 * k - 24) = 2 * (13 + 2 * k + 2 - 24) := by omega
  have hexec := hrows ins
  simp only [boardAt] at hexec
  rw [bind_exec, boardAt, hexec]
  simp only [andThen_some, act_exec, boardAt, hno, hslot, hkey, List.append_nil]

theorem printsRows_keyUse {k : Nat} (hk : k < 4) :
    PrintsRows data (boardAt d) (17 + k) 1 (printKeyUseRow data (4 * k)) := by
  have hlabel : labelEvents (17 + k) = [.printf "LKU%d LKU%d LKU%d LKU%d\n"
      [.int (4 * k), .int (4 * k + 1), .int (4 * k + 2), .int (4 * k + 3)]] := by
    revert k
    decide
  have hslot : min 16 (2 * (17 + k - 5)) = min 16 (2 * (17 + k + 1 - 5)) := by omega
  have hno : min 2 ((17 + k - 13) / 2) = min 2 ((17 + k + 1 - 13) / 2) := by omega
  have hkey : 2 * (17 + k - 24) = 2 * (17 + k + 1 - 24) := by omega
  refine printsRows_one (by omega) rfl fun ins => ?_
  simp only [boardAt, hslot, hno, hkey, hlabel]
  rfl

theorem printsRows_key {i : Nat} (hi : i < 8) :
    PrintsRows data (boardAt d) (24 + i) 1 (printKeyRow data) := by
  have hlabel : labelEvents (24 + i) = [.printf "KC%d KC%d " [.int (2 * i), .int (2 * i)],
      .printf "KC%d KC%d\n" [.int (2 * i + 1), .int (2 * i + 1)]] := by
    revert i
    decide
  have hkey : 2 * (24 + i - 24) = 2 * i := by omega
  have hkey' : 2 * (24 + i + 1 - 24) = 2 * i + 1 + 1 := by omega
  have hslot : min 16 (2 * (24 + i - 5)) = min 16 (2 * (24 + i + 1 - 5)) := by omega
  have hno : min 2 ((24 + i - 13) / 2) = min 2 ((24 + i + 1 - 13) / 2) := by omega
  refine printsRows_one (by omega) rfl fun ins => ?_
  simp only [boardAt, hkey, hkey', hslot, hno, hlabel]
  rfl

/-- The dozen loops print the 32 rows. -/
theorem printZone_exec (ins : List Empty) :
    (printZone data).exec ins (.boot d) =
      ⟨.printf "Config zone: \n\n" [] :: (List.range 32).flatMap (rowEvents data),
        boardAt d 32, ins, some ()⟩ := by
  have hrow {label : String} {r : Nat} (hr : r < 32) (hlabel : labelEvents r = [.printf label []])
      (hboard : { boardAt d r with dataCount := UInt8.ofNat (4 * (r + 1)) } = boardAt d (r + 1)) :
      PrintsRows data (boardAt d) r 1 (printRow data label) :=
    printsRows_printRow hr rfl hlabel hboard
  have hrows : PrintsRows data (boardAt d) 0 32 (do
      printRow data "SN0 SN1 SN2 SN3\n"
      printRow data "RN0 RN1 RN2 RN3\n"
      printRow data "SN4 SN5 SN6 SN7\n"
      printRow data "SN8 RSVD I2CE RSVD\n"
      printRow data "I2CA RSVD OTPM CM\n"
      forRange 8 fun _ => printSlotRow data
      forRange 2 fun _ => do
        forRange 2 fun _ => printCounterRow data
        act fun s => ((), { s with cntNo := s.cntNo + 1 }, [])
      forRange 4 fun k => printKeyUseRow data (4 * k)
      printRow data "UE SEL LV LC\n"
      printRow data "SL0 SL1 RFU0 RFU1\n"
      printRow data "X509-0 X509-1 X509-2 X509-3\n"
      forRange 8 fun _ => printKeyRow data) := by
    refine (hrow (r := 0) (by decide) rfl rfl).bind (k := 31) <|
      (hrow (r := 1) (by decide) rfl rfl).bind (k := 30) <|
      (hrow (r := 2) (by decide) rfl rfl).bind (k := 29) <|
      (hrow (r := 3) (by decide) rfl rfl).bind (k := 28) <|
      (hrow (r := 4) (by decide) rfl rfl).bind (k := 27) <|
      (PrintsRows.forRange (r := 5) (n := 1) (k := 8) fun i hi => ?_).bind (k := 19) <|
      (PrintsRows.forRange (r := 13) (n := 2) (k := 2) fun i hi => ?_).bind (k := 15) <|
      (PrintsRows.forRange (r := 17) (n := 1) (k := 4) fun i hi => ?_).bind (k := 11) <|
      (hrow (r := 21) (by decide) rfl rfl).bind (k := 10) <|
      (hrow (r := 22) (by decide) rfl rfl).bind (k := 9) <|
      (hrow (r := 23) (by decide) rfl rfl).bind (k := 8) <|
      PrintsRows.forRange (r := 24) (n := 1) (k := 8) fun i hi => ?_
    · rw [Nat.one_mul]
      exact printsRows_slot d hi
    · exact printsRows_counters d hi
    · rw [Nat.one_mul]
      exact printsRows_keyUse d hi
    · rw [Nat.one_mul]
      exact printsRows_key d hi
  have hboot : Board.boot d = boardAt d 0 := rfl
  rw [printZone, bind_exec, hboot]
  simp only [print, emit_exec, andThen_some, hrows ins, List.range_eq_range', List.singleton_append]

end Printing

section RoundTrip
variable (data : Vector UInt8 configSize) (r : Nat)

def headerWord : List Char :=
  List.leftpad 3 '0' (Nat.toDigits 10 (4 * r)) ++ ':' ::
    List.leftpad 3 '0' (Nat.toDigits 10 (4 * r + 3))

def rowBytes : List UInt8 := (List.range 4).map fun j => data.toList.getD (4 * r + j) 0

def rowLabels : List (List Char) := (List.range 4).map fun j => (labelledAt (4 * r + j)).label

/-- The words of a printed row. -/
def rowWords : List (List Char) := headerWord r :: (rowBytes data r).map getBin ++ rowLabels r

def rowLine : List Char := [' '].intercalate (rowWords data r)

def rowAt : Row := ⟨4 * r, 4 * r + 3, rowBytes data r, rowLabels r⟩

theorem decodeByte_getBin (byte : UInt8) : decodeByte (getBin byte) = some byte := by
  have hall : ∀ n < 256, decodeByte (getBin (UInt8.ofNat n)) = some (UInt8.ofNat n) := by
    decide +kernel
  have hbyte := hall byte.toNat byte.toNat_lt
  rwa [UInt8.ofNat_toNat] at hbyte

theorem mem_getBin {byte : UInt8} {c : Char} (hc : c ∈ getBin byte) : c = '0' ∨ c = '1' := by
  simp only [getBin, List.mem_map] at hc
  obtain ⟨i, _, rfl⟩ := hc
  split
  · exact .inr rfl
  · exact .inl rfl

variable {data r}

theorem decodeHeader_headerWord (hr : r < 32) :
    decodeHeader (headerWord r) = some (4 * r, 4 * r + 3) := by
  revert r
  decide +kernel

/-- The separators occur in no word of a row. -/
theorem notMem_rowWords (hr : r < 32) : ∀ word ∈ rowWords data r, ' ' ∉ word ∧ '\n' ∉ word := by
  have hheader : ∀ r < 32, ' ' ∉ headerWord r ∧ '\n' ∉ headerWord r := by decide +kernel
  have hlabels : ∀ r < 32, ∀ word ∈ rowLabels r, ' ' ∉ word ∧ '\n' ∉ word := by decide +kernel
  intro word hword
  simp only [rowWords, List.cons_append, List.mem_cons, List.mem_append, List.mem_map] at hword
  rcases hword with rfl | ⟨byte, _, rfl⟩ | hlabel
  · exact hheader r hr
  · constructor
    · intro hc
      exact absurd (mem_getBin hc) (by decide)
    · intro hc
      exact absurd (mem_getBin hc) (by decide)
  · exact hlabels r hr word hlabel

theorem decodeRow_rowLine (hr : r < 32) : decodeRow (rowLine data r) = some (rowAt data r) := by
  have hwords : (rowLine data r).splitOn ' ' = rowWords data r :=
    List.splitOn_intercalate ' ' (fun word hword => (notMem_rowWords hr word hword).1)
      (List.cons_ne_nil _ _)
  simp [decodeRow, hwords, rowWords, rowBytes, rowAt, decodeHeader_headerWord hr, decodeByte_getBin,
    List.range_succ]

/-- A row is printed as one line. -/
theorem output_rowEvents (hr : r < 32) :
    output (rowEvents data r) = rowLine data r ++ ['\n'] := by
  have hlabels : ∀ r < 32, output (labelEvents r) = [' '].intercalate (rowLabels r) ++ ['\n'] := by
    decide +kernel
  have hheader : Event.text (.printf "%03d:%03d " [.int (4 * r), .int (4 * r + 3)]) =
      headerWord r ++ [' '] := by
    simp only [headerWord, List.append_assoc, List.cons_append]
    rfl
  have hbyte (a : Nat) : output (byteEvents data a) = getBin (data.toList.getD a 0) ++ [' '] := rfl
  have hbytes : output (bytesEvents data r) =
      headerWord r ++ [' '] ++
        ((rowBytes data r).map getBin).flatMap fun word => word ++ [' '] := by
    simp only [bytesEvents, output, List.flatMap_cons, hheader, List.flatMap_assoc, rowBytes,
      List.flatMap_map]
    exact congrArg _ (List.flatMap_congr fun j _ => hbyte _)
  rw [rowEvents, output_append, hlabels r hr, hbytes, rowLine, rowWords]
  simp [rowBytes, rowLabels, List.range_succ, List.intercalate_cons_cons]

theorem newline_notMem_rowLine (hr : r < 32) : '\n' ∉ rowLine data r := by
  intro hc
  rcases mem_intercalate hc with hsep | ⟨word, hword, hmem⟩
  · exact absurd hsep (by decide)
  · exact (notMem_rowWords hr word hword).2 hmem

end RoundTrip

section Run

/-- What `read_config` shows behind the call that reads the zone. -/
def dumpEvents (o : Outcomes) (d : Device) : List Event :=
  match o.readConfig with
  | .failure => [.printf "Error reading config zone\n" []]
  | .success => .printf "Config zone: \n\n" [] :: (List.range 32).flatMap (rowEvents d.zone)

def dumped (o : Outcomes) (d : Device) : Board :=
  match o.readConfig with
  | .failure => .boot d
  | .success => boardAt d 32

theorem dumped_device (o : Outcomes) (d : Device) : (dumped o d).device = d := by
  simp only [dumped]
  split <;> rfl

theorem readConfig_exec (o : Outcomes) (d : Device) :
    (readConfig o).exec [] (.boot d) =
      ⟨.call .readConfigZone o.readConfig d d :: dumpEvents o d, dumped o d, [], some ()⟩ := by
  have hzone : (printZone d.zone).exec [] ⟨d, 0, 0, 0, 0⟩ = _ := printZone_exec d []
  simp only [readConfig, call, bind_exec, act_exec, andThen_some, Board.boot, dumpEvents, dumped]
  cases o.readConfig with
  | failure => simp only [print, emit_exec, List.nil_append, List.singleton_append]
  | success =>
    simp only [bind_exec, act_exec, andThen_some, hzone, List.nil_append, List.singleton_append]

/-- Neither a call nor a line of the report. -/
def Event.OfDump : Event → Prop
  | .call _ _ _ _ => False
  | .printf line _ => line ∉ reportLines
  | .dataIndex _ => True

instance (e : Event) : Decidable e.OfDump :=
  match e with
  | .call _ _ _ _ => inferInstanceAs (Decidable False)
  | .printf line _ => inferInstanceAs (Decidable (line ∉ reportLines))
  | .dataIndex _ => inferInstanceAs (Decidable True)

theorem dumpEvents_ofDump (o : Outcomes) (d : Device) : ∀ e ∈ dumpEvents o d, e.OfDump := by
  have hlabels : ∀ r < 32, ∀ e ∈ labelEvents r, e.OfDump := by decide
  have hheader (r : Nat) : Event.OfDump (.printf "%03d:%03d " [.int (4 * r), .int (4 * r + 3)]) :=
    show "%03d:%03d " ∉ reportLines by decide
  have hbyte (a : Nat) : ∀ e ∈ byteEvents d.zone a, e.OfDump := by
    have hformat : "%s " ∉ reportLines := by decide
    simpa [byteEvents, Event.OfDump] using hformat
  intro e he
  simp only [dumpEvents] at he
  split at he
  · rw [List.mem_singleton.mp he]
    decide
  · rcases List.mem_cons.mp he with rfl | hrow
    · decide
    · obtain ⟨r, hr, hrow⟩ := List.mem_flatMap.mp hrow
      rcases List.mem_append.mp hrow with hbytes | hlabel
      · rcases List.mem_cons.mp hbytes with rfl | hbyte'
        · exact hheader r
        · obtain ⟨j, _, hbyte'⟩ := List.mem_flatMap.mp hbyte'
          exact hbyte _ e hbyte'
      · exact hlabels r (List.mem_range.mp hr) e hlabel

/-- A whole run, with the device that the configuring part leaves. -/
theorem main_exec (b : Build) (o : Outcomes) (d : Device) :
    ∃ tr, (main b o).exec [] (.boot d) =
        ⟨tr ++ (.call .readConfigZone o.readConfig (prepared b o d) (prepared b o d) ::
          dumpEvents o (prepared b o d) ++ reportEvents o (prepared b o d)),
          dumped o (prepared b o d), [], some ()⟩ ∧ ∀ e ∈ tr, e.Within warnings := by
  obtain ⟨tr, hprepare, hwithin⟩ := prepares_prepare b o d
  refine ⟨tr, ?_, hwithin⟩
  rw [main_eq, bind_exec, hprepare, andThen_some, bind_exec, readConfig_exec, andThen_some,
    report_exec, dumped_device]

end Run

/-- The trace prints whole lines, and these are the rows among them. -/
def PrintsLines (tr : List Event) (rows : List Row) : Prop :=
  ∃ lines : List (List Char), output tr = (lines.flatMap fun line => line ++ ['\n']) ∧
    (∀ line ∈ lines, '\n' ∉ line) ∧ lines.filterMap decodeRow = rows

/-- The index of an access to `data`. -/
def Event.index : Event → Option Nat
  | .dataIndex i => some i
  | _ => none

section Decoded
variable {tr tr' : List Event} {rows rows' : List Row} {data : Vector UInt8 configSize}

theorem PrintsLines.decodeRows_eq (h : PrintsLines tr rows) : decodeRows (output tr) = rows := by
  obtain ⟨lines, htext, hlines, hrows⟩ := h
  have hlast : decodeRow [] = none := by decide
  rw [decodeRows, htext, splitOn_lines hlines, List.filterMap_append, hrows]
  simp [hlast]

theorem PrintsLines.append (h : PrintsLines tr rows) (h' : PrintsLines tr' rows') :
    PrintsLines (tr ++ tr') (rows ++ rows') := by
  obtain ⟨lines, htext, hlines, hrows⟩ := h
  obtain ⟨lines', htext', hlines', hrows'⟩ := h'
  refine ⟨lines ++ lines', ?_, ?_, ?_⟩
  · rw [output_append, htext, htext', List.flatMap_append]
  · intro line hline
    rcases List.mem_append.mp hline with hfirst | hnext
    · exact hlines line hfirst
    · exact hlines' line hnext
  · rw [List.filterMap_append, hrows, hrows']

/-- The lines outside the rows. -/
def remarks : List String := warnings ++ "Config zone: \n\n" :: reportLines

theorem printsLines_within {e : Event} (he : e.Within remarks) : PrintsLines [e] [] := by
  have hremarks : ∀ line ∈ remarks, ∃ lines ∈ [(line.toList.splitOn '\n').dropLast],
      render line.toList [] = (lines.flatMap fun line => line ++ ['\n']) ∧
        (∀ line ∈ lines, '\n' ∉ line) ∧ lines.filterMap decodeRow = [] := by decide +kernel
  cases e with
  | call c status before after => exact ⟨[], rfl, by simp, rfl⟩
  | dataIndex i => exact False.elim he
  | printf line args =>
    obtain ⟨hline, rfl⟩ := he
    obtain ⟨lines, _, htext, hlines, hrows⟩ := hremarks line hline
    refine ⟨lines, ?_, hlines, hrows⟩
    rw [← htext]
    simp [output, Event.text]

theorem Event.Within.mono {lines : List String} (hlines : ∀ line ∈ lines, line ∈ remarks)
    {e : Event} (he : e.Within lines) : e.Within remarks := by
  cases e with
  | printf line args => exact ⟨hlines line he.1, he.2⟩
  | _ => exact he

theorem printsLines_of_within {lines : List String} (hlines : ∀ line ∈ lines, line ∈ remarks)
    (h : ∀ e ∈ tr, e.Within lines) : PrintsLines tr [] := by
  induction tr with
  | nil => exact ⟨[], rfl, by simp, rfl⟩
  | cons e tr ih =>
    have hfirst : PrintsLines [e] [] := printsLines_within ((h e List.mem_cons_self).mono hlines)
    exact hfirst.append (ih fun e' he' => h e' (List.mem_cons_of_mem e he'))

theorem printsLines_rows {n : Nat} (hn : n ≤ 32) :
    PrintsLines ((List.range n).flatMap (rowEvents data)) ((List.range n).map (rowAt data)) := by
  induction n with
  | zero => exact ⟨[], rfl, by simp, rfl⟩
  | succ n ih =>
    have hn' : n < 32 := by omega
    have hrow : PrintsLines (rowEvents data n) [rowAt data n] := by
      refine ⟨[rowLine data n], ?_, ?_, ?_⟩
      · simpa using output_rowEvents hn'
      · simpa using newline_notMem_rowLine hn'
      · simp [decodeRow_rowLine hn']
    rw [List.range_succ, List.flatMap_append, List.map_append, List.flatMap_singleton]
    exact (ih (by omega)).append hrow

theorem index_of_within {lines : List String} (h : ∀ e ∈ tr, e.Within lines) :
    tr.filterMap Event.index = [] := by
  refine List.filterMap_eq_nil_iff.mpr fun e he => ?_
  cases e with
  | dataIndex i => exact False.elim (h _ he)
  | _ => rfl

/-- The rows access the bytes of the zone one after the other. -/
theorem index_rows :
    ((List.range 32).flatMap (rowEvents data)).filterMap Event.index = List.range configSize := by
  have hlabels : ∀ r < 32, (labelEvents r).filterMap Event.index = [] := by decide
  have hrow {r : Nat} (hr : r < 32) : (rowEvents data r).filterMap Event.index =
      (List.range 4).map fun j => 4 * r + j := by
    rw [rowEvents, List.filterMap_append, hlabels r hr]
    rfl
  rw [List.filterMap_flatMap, List.flatMap_congr fun r hr => hrow (List.mem_range.mp hr)]
  decide

theorem cells_rows : ((List.range 32).map (rowAt data)).flatMap Row.cells =
    (List.range configSize).map fun a => ⟨a, data.toList.getD a 0, (labelledAt a).label⟩ := by
  rw [List.flatMap_map]
  rfl

/-- The zone is read once, and by this call. -/
theorem read_mem_run {b : Build} {o : Outcomes} {d before after : Device} {status : Status}
    (hread : .call .readConfigZone status before after ∈ run b o d) :
    status = o.readConfig ∧ before = prepared b o d := by
  obtain ⟨tr, hmain, hwithin⟩ := main_exec b o d
  rw [run, hmain] at hread
  simp only [List.mem_append, List.mem_cons] at hread
  rcases hread with htr | (hcall | hdump) | hreport
  · exact False.elim (hwithin _ htr rfl)
  · injection hcall with _ hstatus hbefore _
    exact ⟨hstatus, hbefore⟩
  · exact False.elim (dumpEvents_ofDump o _ _ hdump)
  · exact False.elim (reportEvents_within o _ _ hreport rfl)

end Decoded

theorem ofLabel_label : ∀ a < configSize,
    Field.ofLabel (labelledAt a).label = some (labelledAt a) := by
  decide +kernel

section Dump
variable {b : Build} {o : Outcomes} {d before after : Device}

/-- The trace has no row in it and does not touch the zone. -/
structure OutsideZone (tr : List Event) : Prop where
  lines : PrintsLines tr []
  indices : tr.filterMap Event.index = []

theorem outsideZone_of_within {lines : List String} {tr : List Event}
    (hlines : ∀ line ∈ lines, line ∈ remarks) (h : ∀ e ∈ tr, e.Within lines) : OutsideZone tr :=
  ⟨printsLines_of_within hlines h, index_of_within h⟩

/-- What a run shows when the zone could be read. -/
theorem run_of_read (hread : .call .readConfigZone .success before after ∈ run b o d) :
    ∃ opening closing, OutsideZone opening ∧ OutsideZone closing ∧
      run b o d = opening ++ ((List.range 32).flatMap (rowEvents before.zone) ++ closing) ∧
      ((main b o).exec [] (.boot d)).state = boardAt before 32 := by
  obtain ⟨hstatus, rfl⟩ := read_mem_run hread
  obtain ⟨tr, hmain, hwithin⟩ := main_exec b o d
  have hbefore : OutsideZone tr := outsideZone_of_within (by decide) hwithin
  have htitle : PrintsLines [.printf "Config zone: \n\n" []] [] :=
    printsLines_within ⟨by decide, rfl⟩
  have hcall : PrintsLines [.call .readConfigZone .success (prepared b o d) (prepared b o d)] [] :=
    ⟨[], rfl, by simp, rfl⟩
  refine ⟨tr ++ ([.call .readConfigZone .success (prepared b o d) (prepared b o d)] ++
    [.printf "Config zone: \n\n" []]), reportEvents o (prepared b o d), ⟨?_, ?_⟩, ?_, ?_, ?_⟩
  · exact hbefore.lines.append (hcall.append htitle)
  · rw [List.filterMap_append, hbefore.indices]
    rfl
  · exact outsideZone_of_within (by decide) (reportEvents_within o _)
  · rw [run, hmain]
    simp [dumpEvents, ← hstatus]
  · rw [hmain]
    simp only [dumped, ← hstatus]

theorem decodeRows_run (hread : .call .readConfigZone .success before after ∈ run b o d) :
    decodeRows (output (run b o d)) = (List.range 32).map (rowAt before.zone) := by
  obtain ⟨opening, closing, hopening, hclosing, hrun, _⟩ := run_of_read hread
  have hrows : PrintsLines ((List.range 32).flatMap (rowEvents before.zone)) _ :=
    printsLines_rows (Nat.le_refl 32)
  have hlines := hopening.lines.append (hrows.append hclosing.lines)
  rw [← hrun] at hlines
  simpa using hlines.decodeRows_eq

theorem cells_run (hread : .call .readConfigZone .success before after ∈ run b o d) :
    (decodeRows (output (run b o d))).flatMap Row.cells = (List.range configSize).map fun a =>
      ⟨a, before.zone.toList.getD a 0, (labelledAt a).label⟩ := by
  rw [decodeRows_run hread, cells_rows]

end Dump

/-- The text of a run is the print of `zone`: 32 rows of four bytes and four labels, under
their first and last address, which give back every byte of the zone once, under its own
address; a label names what `names` has for the address; and the index stays inside the
zone and ends at its size. -/
structure Dumps (names : Nat → Field) (b : Build) (o : Outcomes) (d : Device)
    (zone : Vector UInt8 configSize) : Prop where
  rows : (decodeRows (output (run b o d))).map (fun row =>
      (row.first, row.last, row.bytes.length, row.labels.length)) =
    (List.range 32).map fun r => (4 * r, 4 * r + 3, 4, 4)
  cells : ((decodeRows (output (run b o d))).flatMap Row.cells).map (fun cell =>
      (cell.address, cell.byte)) = (List.range configSize).map fun a => (a, zone.toList.getD a 0)
  labels : ∀ cell ∈ (decodeRows (output (run b o d))).flatMap Row.cells,
    Field.ofLabel cell.label = some (names cell.address)
  indices : (run b o d).filterMap Event.index = List.range configSize
  count : ((main b o).exec [] (.boot d)).state.dataCount = UInt8.ofNat configSize

/-- Whatever zone the chip returns, the text of the run is its print. The labels name
the fields of the layout but at three addresses. -/
theorem dump_decodes (b : Build) (o : Outcomes) (d : Device) {before after : Device}
    (hread : .call .readConfigZone .success before after ∈ run b o d) :
    Dumps labelledAt b o d before.zone := by
  obtain ⟨opening, closing, hopening, hclosing, hrun, hstate⟩ := run_of_read hread
  constructor
  case rows =>
    rw [decodeRows_run hread, List.map_map]
    exact List.map_congr_left fun r _ => rfl
  case cells =>
    rw [cells_run hread, List.map_map]
    rfl
  case labels =>
    intro cell hcell
    rw [cells_run hread] at hcell
    obtain ⟨a, ha, rfl⟩ := List.mem_map.mp hcell
    exact ofLabel_label a (List.mem_range.mp ha)
  case indices =>
    rw [hrun, List.filterMap_append, List.filterMap_append, hopening.indices, hclosing.indices,
      index_rows, List.nil_append, List.append_nil]
  case count =>
    rw [hstate]
    rfl

section Pattern

/-- A chip that is configured and locked; nothing fails. -/
def patternDevice : Device := ⟨patternSlotConfig, true, true⟩

def allSucceed : Outcomes :=
  ⟨.complete, .locked, .locked, .success, .success, .success⟩

theorem dump_decodes_pattern :
    .call .readConfigZone .success patternDevice patternDevice ∈
        run ⟨false, false⟩ allSucceed patternDevice ∧
      Dumps labelledAt ⟨false, false⟩ allSucceed patternDevice patternDevice.zone := by
  have hread : .call .readConfigZone .success patternDevice patternDevice ∈
      run ⟨false, false⟩ allSucceed patternDevice := List.mem_cons_self
  exact ⟨hread, dump_decodes ⟨false, false⟩ allSucceed patternDevice hread⟩

/-- The comments lay out SlotLocked at address 90, where the label is RFU0. -/
theorem labels_leave_layout :
    .call .readConfigZone .success patternDevice patternDevice ∈
        run ⟨false, false⟩ allSucceed patternDevice ∧
      ¬ Dumps fieldAt ⟨false, false⟩ allSucceed patternDevice patternDevice.zone := by
  have hread : .call .readConfigZone .success patternDevice patternDevice ∈
      run ⟨false, false⟩ allSucceed patternDevice := List.mem_cons_self
  refine ⟨hread, fun hdumps => ?_⟩
  have hcell : (⟨90, 0, "RFU0".toList⟩ : Cell) ∈
      (decodeRows (output (run ⟨false, false⟩ allSucceed patternDevice))).flatMap Row.cells := by
    rw [cells_run hread]
    exact List.mem_map.mpr ⟨90, by decide, by decide +kernel⟩
  exact absurd (hdumps.labels _ hcell) (by decide +kernel)

end Pattern

end ConfigLock
