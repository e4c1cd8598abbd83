import EwsnCrypto.Base.InputProgram
import EwsnCrypto.Base.ProgramLogic
import EwsnCrypto.Trigger
import EwsnCrypto.ConfigLock.Locking
import EwsnCrypto.Ecc.Steps
import EwsnCrypto.Ecdh.Model
import EwsnCrypto.Ecdsa.Model
import EwsnCrypto.Ecdsa.Digest
import EwsnCrypto.Ecdsa.Progress
import EwsnCrypto.Ecdh.Effects
import EwsnCrypto.Ecdh.Freshness
import EwsnCrypto.Ecdsa.Effects
import EwsnCrypto.Ecdsa.Freshness
import EwsnCrypto.Verdicts
import EwsnCrypto.Ecdh.Agreement
import EwsnCrypto.Base.Monitor
import EwsnCrypto.Ecc.Windows
import EwsnCrypto.Discipline
import EwsnCrypto.Aes.Backend
import EwsnCrypto.Energy.Handshake
import EwsnCrypto.Energy.Section5
import EwsnCrypto.Energy.Waveform
import EwsnCrypto.Energy.Masking
import EwsnCrypto.Aes.RuntimeTests
import EwsnCrypto.Atecc.Model
import EwsnCrypto.Atecc.Watchdog
import EwsnCrypto.Atecc.Responsive
import EwsnCrypto.Aes.ParallelTest
import EwsnCrypto.Aes.ParallelPins
import EwsnCrypto.Energy.Applications
import EwsnCrypto.ConfigLock.Dump
import EwsnCrypto.ConfigLock.Report
import EwsnCrypto.Ecdsa.Footprint
import EwsnCrypto.Base.Output
import EwsnCrypto.Atecc.Context
import EwsnCrypto.Atecc.Transparency
import EwsnCrypto.Base.SharedStore
import EwsnCrypto.SwCompare.Model
import EwsnCrypto.SwCompare.Verdicts
import EwsnCrypto.SwCompare.Sha256
import EwsnCrypto.SwCompare.Aes
import EwsnCrypto.SwCompare.Independence
import EwsnCrypto.Atecc.Refinement
import EwsnCrypto.Base.Confluence
import EwsnCrypto.Aes.ParallelRuns
import EwsnCrypto.Base.SealedMemory
import EwsnCrypto.ConfigLock.Lifecycle
import EwsnCrypto.Base.Dialogue
import EwsnCrypto.Hashes.Model
import EwsnCrypto.Energy.Pulses
import EwsnCrypto.Energy.Frames
import EwsnCrypto.Base.Probe
import EwsnCrypto.Hashes.Runtime
import EwsnCrypto.SwCompare.Figures
import EwsnCrypto.SwCompare.Modes
import EwsnCrypto.Atecc.Session
import EwsnCrypto.Base.Descent
import EwsnCrypto.Atecc.Buffer
import EwsnCrypto.Base.Pairing
import EwsnCrypto.Failures
import EwsnCrypto.Base.Sections
import EwsnCrypto.Ecdh.Footprint
