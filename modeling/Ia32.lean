import Ia32.Main
import Ia32.Memory.Lemmas
import Ia32.Proofs.Atomicity
import Ia32.Proofs.Run
import Ia32.Proofs.CheckedStores
import Ia32.Proofs.Integrity
import Ia32.Proofs.FaultPolicy
import Ia32.Proofs.FlatMemory
import Ia32.Proofs.HostCall
import Ia32.Proofs.UnservedCall
import Ia32.Proofs.FaultConditions
import Ia32.Proofs.Repetition
import Ia32.Proofs.BlockScan
import Ia32.Proofs.BlockTransfer
import Ia32.Proofs.BlockRestart
import Ia32.Proofs.Course
import Ia32.Proofs.Resumption
import Ia32.Proofs.Accounting
import Ia32.Proofs.FaultRouting
import Ia32.Proofs.Mapping
import Ia32.Proofs.LoadedProtections
import Ia32.Proofs.ImportBinding
import Ia32.Proofs.LoadedBytes
import Ia32.Proofs.Thunks
import Ia32.Proofs.AddressSpace
import Ia32.Proofs.Requests
import Ia32.Proofs.SymbolTable
import Ia32.Proofs.Objections
import Ia32.Proofs.HostReturn
import Ia32.Proofs.Activation
import Ia32.Proofs.AddressTables
import Ia32.Proofs.SharedAddresses
import Ia32.Proofs.GuestStrings
import Ia32.Proofs.PendingPrefix
import Ia32.Proofs.Footprint
import Ia32.Proofs.OpcodeTable
import Ia32.Proofs.GuestStack
import Ia32.Proofs.RefusedRuns
import Ia32.Proofs.StoreLoad
import Ia32.Proofs.LoadedSandbox
import Ia32.Proofs.CallFrames
import Ia32.Proofs.ExitCode
import Ia32.Proofs.PageWalk
