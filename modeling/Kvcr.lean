import Kvcr.Lib.Prog
import Kvcr.Lib.Ordered
import Kvcr.Lib.Circular
import Kvcr.Lib.Bytes
import Kvcr.Lib.Ranges
import Kvcr.Lib.Codes
import Kvcr.Lib.Ledger
import Kvcr.Types
import Kvcr.Regions
import Kvcr.LayoutMatching
import Kvcr.Policy
import Kvcr.EvictionOrder
import Kvcr.Progress
import Kvcr.NativeHandles
import Kvcr.PreparedMemory
import Kvcr.State
import Kvcr.RemoteOps
import Kvcr.Base
import Kvcr.LocalDramPools
import Kvcr.LocalDisk
import Kvcr.DiskContents
import Kvcr.RemoteFWDram
import Kvcr.Allocation
import Kvcr.Primitives
import Kvcr.LocalDram
import Kvcr.RemoteSources
import Kvcr.Core
import Kvcr.Run
import Kvcr.Frame.Relation
import Kvcr.Frame.Tiers
import Kvcr.Frame.Core
import Kvcr.Frame.Hints
import Kvcr.QueryRouting
import Kvcr.RequestHints
import Kvcr.Hints
import Kvcr.HintDispatch
import Kvcr.Adoption
import Kvcr.MemorySafety
import Kvcr.DiskBooks
import Kvcr.DiskFrame
import Kvcr.DiskRoundTrip
import Kvcr.GroupAllocation
import Kvcr.RecoveryJournal
import Kvcr.Handback
import Kvcr.RecoveryMirror
import Kvcr.GuardRecovery
import Kvcr.PoolTerms
import Kvcr.PoolGrants
import Kvcr.GuardService
import Kvcr.GuardSeed
import Kvcr.Guard
import Kvcr.GuardSafety
import Kvcr.GuardSlot
import Kvcr.GuardRefusal
import Kvcr.ControlChannels
import Kvcr.FramedMessages
import Kvcr.WriteProtocol
import Kvcr.WriteInvariant
import Kvcr.WriteSafety
