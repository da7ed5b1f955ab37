import Urvirt.Bitfield
import Urvirt.Transition
import Urvirt.AddressSpace
import Urvirt.PageTable
import Urvirt.Rv64gc
import Urvirt.Zicsr
import Urvirt.Scatter
import Urvirt.ClassicBpf
import Urvirt.RiscvBits
import Urvirt.SeccompBpf
import Urvirt.Machine
import Urvirt.RiscvPriv
import Urvirt.PageWalker
import Urvirt.PageFault
import Urvirt.Handler
import Urvirt.Entrypoint
import Urvirt.HostMap
import Urvirt.Replay
import Urvirt.Translation
import Urvirt.LegalState
import Urvirt.ShadowTlb
import Urvirt.TrapDelivery
import Urvirt.TrapReturn
import Urvirt.Isolation
import Urvirt.FaultResolution
import Urvirt.InstructionDecoding
import Urvirt.CsrAccess
import Urvirt.TrapEntry
import Urvirt.GuestCode
import Urvirt.BlockDevice
import Urvirt.DeviceStore
import Urvirt.BlockTransfer
import Urvirt.CodeVisibility
import Urvirt.BareMode
import Urvirt.Timer
import Urvirt.Virtualization
import Urvirt.BlockHistory
import Urvirt.EventLog
import Urvirt.CounterReport
import Urvirt.Progress
