import Xdbd.Interaction
import Xdbd.Memory
import Xdbd.Header
import Xdbd.State
import Xdbd.SocketIo
import Xdbd.Operations
import Xdbd.Buffer
import Xdbd.PacketHandlers
import Xdbd.AdbHandlers
import Xdbd.Select
import Xdbd.ConnectionTable
import Xdbd.EventLoop
import Xdbd.DenseIndex
import Xdbd.Chain
import Xdbd.Link
import Xdbd.Registry
import Xdbd.Posting
import Xdbd.Table
import Xdbd.Refinement
import Xdbd.Accept
import Xdbd.Batch
import Xdbd.Turns
import Xdbd.Startup
import Xdbd.Runs
import Xdbd.FreeList
import Xdbd.Acceptance
import Xdbd.SelectRuns
import Xdbd.ActiveFlag
import Xdbd.HandlerRules
import Xdbd.BufferSpecs
import Xdbd.Appending
import Xdbd.PacketSpecs
import Xdbd.Replies
import Xdbd.Receiving
import Xdbd.Progress
import Xdbd.Closing
import Xdbd.Collecting
import Xdbd.Phases
import Xdbd.Reassembly
import Xdbd.ReadEvents
import Xdbd.OnePacket
import Xdbd.Coalescing
import Xdbd.Cursors
import Xdbd.Descriptors
import Xdbd.Dispatch
import Xdbd.ReplyRuns
import Xdbd.Encoding
import Xdbd.Heap
import Xdbd.Independence
import Xdbd.Paused
import Xdbd.Interrupts
import Xdbd.WouldBlock
import Xdbd.Insertions
import Xdbd.OutOfMemory
import Xdbd.Outbound
import Xdbd.Pool
import Xdbd.PoolRuns
import Xdbd.Windows
import Xdbd.Growth
import Xdbd.Timers
import Xdbd.FirstHeader
import Xdbd.Calls
import Xdbd.Components
import Xdbd.Sessions
import Xdbd.Dialogue
import Xdbd.Conversation
import Xdbd.Ownership
import Xdbd.Resources
import Xdbd.Framing
import Xdbd.Streams
import Xdbd.Faults
import Xdbd.Exchanges
import Xdbd.Daemon
import Xdbd.Departures
import Xdbd.Exhaustion
