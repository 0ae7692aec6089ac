import ZitiChannel.Lib.Transition
import ZitiChannel.Lib.LittleEndian
import ZitiChannel.Lib.Reader
import ZitiChannel.Lib.Queue
import ZitiChannel.Message
import ZitiChannel.Trace
import ZitiChannel.Wire
import ZitiChannel.WireRoundTrip
import ZitiChannel.Fragmentation
import ZitiChannel.ChannelImpl
import ZitiChannel.Senders
import ZitiChannel.MultiListener
import ZitiChannel.ListenerInvariant
import ZitiChannel.ListenerSafety
import ZitiChannel.HelloContract
import ZitiChannel.Admission
import ZitiChannel.Receive
import ZitiChannel.RequestReply
import ZitiChannel.Multiplex
import ZitiChannel.Transmit
import ZitiChannel.Conservation
import ZitiChannel.QueueWait
import ZitiChannel.ReplyRouting
import ZitiChannel.Lib.Tally
import ZitiChannel.Underlays
import ZitiChannel.Handshake
import ZitiChannel.Refusal
import ZitiChannel.AcceptConnection
import ZitiChannel.Epochs
import ZitiChannel.Lib.Mutex
import ZitiChannel.ConcurrentChannel
import ZitiChannel.ChannelSteps
import ZitiChannel.Fallback
import ZitiChannel.UnderlayLife
import ZitiChannel.UnderlayEvents
import ZitiChannel.Closing
import ZitiChannel.CloseFinal
import ZitiChannel.Reentry
import ZitiChannel.ConstraintLoop
import ZitiChannel.Dialing
import ZitiChannel.Lib.Locking
import ZitiChannel.LockOrder
import ZitiChannel.LockUse
import ZitiChannel.Backoff
import ZitiChannel.CutFrames
import ZitiChannel.Lib.Checked
import ZitiChannel.Lib.Entries
import ZitiChannel.Lib.Ranging
import ZitiChannel.HeaderValues
import ZitiChannel.HeaderEncoders
import ZitiChannel.HeaderBlock
import ZitiChannel.WireWidth
import ZitiChannel.ReplyTarget
import ZitiChannel.Redial
import ZitiChannel.Throttle
import ZitiChannel.HeaderWords
import ZitiChannel.Negotiation
import ZitiChannel.ClassicDial
import ZitiChannel.DialSpacing
import ZitiChannel.TraceRobust
import ZitiChannel.Heartbeat
import ZitiChannel.HeartbeatPeers
import ZitiChannel.PendingHeartbeat
import ZitiChannel.SharedWaiters
import ZitiChannel.WaiterCount
import ZitiChannel.Lib.Refinement
import ZitiChannel.EnvelopeWait
import ZitiChannel.Lib.Keyed
import ZitiChannel.LinkSide
import ZitiChannel.LinkWire
import ZitiChannel.Link
import ZitiChannel.StreamLink
import ZitiChannel.Lib.Once
import ZitiChannel.Serving
import ZitiChannel.DialerEpochs
import ZitiChannel.Group
import ZitiChannel.Lib.Measure
import ZitiChannel.Drain
import ZitiChannel.Packets
import ZitiChannel.Peers
import ZitiChannel.ExistingConn
import ZitiChannel.Latency
