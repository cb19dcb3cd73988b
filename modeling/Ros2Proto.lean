import Ros2Proto.Base.Runs
import Ros2Proto.Base.PrefixCode
import Ros2Proto.Base.LittleEndian
import Ros2Proto.Base.Locks
import Ros2Proto.Base.Assignment
import Ros2Proto.Base.History
import Ros2Proto.Base.Strings
import Ros2Proto.Base.Prefixes
import Ros2Proto.Base.Iteration
import Ros2Proto.Transport.Tcp
import Ros2Proto.Transport.Messages
import Ros2Proto.Transport.Wire
import Ros2Proto.Transport.Progress
import Ros2Proto.Transport.ReaderStep
import Ros2Proto.Transport.Reader
import Ros2Proto.Transport.ReaderSafety
import Ros2Proto.Transport.Sender
import Ros2Proto.Transport.Channel
import Ros2Proto.Transport.Locking
import Ros2Proto.Transport.PollSet
import Ros2Proto.Transport.Header
import Ros2Proto.Transport.Readiness
import Ros2Proto.Transport.Signalling
import Ros2Proto.Topics.Manager
import Ros2Proto.Topics.Booking
import Ros2Proto.Topics.Refresh
import Ros2Proto.Topics.Invariant
import Ros2Proto.Topics.Remapping
import Ros2Proto.Topics.Stable
import Ros2Proto.Topics.Lifetime
import Ros2Proto.Registration.Master
import Ros2Proto.Registration.Replies
import Ros2Proto.Registration.Network
import Ros2Proto.Registration.Agreement
import Ros2Proto.PubSub.Tcp
import Ros2Proto.PubSub.Counting
import Ros2Proto.PubSub.Link
import Ros2Proto.PubSub.Delivery
import Ros2Proto.PubSub.Options
import Ros2Proto.PubSub.Restarting
import Ros2Proto.PubSub.Shutdown
import Ros2Proto.PubSub.Callbacks
import Ros2Proto.Topics.Negotiation
import Ros2Proto.Services.Manager
import Ros2Proto.Services.StartUp
import Ros2Proto.Services.Client
import Ros2Proto.Services.CallLocking
import Ros2Proto.Services.CallDeadlock
import Ros2Proto.Registration.Discovery
import Ros2Proto.Transport.Connecting
import Ros2Proto.Transport.Closing
import Ros2Proto.Transport.Cursors
import Ros2Proto.Transport.Dispatch
import Ros2Proto.Registration.Outstanding
import Ros2Proto.PubSub.Handshake
import Ros2Proto.Services.Blocking
import Ros2Proto.Services.Ownership
import Ros2Proto.Services.Atomicity
import Ros2Proto.Topics.Malformed
import Ros2Proto.Topics.Reordering
import Ros2Proto.Topics.Matching
import Ros2Proto.Registration.Mirror
import Ros2Proto.Registration.Destroying
import Ros2Proto.Registration.Graph
import Ros2Proto.Registration.Projections
import Ros2Proto.Registration.Finding
import Ros2Proto.PubSub.MessageQueue
import Ros2Proto.PubSub.Zmq
import Ros2Proto.Transport.Duplex
import Ros2Proto.PubSub.Wired
import Ros2Proto.PubSub.Arrival
