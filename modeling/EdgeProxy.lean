import EdgeProxy.Codec.Interchange
import EdgeProxy.Codec.Strict
import EdgeProxy.Codec.Stale
import EdgeProxy.Server.LifeCycle
import EdgeProxy.Server.StreamSend
import EdgeProxy.Server.Shutdown
import EdgeProxy.Server.Ownership
import EdgeProxy.Server.Runs
import EdgeProxy.Server.PollTimeout
import EdgeProxy.Server.GcTimeout
import EdgeProxy.Server.Statistics
import EdgeProxy.Server.Contacts
import EdgeProxy.Server.FlowControl
import EdgeProxy.Queue.Refinement
import EdgeProxy.Sched.Deadline
import EdgeProxy.Sched.Recycle
import EdgeProxy.Mqtt.Subscriptions
import EdgeProxy.Ws.Receive
import EdgeProxy.Ws.Closing
import EdgeProxy.Lws.Receive
import EdgeProxy.Lws.Sending
import EdgeProxy.Xio.Completion
import EdgeProxy.Xio.Lifetime
import EdgeProxy.Pal.Candidates
import EdgeProxy.Pal.Accept
import EdgeProxy.Pal.Closing
import EdgeProxy.Cs.ClientParser
import EdgeProxy.Ns.Loading
import EdgeProxy.Ns.Paging
import EdgeProxy.Ns.TypeLookup
import EdgeProxy.Ns.Composite
import EdgeProxy.Codec.Slices
import EdgeProxy.Client.Sequential
import EdgeProxy.Ws.Failure
import EdgeProxy.Util.Stream
import EdgeProxy.Pal.Prefix
import EdgeProxy.Server.Browse
import EdgeProxy.Pal.File
import EdgeProxy.Util.Log
import EdgeProxy.Util.ServiceName
import EdgeProxy.Util.Config
import EdgeProxy.Util.Crc
import EdgeProxy.Client.Compat
import EdgeProxy.Client.Ending
import EdgeProxy.Client.Headers
import EdgeProxy.Client.ResultCache
