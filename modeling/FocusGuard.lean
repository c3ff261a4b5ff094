import FocusGuard.Lib.Bytes
import FocusGuard.Lib.Calendar
import FocusGuard.Lib.Exec
import FocusGuard.Lib.Json
import FocusGuard.Lib.Reader
import FocusGuard.Lib.Runs
import FocusGuard.Lib.Text
import FocusGuard.Runtime
import FocusGuard.Core.TimeGuard
import FocusGuard.Core.Normalizer
import FocusGuard.Core.Services
import FocusGuard.Network.Bypass
import FocusGuard.Dns.Sinkhole
import FocusGuard.Dns.Rules
import FocusGuard.Dns.Matching
import FocusGuard.Storage.State
import FocusGuard.Storage.RoundTrip
import FocusGuard.Core.Session
import FocusGuard.Core.Lock
import FocusGuard.Core.Policy
import FocusGuard.Core.PolicyInvariant
import FocusGuard.Core.Evaluate
import FocusGuard.Service.IpcServer
import FocusGuard.Service.Daemon
import FocusGuard.Service.Startup
import FocusGuard.Service.DaemonInvariant
import FocusGuard.Service.LockSafety
import FocusGuard.Service.ExpiryRestore
import FocusGuard.Service.RestartTick
import FocusGuard.Storage.SignedState
import FocusGuard.Storage.CrashAtomic
import FocusGuard.Storage.EventLog
import FocusGuard.Service.TamperedState
import FocusGuard.Cli.Gateway
import FocusGuard.Dns.Protocol
import FocusGuard.Dns.WireName
import FocusGuard.Dns.RoundTrip
import FocusGuard.Dns.Resolver
import FocusGuard.Dns.Server
import FocusGuard.Dns.SinkholeReply
import FocusGuard.Dns.Termination
import FocusGuard.Dns.Enforcement
import FocusGuard.Dns.Replies
import FocusGuard.Dns.Relocation
import FocusGuard.Dns.CacheFidelity
import FocusGuard.Dns.CodecLaw
import FocusGuard.Dns.CacheOwnership
import FocusGuard.Dns.ConcurrentLookups
import FocusGuard.Dns.Exchange
import FocusGuard.Dns.NameLimits
import FocusGuard.Dns.Normalized
import FocusGuard.Dns.Verdict
import FocusGuard.Service.WellFormedLock
import FocusGuard.Service.FailedOperations
import FocusGuard.Core.SessionScope
import FocusGuard.Service.SessionEnforced
import FocusGuard.Core.RawEngine
import FocusGuard.Service.TypedState
import FocusGuard.Core.RawInvariant
import FocusGuard.Core.Durations
import FocusGuard.Core.EndTimes
import FocusGuard.Core.InputForms
import FocusGuard.Service.AnyStateFile
import FocusGuard.Core.CatalogueMatches
import FocusGuard.Service.RemoveAfterAdd
import FocusGuard.Cli.MonitorStream
import FocusGuard.Lib.Broadcast
import FocusGuard.Lib.Chains
import FocusGuard.Lib.Tickets
import FocusGuard.Network.GatewayRace
import FocusGuard.Network.FlowDirections
import FocusGuard.Network.FrameRoundTrip
import FocusGuard.Network.IpFrames
import FocusGuard.Network.Listings
import FocusGuard.Network.Monitor
import FocusGuard.Network.PacketAccounting
import FocusGuard.Service.ClientConnection
import FocusGuard.Service.EventBus
import FocusGuard.Service.PacketStream
import FocusGuard.Service.Subscriptions
import FocusGuard.Dns.TcpConnection
import FocusGuard.Network.GatewayStatus
import FocusGuard.Service.Appliance
import FocusGuard.Service.TrailReplay
import FocusGuard.Service.ServerStats
import FocusGuard.Service.RemoteLock
