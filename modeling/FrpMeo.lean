import FrpMeo.Client.Backoff
import FrpMeo.Client.Health
import FrpMeo.Client.P2PMetrics
import FrpMeo.Client.Phases
import FrpMeo.Client.Reload
import FrpMeo.Client.ServerRouter
import FrpMeo.Client.Shutdown
import FrpMeo.Client.Tunnel
import FrpMeo.Client.VirtualNet
import FrpMeo.Client.VisitorPorts
import FrpMeo.Client.WorkConns
import FrpMeo.Config.Aggregator
import FrpMeo.Config.Announce
import FrpMeo.Config.Ranges
import FrpMeo.Metrics.Connections
import FrpMeo.Metrics.DateCounter
import FrpMeo.Nathole.Analysis
import FrpMeo.Nathole.Controller
import FrpMeo.Nathole.Hole
import FrpMeo.Nathole.Response
import FrpMeo.Proto.SharedConn
import FrpMeo.Proto.Transporter
import FrpMeo.Proto.Udp
import FrpMeo.Server.AcceptLoop
import FrpMeo.Server.AdmitFilter
import FrpMeo.Server.Bridge
import FrpMeo.Server.ClientCount
import FrpMeo.Server.ControlDone
import FrpMeo.Server.Dashboard
import FrpMeo.Server.FirewallState
import FrpMeo.Server.HttpGroup
import FrpMeo.Server.MinecraftGroup
import FrpMeo.Server.Oidc
import FrpMeo.Server.Ownership
import FrpMeo.Server.Pages
import FrpMeo.Server.Peers
import FrpMeo.Server.PortHistory
import FrpMeo.Server.PortUse
import FrpMeo.Server.Presence
import FrpMeo.Server.Quota
import FrpMeo.Server.Reason
import FrpMeo.Server.Reputation
import FrpMeo.Server.RunIndex
import FrpMeo.Server.Stream
import FrpMeo.Server.TcpGroup
import FrpMeo.Server.TypeCounts
import FrpMeo.Server.UdpRelay
import FrpMeo.Server.Visitor
import FrpMeo.Server.WorkConn
import FrpMeo.Server.WorkPool
import FrpMeo.Vhost.Credentials
import FrpMeo.Vhost.Handlers
import FrpMeo.Vhost.Handshake
import FrpMeo.Vhost.RoundRobin
import FrpMeo.Vhost.RouteTable
import FrpMeo.Wire.Crypto
