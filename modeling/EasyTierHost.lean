import EasyTierHost.Effects.Prog
import EasyTierHost.Effects.Runs
import EasyTierHost.Effects.System
import EasyTierHost.Abstractions.Address
import EasyTierHost.Abstractions.Models
import EasyTierHost.Network.RouteController
import EasyTierHost.Effects.WriteAhead
import EasyTierHost.Network.RouteCalls
import EasyTierHost.Network.RouteJournal
import EasyTierHost.Network.RouteSafety
import EasyTierHost.Network.RouteRecovery
import EasyTierHost.Network.RouteForeign
import EasyTierHost.Network.RouteShield
import EasyTierHost.Network.RouteRecursion
import EasyTierHost.Network.RouteRollbackOrder
import EasyTierHost.Network.RouteReconcile
import EasyTierHost.Effects.Recency
import EasyTierHost.Network.UnderlayRouteProtector
import EasyTierHost.Gateway.GatewayBootstrapper
import EasyTierHost.Gateway.GatewayJournal
import EasyTierHost.Gateway.GatewaySafety
import EasyTierHost.Gateway.GatewayTransaction
import EasyTierHost.Gateway.ForeignJournal
import EasyTierHost.Service.GatewayCoordinator
import EasyTierHost.Service.ClientInternetCoordinator
import EasyTierHost.Service.Program
import EasyTierHost.Service.CoreLifetime
import EasyTierHost.Service.RestartPolicy
import EasyTierHost.Core.Configuration
import EasyTierHost.Text.Expansion
import EasyTierHost.Core.EnvParser
import EasyTierHost.Core.ConfigText
import EasyTierHost.Core.IdentityAgreement
import EasyTierHost.Core.DnsMessage
import EasyTierHost.Core.DnsQuestion
import EasyTierHost.Gateway.DnsForwarderService
import EasyTierHost.Instance.Dhcp
import EasyTierHost.Core.ConfigDocument
import EasyTierHost.Service.ClientStatus
import EasyTierHost.Service.EndpointGrace
import EasyTierHost.Service.GatewayStatus
import EasyTierHost.Deployment.SecretProvisioning
import EasyTierHost.Text.Shell
import EasyTierHost.Deployment.DeploymentValidation
import EasyTierHost.Deployment.LinuxRemoteInstaller
import EasyTierHost.Effects.FileTree
import EasyTierHost.Deployment.RemoteBackup
import EasyTierHost.Deployment.RemoteInstallation
import EasyTierHost.Text.Paths
import EasyTierHost.Deployment.ArtifactManifest
import EasyTierHost.Core.DnsCanonical
import EasyTierHost.Core.DnsAnswers
import EasyTierHost.Core.DnsQuery
import EasyTierHost.Gateway.DnsMatching
import EasyTierHost.Deployment.RemoteSecretPath
import EasyTierHost.Abstractions.AddressText
import EasyTierHost.Core.JsonElement
import EasyTierHost.Network.ResolvedLink
import EasyTierHost.Network.LinuxDnsController
import EasyTierHost.Gateway.LinuxNatManager
import EasyTierHost.Gateway.LinuxRollback
import EasyTierHost.Effects.Mimics
import EasyTierHost.Gateway.LinuxMimics
import EasyTierHost.Deployment.SecretPathSafety
import EasyTierHost.Service.RestartWindow
import EasyTierHost.Instance.DhcpPool
import EasyTierHost.Instance.DhcpDevice
import EasyTierHost.Deployment.NestedQuoting
import EasyTierHost.Text.ShellWords
import EasyTierHost.Deployment.WindowsRemoteInstaller
import EasyTierHost.Text.PowerShell
import EasyTierHost.Core.NodeReadiness
import EasyTierHost.Instance.AddressAgreement
import EasyTierHost.Tunnel.UnderlayPolicy
import EasyTierHost.Text.JsonText
import EasyTierHost.Core.CoreStatusReader
import EasyTierHost.Core.StatusReplies
import EasyTierHost.Graphs.Walks
import EasyTierHost.Graphs.Lexicographic
import EasyTierHost.Graphs.Digraph
import EasyTierHost.Graphs.BinaryHeap
import EasyTierHost.Effects.Upsert
import EasyTierHost.Peers.GraphAlgo
import EasyTierHost.Peers.SyncedRouteInfo
import EasyTierHost.Peers.RouteTable
import EasyTierHost.Peers.NextHops
import EasyTierHost.Peers.AddressClaims
import EasyTierHost.Bits.Bitmap
import EasyTierHost.Bits.BigEndian
import EasyTierHost.Effects.Gate
import EasyTierHost.Peers.ReplayWindow
import EasyTierHost.Peers.SecureDatagram
import EasyTierHost.Peers.Replay
import EasyTierHost.Peers.Nonces
import EasyTierHost.Peers.SessionKeys
import EasyTierHost.Peers.Encrypt
import EasyTierHost.WebClient.Security
import EasyTierHost.Effects.DeltaSync
import EasyTierHost.Effects.Hearsay
import EasyTierHost.Peers.RouteConnBitmap
import EasyTierHost.Peers.LinkStateUpdates
import EasyTierHost.Peers.SyncRouteSession
import EasyTierHost.Peers.LinkState
import EasyTierHost.Peers.LinkStateSync
