import EasyTierHost.Abstractions.Address

/- The records of Models.cs that the network modules pass around, and the
   exceptions they throw. A `RouteEntry` is its identity: the owner tag and the
   created-by flag of the source are carried along and never read. Of a
   `RouteSnapshot` the fields kept are those some modelled function reads; the
   DNS part of it is whatever the DNS controller of the platform recorded, a
   parameter `D` here. A `NetworkProfile` is one the deserialiser has returned:
   its role is one of the four. -/
namespace EasyTierHost

/-- Exceptions, as far as a `catch` or a filter tells them apart. -/
inductive Err where
  | host (code message : String)
  | cancelled
  | io (message : String)
  | invalidOperation (message : String)
  | format
  | nullReference
  | aggregate (message : String) (inner : List Err)
  | other (type : String)

/-- `ex is OperationCanceledException`. -/
def Err.isCancelled : Err → Bool
  | cancelled => true
  | _ => false

/-- What a call without a cancellation token may throw. -/
def Err.uncancelled (err : Option Err) : Option Err := err.filter (fun e => !e.isCancelled)

/-- `NodeRole`. -/
inductive NodeRole where
  | seed | gateway | dedicated | client
  deriving DecidableEq, Repr

/-- `NetworkProfile`. -/
structure NetworkProfile where
  schemaVersion : Int := 1
  networkName : String
  secretFile : String
  role : NodeRole := .client
  seedPhysicalIp : Option String := none
  port : Int := 11010
  dedicatedIndex : Option Int := none
  corePath : String := "easytier-core"
  cliPath : String := "easytier-cli"
  rpcPort : Int := 15888
  deviceName : String := "easytierhost"
  enableInternetGateway : Bool := false
  dnsUpstreams : List String := []
  deriving DecidableEq, Repr

/-- `CoreLaunchOptions`. -/
structure CoreLaunchOptions where
  underlaySourceIpv4 : Option String := none
  deriving DecidableEq, Repr

/-- `ServerOsType`. -/
inductive ServerOsType where
  | windows | linux
  deriving DecidableEq, Repr

/-- `RemoteHostCredential`: the user the remote shell runs as. -/
structure RemoteHostCredential where
  username : String
  deriving DecidableEq, Repr

/-- `DeploymentRequest`. -/
structure DeploymentRequest where
  osType : ServerOsType
  role : NodeRole
  remote : RemoteHostCredential
  localPackageDirectory : String
  remoteInstallDirectory : String
  localProfilePath : String
  remoteProfilePath : String
  remoteStateDirectory : String
  serviceName : String := "EasyTierHost"
  deriving DecidableEq, Repr

/-- `RouteEntry`: two routes with the same fields have the same identity. -/
structure RouteEntry where
  destination : String
  nextHop : String
  interfaceIndex : Int
  metric : Int
  deriving DecidableEq, Repr

/-- `RouteSnapshot`. -/
structure RouteSnapshot (D : Type) where
  physicalInterfaceName : String
  physicalInterfaceIndex : Int
  physicalIpv4 : String
  physicalGateway : String
  dnsState : Option D
  deriving DecidableEq, Repr

/-- `GatewayContext`. -/
structure GatewayContext where
  overlayInterfaceIndex : Int
  overlayIp : String
  endpoints : List IPAddress
  underlayProtectionVerified : Bool
  deriving DecidableEq, Repr

/-- `GatewayState`. -/
inductive GatewayState where
  | physicalOnly | capturing | underlayProtected | probing | gatewayActive | rollingBack | faulted
  deriving DecidableEq, Repr

end EasyTierHost
