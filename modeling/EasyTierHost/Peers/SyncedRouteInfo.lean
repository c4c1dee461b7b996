import Mathlib.Data.Finset.Sort
import Mathlib.Data.List.AList
import Mathlib.Order.Lattice.Nat

/- The link state a peer has been told (peers/peer_ospf_route.rs): what every peer says
   of itself and which peers it is connected to, each under a version its owner counts
   up. The fields of a peer's own announcement that no function here looks at are one
   component `rest`, which is compared and copied with the others. -/
namespace EasyTierHost.Peers

abbrev PeerId := Nat

structure Ipv6Inet where
  address : Option (BitVec 128)
  network_length : Nat
deriving DecidableEq

structure PeerFeatureFlag where
  avoid_relay_data : Bool
  support_conn_list_sync : Bool
  is_credential_peer : Bool
deriving DecidableEq, Inhabited

structure RoutePeerInfo (D : Type) where
  peer_id : PeerId
  peer_route_id : Nat
  version : Nat
  last_update : Option Nat
  ipv4_addr : Option (BitVec 32)
  ipv6_addr : Option Ipv6Inet
  ipv6_public_addr_lease : Option Ipv6Inet
  proxy_cidrs : List String
  feature_flag : Option PeerFeatureFlag
  rest : D
deriving DecidableEq

structure RouteConnInfo where
  connected_peers : Finset PeerId
  version : Nat
  last_update : Nat
deriving DecidableEq

structure PeerIdVersion where
  peer_id : PeerId
  version : Nat
deriving DecidableEq

structure SyncedRouteInfo (D : Type) where
  peer_infos : AList (fun _ : PeerId => RoutePeerInfo D)
  conn_map : AList (fun _ : PeerId => RouteConnInfo)
  version : Nat

/-- `+ 1` on a `u32`, which wraps around. -/
def Version.inc (version : Nat) : Nat := (version + 1) % 2 ^ 32

theorem Version.inc_eq {version : Nat} (h : version + 1 < 2 ^ 32) : inc version = version + 1 := Nat.mod_eq_of_lt h

/-- What ends an update early. -/
inductive SyncFault where
  | DuplicatePeerId
  | Stopped
  | panic (message : String)
deriving DecidableEq

namespace RoutePeerInfo
variable {D : Type} [Inhabited D]

/-- What stands for a peer that has only been mentioned. -/
def new : RoutePeerInfo D where
  peer_id := 0
  peer_route_id := 0
  version := 0
  last_update := none
  ipv4_addr := none
  ipv6_addr := none
  ipv6_public_addr_lease := none
  proxy_cidrs := []
  feature_flag := none
  rest := default

end RoutePeerInfo

namespace SyncedRouteInfo
variable {D : Type}

def get_connected_peers (s : SyncedRouteInfo D) (p : PeerId) : Option (Finset PeerId) :=
  (s.conn_map.lookup p).map (·.connected_peers)

def get_avoid_relay_data (s : SyncedRouteInfo D) (p : PeerId) : Bool :=
  (((s.peer_infos.lookup p).bind (·.feature_flag)).map (·.avoid_relay_data)).getD false

def get_peer_info_version_with_default (s : SyncedRouteInfo D) (p : PeerId) : Nat :=
  ((s.peer_infos.lookup p).map (·.version)).getD 0

end SyncedRouteInfo

end EasyTierHost.Peers
