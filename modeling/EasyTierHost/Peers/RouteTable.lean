import EasyTierHost.Effects.Upsert
import EasyTierHost.Graphs.Lexicographic
import EasyTierHost.Peers.GraphAlgo
import EasyTierHost.Peers.SyncedRouteInfo

/- The route table (peers/peer_ospf_route.rs): a graph from the synced link state, the
   next hops by least cost or by fewest hops, and who answers for an address. Costs are
   not negative and do not overflow a `usize`. The crates whose code is not here come in
   with what they promise: the graphs (`GraphLib`) and their search (`Dijkstra`), the ends
   of an address range (`CidrLib`) and the map that finds the longest one (`PrefixMap`).
   Concurrent maps are visited in any order. `none` is a panic or a search that does not
   end. -/
namespace EasyTierHost.Peers
open Graphs Effects

/-- The library's search: the distances. -/
structure Dijkstra (V E : Type) where
  dijkstra : IntoEdges V E → V → (EdgeRef V E → Nat) → V → Option Nat
  spec : ∀ g start edge_cost, start ∈ g.nodes → ∀ v d,
    dijkstra g start edge_cost v = some d ↔ IsDist (g.edge edge_cost) start v d

/-- The order a concurrent map is visited in. -/
structure MapOrder where
  order : {α : Type} → List α → List α
  perm : ∀ {α : Type} (l : List α), (order l).Perm l

/-! ## Address ranges -/

/-- A network: its address and the length of its prefix. -/
structure Cidr (w : Nat) where
  address : BitVec w
  network_length : Nat
deriving DecidableEq

/-- The ends of a network, as the address library has them. -/
structure CidrLib (w : Nat) where
  first_address : Cidr w → BitVec w
  last_address : Cidr w → BitVec w

namespace CidrLib
variable {w : Nat} (L : CidrLib w)

/-- The addresses of a network are those between its ends. -/
def Holds (c : Cidr w) (ip : BitVec w) : Prop := L.first_address c ≤ ip ∧ ip ≤ L.last_address c

def is_subset (c p : Cidr w) : Bool :=
  L.first_address p ≤ L.first_address c && L.last_address c ≤ L.last_address p

end CidrLib

/-- A map by networks: of those that hold an address it finds the one with the longest prefix. -/
structure PrefixMap {w : Nat} (L : CidrLib w) where
  get_lpm : {α : Type} → AList (fun _ : Cidr w => α) → BitVec w → Option (Sigma fun _ : Cidr w => α)
  absent : ∀ {α : Type} (m : AList (fun _ : Cidr w => α)) ip, get_lpm m ip = none →
    ∀ c v, m.lookup c = some v → ¬L.Holds c ip
  longest : ∀ {α : Type} (m : AList (fun _ : Cidr w => α)) ip e, get_lpm m ip = some e →
    m.lookup e.1 = some e.2 ∧ L.Holds e.1 ip ∧
      ∀ c v, m.lookup c = some v → L.Holds c ip → c.network_length ≤ e.1.network_length

inductive IpCidr where
  | V4 (cidr : Cidr 32)
  | V6 (cidr : Cidr 128)
deriving DecidableEq

/-! ## The table -/

structure NextHopInfo where
  next_hop_peer_id : PeerId
  path_latency : Nat
  path_len : Nat
  version : Nat
deriving DecidableEq

inductive NextHopPolicy where
  | LeastHop
  | LeastCost
deriving DecidableEq

structure RouteTable (D : Type) where
  peer_infos : AList (fun _ : PeerId => RoutePeerInfo D)
  next_hop_map : AList (fun _ : PeerId => NextHopInfo)
  ipv4_peer_id_map : AList (fun _ : BitVec 32 => PeerIdVersion)
  ipv6_peer_id_map : AList (fun _ : BitVec 128 => PeerIdVersion)
  cidr_peer_id_map : AList (fun _ : Cidr 32 => PeerIdVersion)
  cidr_v6_peer_id_map : AList (fun _ : Cidr 128 => PeerIdVersion)
  next_hop_map_version : Nat

def AVOID_RELAY_COST : Nat := 2147483647

/-- What the libraries and the map orders leave open. The graphs bear the peers on their
nodes and the costs on their edges. -/
structure RouteEnv where
  graphs : GraphLib PeerId Nat
  heap : BinaryHeap Nat Nat
  search : Dijkstra Nat Nat
  cidrs4 : CidrLib 32
  cidrs6 : CidrLib 128
  tries4 : PrefixMap cidrs4
  tries6 : PrefixMap cidrs6
  node_order : MapOrder
  hop_order : MapOrder
  table_order : MapOrder
  parse : String → Option IpCidr

def cidr_is_subset (env : RouteEnv) : IpCidr → IpCidr → Bool
  | .V4 c, .V4 p => env.cidrs4.is_subset c p
  | .V6 c, .V6 p => env.cidrs6.is_subset c p
  | _, _ => false

namespace RouteTable
variable {D : Type}

def new : RouteTable D := ⟨∅, ∅, ∅, ∅, ∅, ∅, 0⟩

def get_next_hop (t : RouteTable D) (dst : PeerId) : Option NextHopInfo :=
  (t.next_hop_map.lookup dst).filter (fun x => t.next_hop_map_version ≤ x.version)

/-! ## The graph -/

/-- The peers that have said something, in the order of their indices. -/
def graphPeers (s : SyncedRouteInfo D) : List PeerId :=
  (s.peer_infos.entries.filter fun e => e.2.version ≠ 0).map (·.1)

/-- The cost of a link, raised if its source would rather not relay. -/
def linkCost (s : SyncedRouteInfo D) (calculate_cost : PeerId → PeerId → Nat) (src dst : PeerId) : Nat :=
  if s.get_avoid_relay_data src then calculate_cost src dst + AVOID_RELAY_COST else calculate_cost src dst

/-- The nodes, one for each peer, and their indices. -/
def addPeers (L : GraphLib PeerId Nat) (peers : List PeerId) : L.Graph × AList (fun _ : PeerId => Nat) :=
  peers.foldl (fun b p => ((L.add_node b.1 p).1, b.2.insert p (L.add_node b.1 p).2)) (L.new, ∅)

/-- The edges out of one peer. -/
def peerEdges (s : SyncedRouteInfo D) (calculate_cost : PeerId → PeerId → Nat)
    (peer_id_to_node_index : AList (fun _ : PeerId => Nat)) (src : PeerId) (src_node_idx : Nat) :
    List (EdgeRef Nat Nat) :=
  let connected_peers := (s.get_connected_peers src).getD ∅
  (connected_peers.sort (· ≤ ·)).filterMap fun dst =>
    (peer_id_to_node_index.lookup dst).map fun dst_node_idx =>
      ⟨src_node_idx, dst_node_idx, linkCost s calculate_cost src dst⟩

/-- The edges of the graph. -/
def graphEdges (env : RouteEnv) (s : SyncedRouteInfo D) (calculate_cost : PeerId → PeerId → Nat)
    (peer_id_to_node_index : AList (fun _ : PeerId => Nat)) : List (EdgeRef Nat Nat) :=
  (env.node_order.order peer_id_to_node_index.entries).flatMap fun e =>
    peerEdges s calculate_cost peer_id_to_node_index e.1 e.2

/-- The graph, and my own index in it; without me it has no edges. -/
def build_peer_graph_from_synced_info (env : RouteEnv) (my_peer_id : PeerId) (s : SyncedRouteInfo D)
    (calculate_cost : PeerId → PeerId → Nat) : env.graphs.Graph × Option Nat :=
  let b := addPeers env.graphs (graphPeers s)
  match b.2.lookup my_peer_id with
  | none => (b.1, none)
  | some start => (env.graphs.add_edges b.1 (graphEdges env s calculate_cost b.2), some start)

/-! ## Next hops -/

/-- An entry is replaced by a newer one only. -/
def newer (info old : NextHopInfo) : Bool := old.version < info.version

/-- One destination of the search. -/
def enterNextHop (L : GraphLib PeerId Nat) (graph : L.Graph) (version : Nat) (costs : AList (fun _ : Nat => Nat))
    (m : AList (fun _ : PeerId => NextHopInfo)) (dst : Nat) (hop : Nat × Nat) :
    Option (AList (fun _ : PeerId => NextHopInfo)) := do
  let next_hop_peer_id ← L.node_weight graph hop.1
  let cost ← costs.lookup dst
  let dst_peer_id ← L.node_weight graph dst
  return upsert newer id m dst_peer_id ⟨next_hop_peer_id, cost % AVOID_RELAY_COST, hop.2, version⟩

def gen_next_hop_map_with_least_cost (env : RouteEnv) (graph : env.graphs.Graph) (start : Nat) (version : Nat)
    (t : RouteTable D) : Option (RouteTable D) :=
  if env.graphs.node_weight graph start = none then some t
  else do
    let r ← dijkstra_with_first_hop env.heap (env.graphs.view graph) start (·.weight)
    let next_hop_map ← (env.hop_order.order r.first_hop.entries).foldlM
      (fun m e => enterNextHop env.graphs graph version r.scores m e.1 e.2) t.next_hop_map
    return { t with next_hop_map := next_hop_map, next_hop_map_version := max t.next_hop_map_version version }

def normalize_edge_cost (w : Nat) : Nat := if AVOID_RELAY_COST ≤ w then AVOID_RELAY_COST + 1 else 1

/-- The nodes of a graph once more, and the new index of the start. -/
def copyNodes (L : GraphLib PeerId Nat) (start : Nat) (nodes : List PeerId) : L.Graph × Option Nat :=
  nodes.zipIdx.foldl (fun b n =>
    ((L.add_node b.1 n.1).1, if n.2 = start then some (L.add_node b.1 n.1).2 else b.2)) (L.new, none)

/-- The edges on walks of fewest hops. -/
def leastHopEdges (edge_references : List (EdgeRef Nat Nat)) (path_len : Nat → Option Nat) : List (EdgeRef Nat Nat) :=
  edge_references.filter fun e =>
    match path_len e.source, path_len e.target with
    | some a, some b => a + normalize_edge_cost e.weight = b
    | _, _ => false

/-- The graph of these edges. -/
def leastHopSubgraph (L : GraphLib PeerId Nat) (graph : L.Graph) (start : Nat) (path_len : Nat → Option Nat) :
    L.Graph × Option Nat :=
  let b := copyNodes L start (L.node_weights graph)
  (L.add_edges b.1 (leastHopEdges (L.edge_references graph) path_len), b.2)

def gen_next_hop_map_with_least_hop (env : RouteEnv) (graph : env.graphs.Graph) (start : Nat) (version : Nat)
    (t : RouteTable D) : Option (RouteTable D) :=
  if env.graphs.node_weight graph start = none then some t
  else do
    let path_len_map := env.search.dijkstra (env.graphs.view graph) start (fun e => normalize_edge_cost e.weight)
    let subgraph := leastHopSubgraph env.graphs graph start path_len_map
    let start ← subgraph.2
    gen_next_hop_map_with_least_cost env subgraph.1 start version t

/-- Peers that cannot be reached any more are forgotten. -/
def clean_expired_route_info (t : RouteTable D) : RouteTable D :=
  let next_hop_map := retain (fun _ v => t.next_hop_map_version ≤ v.version) t.next_hop_map
  { t with
    next_hop_map := next_hop_map
    peer_infos := retain (fun k _ => k ∈ next_hop_map) t.peer_infos
    ipv4_peer_id_map := retain (fun _ v => v.peer_id ∈ next_hop_map) t.ipv4_peer_id_map
    ipv6_peer_id_map := retain (fun _ v => v.peer_id ∈ next_hop_map) t.ipv6_peer_id_map }

/-! ## Who answers for an address -/

/-- The claim of a peer with a next hop: it is newer, or of another peer that is nearer. -/
def is_new_peer_better (t : RouteTable D) (version : Nat) (item : PeerId × NextHopInfo) (old_peer : PeerIdVersion) :
    Bool :=
  if old_peer.version < version then true
  else if item.1 = old_peer.peer_id then false
  else
    match t.get_next_hop old_peer.peer_id with
    | none => true
    | some old_next_hop => item.2.path_len < old_next_hop.path_len

/-- The addresses a peer has for itself. -/
def announced4 (info : RoutePeerInfo D) : List (BitVec 32) := info.ipv4_addr.toList

def announced6 (info : RoutePeerInfo D) : List (BitVec 128) :=
  (info.ipv6_addr.bind (·.address)).toList ++ (info.ipv6_public_addr_lease.bind (·.address)).toList

/-- What the second half of a rebuild fills. -/
structure Claims (D : Type) where
  peer_infos : AList (fun _ : PeerId => RoutePeerInfo D)
  ipv4_peer_id_map : AList (fun _ : BitVec 32 => PeerIdVersion)
  ipv6_peer_id_map : AList (fun _ : BitVec 128 => PeerIdVersion)
  cidr_trie : AList (fun _ : Cidr 32 => PeerIdVersion)
  cidr_v6_trie : AList (fun _ : Cidr 128 => PeerIdVersion)

/-- The ranges a peer is believed to answer for: those it names, except that a range
within one of my own is nobody else's. -/
def announcedRanges (env : RouteEnv) (my_peer_id p : PeerId) (local_proxy_cidrs : List IpCidr)
    (info : RoutePeerInfo D) : List IpCidr :=
  (info.proxy_cidrs.filterMap env.parse).filter fun cidr =>
    !(p ≠ my_peer_id && local_proxy_cidrs.any (cidr_is_subset env cidr))

/-- The claims of one reachable peer. -/
def enterClaims (env : RouteEnv) (my_peer_id : PeerId) (s : SyncedRouteInfo D) (local_proxy_cidrs : List IpCidr)
    (version : Nat) (t : RouteTable D) (b : Claims D) (item : PeerId × NextHopInfo) : Claims D :=
  if item.2.version < version then b
  else
    match s.peer_infos.lookup item.1 with
    | none => b
    | some info =>
      let better := is_new_peer_better t version
      let mine_or_better := fun item e => item.1 = my_peer_id || better item e
      let claim : PeerId × NextHopInfo → PeerIdVersion := fun item => ⟨item.1, version⟩
      let ranges := announcedRanges env my_peer_id item.1 local_proxy_cidrs info
      { peer_infos := b.peer_infos.insert item.1 info
        ipv4_peer_id_map := (announced4 info).foldl (fun m a => upsert better claim m a item) b.ipv4_peer_id_map
        ipv6_peer_id_map := (announced6 info).foldl (fun m a => upsert better claim m a item) b.ipv6_peer_id_map
        cidr_trie := (ranges.filterMap fun | .V4 c => some c | .V6 _ => none).foldl
          (fun m c => upsert mine_or_better claim m c item) b.cidr_trie
        cidr_v6_trie := (ranges.filterMap fun | .V6 c => some c | .V4 _ => none).foldl
          (fun m c => upsert mine_or_better claim m c item) b.cidr_v6_trie }

/-- The ranges I announce myself. -/
def localRanges (env : RouteEnv) (my_peer_id : PeerId) (s : SyncedRouteInfo D) : List IpCidr :=
  ((s.peer_infos.lookup my_peer_id).toList.flatMap (·.proxy_cidrs)).filterMap env.parse

/-- The second half of a rebuild: the claims of the peers with a current next hop. -/
def enterAllClaims (env : RouteEnv) (my_peer_id : PeerId) (s : SyncedRouteInfo D) (t : RouteTable D) : RouteTable D :=
  let items := (env.table_order.order t.next_hop_map.entries).map fun e => (e.1, e.2)
  let b := items.foldl (enterClaims env my_peer_id s (localRanges env my_peer_id s) s.version t)
    ⟨t.peer_infos, t.ipv4_peer_id_map, t.ipv6_peer_id_map, ∅, ∅⟩
  { t with
    peer_infos := b.peer_infos
    ipv4_peer_id_map := b.ipv4_peer_id_map
    ipv6_peer_id_map := b.ipv6_peer_id_map
    cidr_peer_id_map := b.cidr_trie
    cidr_v6_peer_id_map := b.cidr_v6_trie }

/-- The next hops by either policy. -/
def gen_next_hop_map (env : RouteEnv) (policy : NextHopPolicy) (graph : env.graphs.Graph) (start : Nat) (version : Nat)
    (t : RouteTable D) : Option (RouteTable D) :=
  match policy with
  | .LeastHop => gen_next_hop_map_with_least_hop env graph start version t
  | .LeastCost => gen_next_hop_map_with_least_cost env graph start version t

def build_from_synced_info (env : RouteEnv) (my_peer_id : PeerId) (s : SyncedRouteInfo D) (policy : NextHopPolicy)
    (calculate_cost : PeerId → PeerId → Nat) (t : RouteTable D) : Option (RouteTable D) :=
  let built := build_peer_graph_from_synced_info env my_peer_id s calculate_cost
  if env.graphs.node_count built.1 = 0 then
    some (clean_expired_route_info { t with next_hop_map_version := max t.next_hop_map_version s.version })
  else
    match built.2 with
    | none => some (clean_expired_route_info { t with next_hop_map_version := max t.next_hop_map_version s.version })
    | some start => do
      let t ← gen_next_hop_map env policy built.1 start s.version t
      return enterAllClaims env my_peer_id s t

def get_peer_id_for_proxy4 (env : RouteEnv) (t : RouteTable D) (ip : BitVec 32) : Option PeerId :=
  (env.tries4.get_lpm t.cidr_peer_id_map ip).map (·.2.peer_id)

def get_peer_id_for_proxy6 (env : RouteEnv) (t : RouteTable D) (ip : BitVec 128) : Option PeerId :=
  (env.tries6.get_lpm t.cidr_v6_peer_id_map ip).map (·.2.peer_id)

end RouteTable

end EasyTierHost.Peers
