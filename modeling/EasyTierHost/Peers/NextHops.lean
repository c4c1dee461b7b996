import EasyTierHost.Peers.RouteTable

/- What the next hops of a route table are worth. A rebuild enters, for every peer that
   can be reached, the first hop and the length of a walk that is least by cost, or by
   hops and then cost; an older entry does not count as a next hop any more. This holds
   after any run of rebuilds and cleanings whose versions do not go back. -/
namespace EasyTierHost.Peers
open Graphs Effects

namespace RouteTable
variable {D : Type}

/-! ## The graph of a link state -/

theorem graphPeers_nodup (s : SyncedRouteInfo D) : (graphPeers s).Nodup := by
  have hkeys : (s.peer_infos.entries.map Sigma.fst).Nodup := s.peer_infos.nodupKeys
  exact hkeys.sublist (List.filter_sublist.map _)

theorem getElem?_concat {α : Type} {l : List α} {a b : α} {i : Nat} :
    (l ++ [a])[i]? = some b ↔ l[i]? = some b ∨ i = l.length ∧ a = b := by
  rw [List.getElem?_append]
  split
  · next hi => exact (or_iff_left (fun h => by omega)).symm
  · next hi =>
    rw [List.getElem?_eq_none (Nat.not_lt.mp hi), or_iff_right (by simp)]
    cases hk : i - l.length with
    | zero =>
      have heq : i = l.length := by omega
      simp [heq]
    | succ k =>
      have hne : i ≠ l.length := by omega
      simp [hne]

/-- The nodes are the peers in their order, an index is the place of its peer, and there
are no edges yet. -/
theorem addPeers_spec (L : GraphLib PeerId Nat) (peers : List PeerId) (hnodup : peers.Nodup) :
    L.node_weights (addPeers L peers).1 = peers ∧ (∀ e, e ∉ L.edge_references (addPeers L peers).1) ∧
      ∀ p i, (addPeers L peers).2.lookup p = some i ↔ peers[i]? = some p := by
  induction peers using List.reverseRecOn with
  | nil =>
    refine ⟨L.nodes_new, fun e he => ?_, fun p i => ?_⟩
    · rw [show (addPeers L []).1 = L.new from rfl, L.edges_new] at he
      cases he
    · rw [show (addPeers L []).2 = ∅ from rfl, AList.lookup_empty, List.getElem?_nil]
      simp
  | append_singleton peers q ih =>
    obtain ⟨hpeers, -, hq⟩ := List.nodup_append.mp hnodup
    obtain ⟨hnodes, hedges, hindex⟩ := ih hpeers
    have hone : addPeers L (peers ++ [q]) = ((L.add_node (addPeers L peers).1 q).1,
        (addPeers L peers).2.insert q (L.add_node (addPeers L peers).1 q).2) := by
      rw [addPeers, List.foldl_append]
      rfl
    rw [hone]
    refine ⟨?_, fun e he => hedges e ((L.mem_add_node _ _ e).mp he), fun p i => ?_⟩
    · rw [L.nodes_add_node, hnodes]
    · rw [getElem?_concat, L.index_added, hnodes]
      by_cases hp : p = q
      · subst hp
        have hnone : ¬peers[i]? = some p := fun h => hq p (List.mem_of_getElem? h) p (List.mem_singleton_self p) rfl
        rw [AList.lookup_insert, or_iff_right hnone, Option.some.injEq, eq_comm]
        simp
      · rw [AList.lookup_insert_ne hp, hindex]
        exact (or_iff_left (fun h => hp h.2.symm)).symm

/-- The links between peers that have said something, with their costs. -/
def links (s : SyncedRouteInfo D) (calculate_cost : PeerId → PeerId → Nat) (p q : PeerId) (w : Nat) : Prop :=
  p ∈ graphPeers s ∧ q ∈ graphPeers s ∧ q ∈ (s.get_connected_peers p).getD ∅ ∧ linkCost s calculate_cost p q = w

variable {env : RouteEnv} {my p : PeerId} {s : SyncedRouteInfo D} {cost : PeerId → PeerId → Nat}

theorem mem_peerEdges {index : AList (fun _ : PeerId => Nat)} {src : PeerId} {i : Nat} {e : EdgeRef Nat Nat} :
    e ∈ peerEdges s cost index src i ↔
      e.source = i ∧ ∃ dst ∈ (s.get_connected_peers src).getD ∅,
        index.lookup dst = some e.target ∧ e.weight = linkCost s cost src dst := by
  unfold peerEdges
  simp only [List.mem_filterMap, Finset.mem_sort, Option.map_eq_some_iff]
  constructor
  · rintro ⟨dst, hdst, j, hj, rfl⟩
    exact ⟨rfl, dst, hdst, hj, rfl⟩
  · rintro ⟨hi, dst, hdst, hj, hw⟩
    refine ⟨dst, hdst, e.target, hj, ?_⟩
    rw [← hw, ← hi]

/-- The edges are the links of the peers that have an index. -/
theorem mem_graphEdges {e : EdgeRef Nat Nat} :
    e ∈ graphEdges env s cost (addPeers env.graphs (graphPeers s)).2 ↔
      ∃ src dst, (graphPeers s)[e.source]? = some src ∧ (graphPeers s)[e.target]? = some dst ∧
        dst ∈ (s.get_connected_peers src).getD ∅ ∧ linkCost s cost src dst = e.weight := by
  obtain ⟨-, -, hindex⟩ := addPeers_spec env.graphs (graphPeers s) (graphPeers_nodup s)
  rw [graphEdges, List.mem_flatMap]
  constructor
  · rintro ⟨x, hx, he⟩
    obtain ⟨hi, dst, hdst, hj, hw⟩ := mem_peerEdges.mp he
    have hlook := AList.mem_lookup_iff.mpr ((env.node_order.perm _).mem_iff.mp hx)
    refine ⟨x.1, dst, ?_, (hindex dst _).mp hj, hdst, hw.symm⟩
    rw [hi]
    exact (hindex x.1 x.2).mp hlook
  · rintro ⟨src, dst, hi, hj, hdst, hw⟩
    refine ⟨⟨src, e.source⟩, (env.node_order.perm _).mem_iff.mpr (AList.mem_lookup_iff.mp ((hindex src _).mpr hi)), ?_⟩
    exact mem_peerEdges.mpr ⟨rfl, dst, hdst, (hindex dst _).mpr hj, hw.symm⟩

/-- The graph of a link state that has me in it. -/
theorem graph_present (env : RouteEnv) (cost : PeerId → PeerId → Nat) {start : Nat}
    (hstart : (graphPeers s)[start]? = some my) :
    (build_peer_graph_from_synced_info env my s cost).2 = some start ∧
      env.graphs.node_weights (build_peer_graph_from_synced_info env my s cost).1 = graphPeers s ∧
      ∀ e, e ∈ env.graphs.edge_references (build_peer_graph_from_synced_info env my s cost).1 ↔
        ∃ src dst, (graphPeers s)[e.source]? = some src ∧ (graphPeers s)[e.target]? = some dst ∧
          dst ∈ (s.get_connected_peers src).getD ∅ ∧ linkCost s cost src dst = e.weight := by
  obtain ⟨hnodes, hedges, hindex⟩ := addPeers_spec env.graphs (graphPeers s) (graphPeers_nodup s)
  have hbuilt : build_peer_graph_from_synced_info env my s cost =
      (env.graphs.add_edges (addPeers env.graphs (graphPeers s)).1
        (graphEdges env s cost (addPeers env.graphs (graphPeers s)).2), some start) := by
    rw [build_peer_graph_from_synced_info]
    simp only [(hindex my start).mpr hstart]
  have hwithin : ∀ e ∈ graphEdges env s cost (addPeers env.graphs (graphPeers s)).2,
      e.Within (env.graphs.node_weights (addPeers env.graphs (graphPeers s)).1).length := by
    intro e he
    obtain ⟨src, dst, hi, hj, -⟩ := mem_graphEdges.mp he
    rw [hnodes]
    exact ⟨(List.getElem?_eq_some_iff.mp hi).1, (List.getElem?_eq_some_iff.mp hj).1⟩
  obtain ⟨hadded, hmem⟩ := env.graphs.add_edges_spec _ _ hwithin
  rw [hbuilt]
  refine ⟨rfl, hadded.trans hnodes, fun e => ?_⟩
  rw [hmem, or_iff_right (hedges e), mem_graphEdges]

/-- An index stands for the peer it was given to. -/
theorem matching_links (env : RouteEnv) (cost : PeerId → PeerId → Nat) (hmy : my ∈ graphPeers s) :
    Matching (fun i p => (graphPeers s)[i]? = some p)
      ((env.graphs.view (build_peer_graph_from_synced_info env my s cost).1).edge (fun e => e.weight)) (links s cost) := by
  obtain ⟨start, hstart⟩ := List.mem_iff_getElem?.mp hmy
  obtain ⟨-, -, hedges⟩ := graph_present env cost hstart
  constructor
  · intro i p q hp hq
    rw [hp, Option.some.injEq] at hq
    exact hq
  · intro p i j hi hj
    exact (List.getElem?_inj (List.getElem?_eq_some_iff.mp hi).1 (graphPeers_nodup s)).mp (hi.trans hj.symm)
  · intro i j w p he hp
    obtain ⟨e, hmem, rfl, rfl, rfl⟩ := env.graphs.edge_view.mp he
    obtain ⟨src, dst, hi, hj, hdst, hw⟩ := (hedges e).mp hmem
    rw [hp, Option.some.injEq] at hi
    subst hi
    exact ⟨dst, hj, List.mem_of_getElem? hp, List.mem_of_getElem? hj, hdst, hw⟩
  · intro p q w i he hp
    obtain ⟨-, hq, hdst, hw⟩ := he
    obtain ⟨j, hj⟩ := List.mem_iff_getElem?.mp hq
    refine ⟨j, hj, env.graphs.edge_view.mpr ⟨⟨i, j, w⟩, ?_, rfl, rfl, rfl⟩⟩
    exact (hedges _).mpr ⟨p, q, hp, hj, hdst, hw⟩

/-! ## Next hops that are worth their entry -/

/-- What a policy wants of an entry. -/
def Routed (policy : NextHopPolicy) (my : PeerId) (s : SyncedRouteInfo D) (cost : PeerId → PeerId → Nat) (p : PeerId)
    (x : NextHopInfo) : Prop :=
  match policy with
  | .LeastCost => ∃ d : Nat, Shortest (links s cost) my p x.next_hop_peer_id x.path_len d ∧
      x.path_latency = d % AVOID_RELAY_COST
  | .LeastHop => ∃ d : Nat ×ₗ Nat, Shortest (bothEdge normalize_edge_cost (links s cost)) my p x.next_hop_peer_id x.path_len d ∧
      x.path_latency = (ofLex d).2 % AVOID_RELAY_COST

/-- I have said something myself, and a walk leads to the peer. -/
def Reachable (my : PeerId) (s : SyncedRouteInfo D) (cost : PeerId → PeerId → Nat) (p : PeerId) : Prop :=
  my ∈ graphPeers s ∧ ∃ n c, Walk (links s cost) my p n c

/-! ## Entering the results of a search -/

section Entering
variable {L : GraphLib PeerId Nat}

/-- The entry made for one destination. -/
def entryOf (graph : L.Graph) (version : Nat) (costs : AList (fun _ : Nat => Nat)) (dst : Nat) (hop : Nat × Nat) :
    PeerId × NextHopInfo :=
  ((L.node_weight graph dst).getD 0,
    ⟨(L.node_weight graph hop.1).getD 0, (costs.lookup dst).getD 0 % AVOID_RELAY_COST, hop.2, version⟩)

/-- When the nodes and costs are there, entering does not panic. -/
theorem foldlM_enter (graph : L.Graph) (version : Nat) (costs : AList (fun _ : Nat => Nat)) :
    ∀ (l : List (Sigma fun _ : Nat => Nat × Nat)) (m : AList (fun _ : PeerId => NextHopInfo)),
      (∀ e ∈ l, (L.node_weight graph e.1).isSome ∧ (costs.lookup e.1).isSome ∧ (L.node_weight graph e.2.1).isSome) →
      l.foldlM (fun m e => enterNextHop L graph version costs m e.1 e.2) m =
        some ((l.map fun e => entryOf graph version costs e.1 e.2).foldl (fun m o => upsert newer id m o.1 o.2) m)
  | [], _, _ => rfl
  | e :: l, m, h => by
    obtain ⟨hdst, hcost, hhop⟩ := h e List.mem_cons_self
    obtain ⟨dst, hdst⟩ := Option.isSome_iff_exists.mp hdst
    obtain ⟨cost, hcost⟩ := Option.isSome_iff_exists.mp hcost
    obtain ⟨hop, hhop⟩ := Option.isSome_iff_exists.mp hhop
    have hone : enterNextHop L graph version costs m e.1 e.2 =
        some (upsert newer id m (entryOf graph version costs e.1 e.2).1 (entryOf graph version costs e.1 e.2).2) := by
      simp [enterNextHop, entryOf, hdst, hcost, hhop]
    rw [List.foldlM_cons, hone, List.map_cons, List.foldl_cons]
    exact foldlM_enter graph version costs l _ (fun x hx => h x (List.mem_cons_of_mem e hx))

/-- An entry of this version stays whatever is offered at it. -/
theorem foldl_newer_keeps {version : Nat} : ∀ (cs : List NextHopInfo) (x : NextHopInfo),
    version ≤ x.version → (∀ c ∈ cs, c.version = version) → cs.foldl (choose newer id) (some x) = some x
  | [], _, _, _ => rfl
  | c :: cs, x, hx, hcs => by
    have hc : newer c x = false := by
      rw [newer, hcs c List.mem_cons_self]
      exact decide_eq_false (Nat.not_lt.mpr hx)
    rw [List.foldl_cons, choose, hc, if_neg Bool.false_ne_true]
    exact foldl_newer_keeps cs x hx (fun d hd => hcs d (List.mem_cons_of_mem c hd))

/-- An older entry, or none, gives way to what is offered. -/
theorem foldl_newer_enters {version : Nat} {c : NextHopInfo} {cs : List NextHopInfo} {o : Option NextHopInfo}
    (ho : ∀ x, o = some x → x.version < version) (hcs : ∀ d ∈ c :: cs, d.version = version) :
    (c :: cs).foldl (choose newer id) o = some c := by
  have hc : c.version = version := hcs c List.mem_cons_self
  have hfirst : choose newer id o c = some c := by
    cases o with
    | none => rfl
    | some x =>
      have hnewer : newer c x = true := by
        rw [newer, hc]
        exact decide_eq_true (ho x rfl)
      rw [choose, hnewer, if_pos rfl]
      rfl
  rw [List.foldl_cons, hfirst]
  exact foldl_newer_keeps cs c hc.ge (fun d hd => hcs d (List.mem_cons_of_mem c hd))

/-- The links of a graph, by cost. -/
def costs (graph : L.Graph) : Nat → Nat → Nat → Prop := (L.view graph).edge (fun e => e.weight)

/-- What a rebuild of the next hops does to the entry of each peer, said of a graph
whose nodes bear different peers. -/
structure Rebuilt (graph : L.Graph) (start : Nat) (version : Nat) (m m' : AList (fun _ : PeerId => NextHopInfo)) :
    Prop where
  kept : ∀ p x, m.lookup p = some x → version ≤ x.version → m'.lookup p = some x
  entered : ∀ p i d, (L.node_weights graph)[i]? = some p → IsDist (costs graph) start i d →
    (∀ x, m.lookup p = some x → x.version < version) →
    ∃ x h, m'.lookup p = some x ∧ x.version = version ∧ (L.node_weights graph)[h]? = some x.next_hop_peer_id ∧
      Shortest (costs graph) start i h x.path_len d ∧ x.path_latency = d % AVOID_RELAY_COST
  unreached : ∀ p, (∀ i d, (L.node_weights graph)[i]? = some p → ¬ IsDist (costs graph) start i d) →
    m'.lookup p = m.lookup p

theorem hop_mem {V E K : Type} [AddCommMonoid K] {g : IntoEdges V E} {cost : EdgeRef V E → K} {s h v : V} {n : Nat} {c : K}
    (hv : Via (g.edge cost) s h v n c) : h ∈ g.nodes := by
  obtain ⟨-, -, -, -, ⟨e, he, rfl, -⟩, -⟩ := hv.tail
  exact g.closed s e he

theorem end_mem {V E K : Type} [AddCommMonoid K] {g : IntoEdges V E} {cost : EdgeRef V E → K} {s v : V} {n : Nat} {c : K}
    (hs : s ∈ g.nodes) (hw : Walk (g.edge cost) s v n c) : v ∈ g.nodes := by
  refine hw.mem ?_ hs
  rintro u v w ⟨x, hx, rfl, -⟩ -
  exact g.closed u x hx

section Entries
variable {graph : L.Graph} {start : Nat} {r : DijkstraResult Nat Nat}

theorem node_weight_of_mem {i : Nat} (hi : i ∈ (L.view graph).nodes) : ∃ p, L.node_weight graph i = some p :=
  ⟨_, List.getElem?_eq_getElem (List.mem_range.mp hi)⟩

/-- What one result of the search amounts to. -/
theorem answers_entry (hr : Answers (costs graph) start r) (hstart : start ∈ (L.view graph).nodes)
    {e : Sigma fun _ : Nat => Nat × Nat} (he : e ∈ r.first_hop.entries) :
    ∃ d p h, r.scores.lookup e.1 = some d ∧ IsDist (costs graph) start e.1 d ∧
      Shortest (costs graph) start e.1 e.2.1 e.2.2 d ∧ L.node_weight graph e.1 = some p ∧ L.node_weight graph e.2.1 = some h := by
  have hlook : r.first_hop.lookup e.1 = some e.2 := AList.mem_lookup_iff.mpr he
  cases hd : r.scores.lookup e.1 with
  | none =>
    rw [hr.agree.absent e.1 hd] at hlook
    cases hlook
  | some d =>
    have hdist := (hr.scores_iff e.1 d).mp hd
    have hhop := hr.agree.hops e.1 d hd
    rw [hlook] at hhop
    rcases hhop with ⟨hv, hzero, hh, hn⟩ | ⟨hv, hvia⟩
    · obtain ⟨p, hp⟩ := node_weight_of_mem hstart
      exact ⟨d, p, p, rfl, hdist, Or.inl ⟨hv, hh, hn, hzero⟩, by rw [hv, hp], by rw [hh, hp]⟩
    · obtain ⟨p, hp⟩ := node_weight_of_mem (end_mem hstart hvia.walk)
      obtain ⟨h, hh⟩ := node_weight_of_mem (hop_mem hvia)
      exact ⟨d, p, h, rfl, hdist, Or.inr ⟨hv, hvia, hdist⟩, hp, hh⟩

/-- The entries offered for a peer are those of its node. -/
theorem mem_offers (hr : Answers (costs graph) start r) (hstart : start ∈ (L.view graph).nodes) (version : Nat) {p : PeerId}
    {l : List (Sigma fun _ : Nat => Nat × Nat)} (hl : ∀ e ∈ l, e ∈ r.first_hop.entries) {x : NextHopInfo}
    (hx : x ∈ ((l.map fun e => entryOf graph version r.scores e.1 e.2).filter (fun o => o.1 = p)).map (·.2)) :
    x.version = version ∧ ∃ i h d, (L.node_weights graph)[i]? = some p ∧ IsDist (costs graph) start i d ∧
      (L.node_weights graph)[h]? = some x.next_hop_peer_id ∧ Shortest (costs graph) start i h x.path_len d ∧
      x.path_latency = d % AVOID_RELAY_COST := by
  obtain ⟨o, ho, rfl⟩ := List.mem_map.mp hx
  obtain ⟨ho, hop⟩ := List.mem_filter.mp ho
  obtain ⟨e, he, rfl⟩ := List.mem_map.mp ho
  obtain ⟨d, q, h, hd, hdist, hshort, hq, hh⟩ := answers_entry hr hstart (hl e he)
  have hqp : q = p := by
    have hkey := of_decide_eq_true hop
    rwa [entryOf, hq] at hkey
  refine ⟨rfl, e.1, e.2.1, d, by rw [← hqp]; exact hq, hdist, ?_, hshort, ?_⟩
  · rw [entryOf, hh]
    exact hh
  · rw [entryOf, hd]
    rfl

/-- Entering all the results of a search, in any order. -/
theorem rebuilt_entries (hr : Answers (costs graph) start r) (hstart : start ∈ (L.view graph).nodes)
    (hnodup : (L.node_weights graph).Nodup) (version : Nat) {l : List (Sigma fun _ : Nat => Nat × Nat)}
    (hl : ∀ e, e ∈ l ↔ e ∈ r.first_hop.entries) (m : AList (fun _ : PeerId => NextHopInfo)) :
    Rebuilt graph start version m
      ((l.map fun e => entryOf graph version r.scores e.1 e.2).foldl (fun m o => upsert newer id m o.1 o.2) m) := by
  have hoffers := fun (p : PeerId) (x : NextHopInfo) hx => mem_offers (p := p) (x := x) hr hstart version (fun e he => (hl e).mp he) hx
  constructor
  · intro p x hx hle
    rw [lookup_foldl_upsert, hx]
    exact foldl_newer_keeps _ x hle (fun c hc => (hoffers p c hc).1)
  · intro p i d hp hd hold
    rw [lookup_foldl_upsert]
    have hscore := (hr.scores_iff i d).mpr hd
    have hhop := hr.agree.hops i d hscore
    -- the node of `p` has an entry, so something is offered
    cases hlook : r.first_hop.lookup i with
    | none =>
      rw [hlook] at hhop
      exact hhop.elim
    | some hop =>
      have hmem : (⟨i, hop⟩ : Sigma fun _ : Nat => Nat × Nat) ∈ l := (hl _).mpr (AList.mem_lookup_iff.mp hlook)
      have hin : (entryOf graph version r.scores i hop).2 ∈
          ((l.map fun e => entryOf graph version r.scores e.1 e.2).filter (fun o => o.1 = p)).map (·.2) := by
        refine List.mem_map_of_mem (List.mem_filter.mpr ⟨List.mem_map_of_mem hmem, decide_eq_true ?_⟩)
        rw [entryOf, GraphLib.node_weight, hp]
        rfl
      cases hcs : ((l.map fun e => entryOf graph version r.scores e.1 e.2).filter (fun o => o.1 = p)).map (·.2) with
      | nil =>
        rw [hcs] at hin
        cases hin
      | cons c cs =>
        have hall := hoffers p
        rw [hcs] at hall
        rw [foldl_newer_enters hold (fun x hx => (hall x hx).1)]
        obtain ⟨hversion, j, h, d', hj, hdist, hh, hshort, hlat⟩ := hall c List.mem_cons_self
        have hji : j = i := (List.getElem?_inj (List.getElem?_eq_some_iff.mp hj).1 hnodup).mp (hj.trans hp.symm)
        subst hji
        rw [hdist.unique hd] at hshort hlat
        exact ⟨c, h, rfl, hversion, hh, hshort, hlat⟩
  · intro p hp
    rw [lookup_foldl_upsert]
    cases hcs : ((l.map fun e => entryOf graph version r.scores e.1 e.2).filter (fun o => o.1 = p)).map (·.2) with
    | nil => rfl
    | cons c cs =>
      obtain ⟨-, i, -, d, hi, hd, -⟩ := hoffers p c (by rw [hcs]; exact List.mem_cons_self)
      exact absurd hd (hp i d hi)

end Entries

end Entering

variable {graph : env.graphs.Graph}

/-- The rebuild by cost. -/
theorem gen_least_cost_spec {start : Nat} {my : PeerId} (version : Nat) (t : RouteTable D)
    (hnodup : (env.graphs.node_weights graph).Nodup) (hstart : (env.graphs.node_weights graph)[start]? = some my) :
    ∃ m, gen_next_hop_map_with_least_cost env graph start version t =
        some { t with next_hop_map := m, next_hop_map_version := max t.next_hop_map_version version } ∧
      Rebuilt graph start version t.next_hop_map m := by
  have hin : start ∈ (env.graphs.view graph).nodes := List.mem_range.mpr (List.getElem?_eq_some_iff.mp hstart).1
  obtain ⟨r, hr, hrun⟩ := dijkstra_answers env.heap (env.graphs.view graph) start (fun e => e.weight)
    (fun _ => Nat.zero_le _) hin
  have hsearch : dijkstra_with_first_hop env.heap (env.graphs.view graph) start (fun e => e.weight) = some r :=
    hrun _ le_rfl
  have hperm : ∀ e, e ∈ env.hop_order.order r.first_hop.entries ↔ e ∈ r.first_hop.entries :=
    fun e => (env.hop_order.perm r.first_hop.entries).mem_iff
  have hfold := foldlM_enter graph version r.scores (env.hop_order.order r.first_hop.entries) t.next_hop_map (by
    intro e he
    obtain ⟨d, p, h, hd, -, -, hp, hh⟩ := answers_entry hr hin ((hperm e).mp he)
    exact ⟨by rw [hp]; rfl, by rw [hd]; rfl, by rw [hh]; rfl⟩)
  have hnode : ¬ env.graphs.node_weight graph start = none := by
    rw [GraphLib.node_weight, hstart]
    exact Option.some_ne_none my
  refine ⟨(((env.hop_order.order r.first_hop.entries).map fun e => entryOf graph version r.scores e.1 e.2).foldl
    (fun m o => upsert newer id m o.1 o.2) t.next_hop_map), ?_, rebuilt_entries hr hin hnodup version hperm t.next_hop_map⟩
  rw [gen_next_hop_map_with_least_cost, if_neg hnode, hsearch]
  simp only [Option.bind_eq_bind, Option.bind_some, hfold]
  rfl

/-! ## The subgraph of fewest hops -/

section Subgraph
variable {L : GraphLib PeerId Nat} {graph : L.Graph} {start : Nat}

/-- The copy has the same nodes at the same indices, and no edges yet. -/
theorem copyNodes_spec (L : GraphLib PeerId Nat) (start : Nat) (nodes : List PeerId) :
    L.node_weights (copyNodes L start nodes).1 = nodes ∧ (∀ e, e ∉ L.edge_references (copyNodes L start nodes).1) ∧
      (copyNodes L start nodes).2 = if start < nodes.length then some start else none := by
  induction nodes using List.reverseRecOn with
  | nil =>
    refine ⟨L.nodes_new, fun e he => ?_, rfl⟩
    rw [show (copyNodes L start []).1 = L.new from rfl, L.edges_new] at he
    cases he
  | append_singleton nodes p ih =>
    obtain ⟨hnodes, hedges, hstart⟩ := ih
    have hone : copyNodes L start (nodes ++ [p]) = ((L.add_node (copyNodes L start nodes).1 p).1,
        if nodes.length = start then some (L.add_node (copyNodes L start nodes).1 p).2
        else (copyNodes L start nodes).2) := by
      rw [copyNodes, List.zipIdx_append, List.foldl_append, Nat.zero_add]
      rfl
    rw [hone]
    refine ⟨?_, fun e he => hedges e ((L.mem_add_node _ _ e).mp he), ?_⟩
    · rw [L.nodes_add_node, hnodes]
    · rw [L.index_added, hnodes, hstart, List.length_append, List.length_singleton]
      by_cases heq : nodes.length = start
      · subst heq
        rw [if_pos rfl, if_pos (Nat.lt_succ_self _)]
      · rw [if_neg heq]
        by_cases hlt : start < nodes.length
        · rw [if_pos hlt, if_pos (by omega)]
        · rw [if_neg hlt, if_neg (by omega)]

/-- The subgraph: the same nodes, the start at the same index, and the edges chosen. -/
theorem leastHopSubgraph_spec (path_len : Nat → Option Nat) (hstart : start < (L.node_weights graph).length) :
    (leastHopSubgraph L graph start path_len).2 = some start ∧
      L.node_weights (leastHopSubgraph L graph start path_len).1 = L.node_weights graph ∧
      ∀ e, e ∈ L.edge_references (leastHopSubgraph L graph start path_len).1 ↔
        e ∈ leastHopEdges (L.edge_references graph) path_len := by
  obtain ⟨hnodes, hedges, hindex⟩ := copyNodes_spec L start (L.node_weights graph)
  have hwithin : ∀ e ∈ leastHopEdges (L.edge_references graph) path_len,
      e.Within (L.node_weights (copyNodes L start (L.node_weights graph)).1).length := by
    intro e he
    rw [hnodes]
    exact L.within graph e (List.mem_filter.mp he).1
  obtain ⟨hadded, hmem⟩ := L.add_edges_spec _ _ hwithin
  refine ⟨hindex.trans (if_pos hstart), hadded.trans hnodes, fun e => ?_⟩
  rw [leastHopSubgraph, hmem, or_iff_right (hedges e)]

theorem tight_costs (path_len : Nat → Option Nat) (hstart : start < (L.node_weights graph).length) :
    costs (leastHopSubgraph L graph start path_len).1 = tightEdge normalize_edge_cost (costs graph) path_len := by
  obtain ⟨-, -, hedges⟩ := leastHopSubgraph_spec path_len hstart
  funext i j w
  apply propext
  rw [costs, costs, L.edge_view, tightEdge, L.edge_view]
  constructor
  · rintro ⟨e, he, rfl, rfl, rfl⟩
    obtain ⟨hmem, htight⟩ := List.mem_filter.mp ((hedges e).mp he)
    refine ⟨⟨e, hmem, rfl, rfl, rfl⟩, ?_⟩
    cases ha : path_len e.source with
    | none =>
      rw [ha] at htight
      cases htight
    | some a =>
      cases hb : path_len e.target with
      | none =>
        rw [ha, hb] at htight
        cases htight
      | some b =>
        rw [ha, hb] at htight
        exact ⟨a, b, rfl, rfl, of_decide_eq_true htight⟩
  · rintro ⟨⟨e, he, rfl, rfl, rfl⟩, a, b, ha, hb, hab⟩
    refine ⟨e, (hedges e).mpr (List.mem_filter.mpr ⟨he, ?_⟩), rfl, rfl, rfl⟩
    simp only [ha, hb]
    exact decide_eq_true hab

theorem normalized_costs (graph : L.Graph) :
    (L.view graph).edge (fun e => normalize_edge_cost e.weight) = firstEdge normalize_edge_cost (costs graph) := by
  funext i j x
  apply propext
  constructor
  · rintro ⟨e, he, hj, hx⟩
    exact ⟨e.weight, ⟨e, he, hj, rfl⟩, hx⟩
  · rintro ⟨w, ⟨e, he, hj, rfl⟩, hx⟩
    exact ⟨e, he, hj, hx⟩

theorem isDist_self {V : Type} {edge : V → V → Nat → Prop} (v : V) : IsDist edge v v 0 :=
  ⟨⟨0, Walk.nil⟩, fun _ c _ => Nat.zero_le c⟩

/-- A first hop in the subgraph is one by hops, then cost. -/
theorem shortest_of_tight {i h n d : Nat} {dist : Nat → Option Nat}
    (hdist : ∀ v a, dist v = some a ↔ IsDist (firstEdge normalize_edge_cost (costs graph)) start v a)
    (hs : Shortest (tightEdge normalize_edge_cost (costs graph) dist) start i h n d) :
    ∃ a, Shortest (bothEdge normalize_edge_cost (costs graph)) start i h n (toLex (a, d)) := by
  have hzero : dist start = some 0 := (hdist start 0).mpr (isDist_self start)
  rcases hs with ⟨hi, hh, hn, hd⟩ | ⟨hne, hvia, hd⟩
  · exact ⟨0, Or.inl ⟨hi, hh, hn, by rw [hd]; rfl⟩⟩
  · obtain ⟨a, ha, hboth⟩ := Via.of_tight hzero hvia
    exact ⟨a, Or.inr ⟨hne, hboth, (isDist_both_iff hdist hzero).mpr ⟨(hdist i a).mp ha, hd⟩⟩⟩

end Subgraph

/-- The distances of the first search. -/
theorem dijkstra_spec {start : Nat} (hin : start ∈ (env.graphs.view graph).nodes) (v a : Nat) :
    env.search.dijkstra (env.graphs.view graph) start (fun e => normalize_edge_cost e.weight) v = some a ↔
      IsDist (firstEdge normalize_edge_cost (costs graph)) start v a := by
  rw [← normalized_costs]
  exact env.search.spec (env.graphs.view graph) start _ hin v a

/-! ## A rebuild -/

/-- What a rebuild does to the entry of each peer. -/
structure Refreshed (policy : NextHopPolicy) (my : PeerId) (s : SyncedRouteInfo D) (cost : PeerId → PeerId → Nat)
    (version : Nat) (m m' : AList (fun _ : PeerId => NextHopInfo)) : Prop where
  kept : ∀ p x, m.lookup p = some x → version ≤ x.version → m'.lookup p = some x
  entered : ∀ p, Reachable my s cost p → (∀ x, m.lookup p = some x → x.version < version) →
    ∃ x, m'.lookup p = some x ∧ x.version = version ∧ Routed policy my s cost p x
  unreached : ∀ p, ¬ Reachable my s cost p → m'.lookup p = m.lookup p

/-- The walks of the graph are the walks between peers. -/
theorem reachable_iff (hmy : my ∈ graphPeers s) {start i : Nat} (hstart : (graphPeers s)[start]? = some my) {p : PeerId}
    (hp : (graphPeers s)[i]? = some p) :
    Reachable my s cost p ↔ ∃ n c, Walk (costs (build_peer_graph_from_synced_info env my s cost).1) start i n c := by
  have hm := matching_links env cost hmy
  constructor
  · rintro ⟨-, n, c, hw⟩
    obtain ⟨j, hj, hwalk⟩ := hm.symm.walk hstart hw
    rw [hm.left p j i hj hp] at hwalk
    exact ⟨n, c, hwalk⟩
  · rintro ⟨n, c, hw⟩
    obtain ⟨q, hq, hwalk⟩ := hm.walk hstart hw
    rw [hm.right i q p hq hp] at hwalk
    exact ⟨hmy, n, c, hwalk⟩

theorem reachable_mem (h : Reachable my s cost p) : p ∈ graphPeers s := by
  obtain ⟨hmy, n, c, hw⟩ := h
  exact hw.mem (fun _ _ _ he _ => he.2.1) hmy

variable {start : Nat} {version : Nat}

theorem refreshed_least_cost (hmy : my ∈ graphPeers s) (hstart : (graphPeers s)[start]? = some my)
    {m m' : AList (fun _ : PeerId => NextHopInfo)}
    (h : Rebuilt (build_peer_graph_from_synced_info env my s cost).1 start version m m') :
    Refreshed .LeastCost my s cost version m m' := by
  have hm := matching_links env cost hmy
  obtain ⟨-, hnodes, -⟩ := graph_present env cost hstart
  constructor
  · exact h.kept
  · intro p hp hold
    obtain ⟨i, hi⟩ := List.mem_iff_getElem?.mp (reachable_mem hp)
    obtain ⟨n, c, hw⟩ := (reachable_iff hmy hstart hi).mp hp
    obtain ⟨d, hd⟩ := exists_isDist hw
    obtain ⟨x, k, hx, hversion, hk, hshort, hlat⟩ := h.entered p i d (by rwa [hnodes]) hd hold
    rw [hnodes] at hk
    exact ⟨x, hx, hversion, d, hm.shortest hstart hi hk hshort, hlat⟩
  · intro p hp
    refine h.unreached p ?_
    intro i d hi hd
    rw [hnodes] at hi
    obtain ⟨n, hn⟩ := hd.attained
    exact hp ((reachable_iff hmy hstart hi).mpr ⟨n, d, hn⟩)

theorem refreshed_least_hop (hmy : my ∈ graphPeers s) (hstart : (graphPeers s)[start]? = some my)
    {m m' : AList (fun _ : PeerId => NextHopInfo)} {dist : Nat → Option Nat}
    (hdist : ∀ v a, dist v = some a ↔
      IsDist (firstEdge normalize_edge_cost (costs (build_peer_graph_from_synced_info env my s cost).1)) start v a)
    (h : Rebuilt (leastHopSubgraph env.graphs (build_peer_graph_from_synced_info env my s cost).1 start dist).1
      start version m m') : Refreshed .LeastHop my s cost version m m' := by
  have hm := (matching_links env cost hmy).both normalize_edge_cost
  have hzero : dist start = some 0 := (hdist start 0).mpr (isDist_self start)
  obtain ⟨-, hnodes, -⟩ := graph_present env cost hstart
  have hlt : start < (env.graphs.node_weights (build_peer_graph_from_synced_info env my s cost).1).length := by
    rw [hnodes]
    exact (List.getElem?_eq_some_iff.mp hstart).1
  obtain ⟨-, hsame, -⟩ := leastHopSubgraph_spec dist hlt
  rw [hnodes] at hsame
  constructor
  · exact h.kept
  · intro p hp hold
    obtain ⟨i, hi⟩ := List.mem_iff_getElem?.mp (reachable_mem hp)
    obtain ⟨n, c, hw⟩ := (reachable_iff hmy hstart hi).mp hp
    obtain ⟨b, hb⟩ := hw.weighed normalize_edge_cost
    obtain ⟨d, hd⟩ := exists_isDist hb
    obtain ⟨hfirst, htight⟩ := (isDist_both_iff hdist hzero (a := (ofLex d).1) (c := (ofLex d).2)).mp hd
    rw [← tight_costs dist hlt] at htight
    obtain ⟨x, k, hx, hversion, hk, hshort, hlat⟩ := h.entered p i _ (by rwa [hsame]) htight hold
    rw [tight_costs dist hlt] at hshort
    rw [hsame] at hk
    obtain ⟨a, ha⟩ := shortest_of_tight hdist hshort
    exact ⟨x, hx, hversion, toLex (a, (ofLex d).2), hm.shortest hstart hi hk ha, hlat⟩
  · intro p hp
    refine h.unreached p ?_
    intro i d hi hd
    rw [hsame] at hi
    rw [tight_costs dist hlt] at hd
    obtain ⟨n, hn⟩ := hd.attained
    exact hp ((reachable_iff hmy hstart hi).mpr ⟨n, d, hn.mono (fun _ _ _ he => he.1)⟩)

theorem gen_next_hop_map_spec (env : RouteEnv) (policy : NextHopPolicy) (cost : PeerId → PeerId → Nat) (version : Nat)
    (t : RouteTable D) (hmy : my ∈ graphPeers s)
    (hstart : (graphPeers s)[start]? = some my) :
    ∃ m, gen_next_hop_map env policy (build_peer_graph_from_synced_info env my s cost).1 start version t =
        some { t with next_hop_map := m, next_hop_map_version := max t.next_hop_map_version version } ∧
      Refreshed policy my s cost version t.next_hop_map m := by
  obtain ⟨-, hnodes, -⟩ := graph_present env cost hstart
  have hnode : (env.graphs.node_weights (build_peer_graph_from_synced_info env my s cost).1)[start]? = some my := by
    rwa [hnodes]
  have hnodup : (env.graphs.node_weights (build_peer_graph_from_synced_info env my s cost).1).Nodup := by
    rw [hnodes]
    exact graphPeers_nodup s
  cases policy with
  | LeastCost =>
    obtain ⟨m, hm, hr⟩ := gen_least_cost_spec version t hnodup hnode
    exact ⟨m, hm, refreshed_least_cost hmy hstart hr⟩
  | LeastHop =>
    have hlt := (List.getElem?_eq_some_iff.mp hnode).1
    have hin : start ∈ (env.graphs.view (build_peer_graph_from_synced_info env my s cost).1).nodes :=
      List.mem_range.mpr hlt
    obtain ⟨hindex, hsame, -⟩ := leastHopSubgraph_spec
      (env.search.dijkstra (env.graphs.view (build_peer_graph_from_synced_info env my s cost).1) start
        (fun e => normalize_edge_cost e.weight)) hlt
    obtain ⟨m, hm, hr⟩ := gen_least_cost_spec version t (by rwa [hsame]) (by rwa [hsame])
    refine ⟨m, ?_, refreshed_least_hop hmy hstart (dijkstra_spec hin) hr⟩
    have hpresent : ¬ env.graphs.node_weight (build_peer_graph_from_synced_info env my s cost).1 start = none := by
      rw [GraphLib.node_weight, hnode]
      exact Option.some_ne_none my
    rw [gen_next_hop_map, gen_next_hop_map_with_least_hop, if_neg hpresent]
    simp only [hindex, Option.bind_eq_bind, Option.bind_some]
    exact hm

/-- A rebuild when I have said something myself. -/
theorem build_present (env : RouteEnv) (policy : NextHopPolicy) (cost : PeerId → PeerId → Nat) (t : RouteTable D)
    (hmy : my ∈ graphPeers s) :
    ∃ m, build_from_synced_info env my s policy cost t =
        some (enterAllClaims env my s
          { t with next_hop_map := m, next_hop_map_version := max t.next_hop_map_version s.version }) ∧
      Refreshed policy my s cost s.version t.next_hop_map m := by
  obtain ⟨start, hstart⟩ := List.mem_iff_getElem?.mp hmy
  obtain ⟨m, hm, hr⟩ := gen_next_hop_map_spec env policy cost s.version t hmy hstart
  refine ⟨m, ?_, hr⟩
  obtain ⟨hidx, hnodes, -⟩ := graph_present env cost hstart
  have hne : ¬ env.graphs.node_count (build_peer_graph_from_synced_info env my s cost).1 = 0 := by
    rw [GraphLib.node_count, hnodes, List.length_eq_zero_iff]
    exact List.ne_nil_of_mem hmy
  simp only [build_from_synced_info, if_neg hne, hidx, hm]
  rfl

/-- And when I have not. -/
theorem build_absent (env : RouteEnv) (policy : NextHopPolicy) (t : RouteTable D) (hmy : my ∉ graphPeers s) :
    build_from_synced_info env my s policy cost t =
      some (clean_expired_route_info { t with next_hop_map_version := max t.next_hop_map_version s.version }) := by
  obtain ⟨-, -, hindex⟩ := addPeers_spec env.graphs (graphPeers s) (graphPeers_nodup s)
  have hnone : (addPeers env.graphs (graphPeers s)).2.lookup my = none := by
    cases hlook : (addPeers env.graphs (graphPeers s)).2.lookup my with
    | none => rfl
    | some i => exact absurd (List.mem_of_getElem? ((hindex my i).mp hlook)) hmy
  have hidx : (build_peer_graph_from_synced_info env my s cost).2 = none := by
    rw [build_peer_graph_from_synced_info]
    simp only [hnone]
  by_cases hne : env.graphs.node_count (build_peer_graph_from_synced_info env my s cost).1 = 0
  · simp only [build_from_synced_info, if_pos hne]
  · simp only [build_from_synced_info, if_neg hne, hidx]

/-! ## Runs -/

/-- The inputs of a rebuild. -/
structure Rebuild (D : Type) where
  env : RouteEnv
  s : SyncedRouteInfo D
  cost : PeerId → PeerId → Nat

inductive TableOp (D : Type) where
  | rebuild (b : Rebuild D)
  | clean

def TableOp.apply (policy : NextHopPolicy) (my : PeerId) (t : RouteTable D) : TableOp D → Option (RouteTable D)
  | .rebuild b => build_from_synced_info b.env my b.s policy b.cost t
  | .clean => some (clean_expired_route_info t)

/-- The table after a run, from an empty one. -/
def runTable (policy : NextHopPolicy) (my : PeerId) (ops : List (TableOp D)) : Option (RouteTable D) :=
  ops.foldlM (TableOp.apply policy my) RouteTable.new

/-- The rebuilds of a run. -/
def rebuilds (ops : List (TableOp D)) : List (Rebuild D) :=
  ops.filterMap fun | .rebuild b => some b | .clean => none

/-- The version is counted up whenever what a rebuild reads has changed. -/
def Versioned (a b : Rebuild D) : Prop :=
  a.s.version ≤ b.s.version ∧ (a.s.version = b.s.version → a.s = b.s ∧ a.cost = b.cost)

/-- What the next hops keep: current entries are those of the last rebuild. -/
structure NextHopInv (policy : NextHopPolicy) (my : PeerId) (last : Option (Rebuild D)) (t : RouteTable D) : Prop where
  bounded : ∀ p x, t.next_hop_map.lookup p = some x → x.version ≤ t.next_hop_map_version
  version : t.next_hop_map_version = last.elim 0 (fun b => b.s.version)
  current : ∀ p x, t.next_hop_map.lookup p = some x → x.version = t.next_hop_map_version →
    ∃ b, last = some b ∧ Reachable my b.s b.cost p ∧ Routed policy my b.s b.cost p x
  complete : ∀ b, last = some b → ∀ p, Reachable my b.s b.cost p →
    ∃ x, t.next_hop_map.lookup p = some x ∧ x.version = t.next_hop_map_version

theorem nextHopInv_new (policy : NextHopPolicy) (my : PeerId) : NextHopInv policy my none (RouteTable.new : RouteTable D) where
  bounded := fun _ _ h => by cases h
  version := rfl
  current := fun _ _ h => by cases h
  complete := fun _ h => by cases h

variable {policy : NextHopPolicy} {last : Option (Rebuild D)} {t : RouteTable D}

theorem nextHopInv_clean (h : NextHopInv policy my last t) : NextHopInv policy my last (clean_expired_route_info t) := by
  have hlook : ∀ p, (clean_expired_route_info t).next_hop_map.lookup p =
      (t.next_hop_map.lookup p).filter (fun v => decide (t.next_hop_map_version ≤ v.version)) :=
    fun p => lookup_retain _ _ p
  constructor
  · intro p x hx
    rw [hlook, Option.filter_eq_some_iff] at hx
    exact h.bounded p x hx.1
  · exact h.version
  · intro p x hx
    rw [hlook, Option.filter_eq_some_iff] at hx
    exact h.current p x hx.1
  · intro b hb p hp
    obtain ⟨x, hx, hversion⟩ := h.complete b hb p hp
    refine ⟨x, ?_, hversion⟩
    rw [hlook, Option.filter_eq_some_iff]
    exact ⟨hx, decide_eq_true hversion.ge⟩

/-- The next hops after a rebuild, whatever the claims. -/
theorem nextHopInv_refreshed (h : NextHopInv policy my last t) {b : Rebuild D} (hlast : ∀ a, last = some a → Versioned a b)
    {m : AList (fun _ : PeerId => NextHopInfo)}
    (hr : Refreshed policy my b.s b.cost b.s.version t.next_hop_map m) {t' : RouteTable D} (hm : t'.next_hop_map = m)
    (hv : t'.next_hop_map_version = max t.next_hop_map_version b.s.version) : NextHopInv policy my (some b) t' := by
  have hle : t.next_hop_map_version ≤ b.s.version := by
    rw [h.version]
    cases last with
    | none => exact Nat.zero_le _
    | some a => exact (hlast a rfl).1
  have hversion : t'.next_hop_map_version = b.s.version := by
    rw [hv]
    omega
  -- an entry that is current already is one of a rebuild from the same state
  have hsame : ∀ p x, t.next_hop_map.lookup p = some x → x.version = b.s.version →
      Reachable my b.s b.cost p ∧ Routed policy my b.s b.cost p x := by
    intro p x hx hxv
    have hxt := h.bounded p x hx
    obtain ⟨a, ha, hreach, hrouted⟩ := h.current p x hx (by omega)
    have hav : a.s.version = b.s.version := by
      have hversion := h.version
      rw [ha] at hversion
      simp only [Option.elim_some] at hversion
      omega
    obtain ⟨hs, hcost⟩ := (hlast a ha).2 hav
    rw [← hs, ← hcost]
    exact ⟨hreach, hrouted⟩
  have hentry : ∀ p x, t'.next_hop_map.lookup p = some x →
      x.version ≤ b.s.version ∧ (x.version = b.s.version → Reachable my b.s b.cost p ∧ Routed policy my b.s b.cost p x) := by
    intro p x hx
    rw [hm] at hx
    cases hold : t.next_hop_map.lookup p with
    | none =>
      by_cases hp : Reachable my b.s b.cost p
      · obtain ⟨y, hy, hyv, hrouted⟩ := hr.entered p hp (fun z hz => by rw [hold] at hz; cases hz)
        rw [hx, Option.some.injEq] at hy
        subst hy
        exact ⟨hyv.le, fun _ => ⟨hp, hrouted⟩⟩
      · rw [hr.unreached p hp, hold] at hx
        cases hx
    | some y =>
      have hyt := h.bounded p y hold
      by_cases hyv : b.s.version ≤ y.version
      · rw [hr.kept p y hold hyv, Option.some.injEq] at hx
        subst hx
        exact ⟨by omega, hsame p y hold⟩
      · by_cases hp : Reachable my b.s b.cost p
        · obtain ⟨z, hz, hzv, hrouted⟩ := hr.entered p hp (fun z hz => by
            rw [hold, Option.some.injEq] at hz
            rw [← hz]
            omega)
          rw [hx, Option.some.injEq] at hz
          subst hz
          exact ⟨hzv.le, fun _ => ⟨hp, hrouted⟩⟩
        · rw [hr.unreached p hp, hold, Option.some.injEq] at hx
          subst hx
          exact ⟨by omega, fun heq => absurd heq.ge hyv⟩
  constructor
  · intro p x hx
    rw [hversion]
    exact (hentry p x hx).1
  · exact hversion
  · intro p x hx hxv
    rw [hversion] at hxv
    exact ⟨b, rfl, (hentry p x hx).2 hxv⟩
  · intro a ha p hp
    obtain rfl := Option.some.inj ha
    rw [hversion, hm]
    by_cases hold : ∃ y, t.next_hop_map.lookup p = some y ∧ b.s.version ≤ y.version
    · obtain ⟨y, hy, hyv⟩ := hold
      have hyt := h.bounded p y hy
      exact ⟨y, hr.kept p y hy hyv, by omega⟩
    · obtain ⟨x, hx, hxv, -⟩ := hr.entered p hp (fun z hz => by
        by_contra hlt
        exact hold ⟨z, hz, by omega⟩)
      exact ⟨x, hx, hxv⟩

/-- A rebuild without me leaves no current next hop. -/
theorem nextHopInv_absent (h : NextHopInv policy my last t) {b : Rebuild D} (hlast : ∀ a, last = some a → Versioned a b)
    (hmy : my ∉ graphPeers b.s) :
    NextHopInv policy my (some b) { t with next_hop_map_version := max t.next_hop_map_version b.s.version } := by
  have hnone : ∀ p, ¬ Reachable my b.s b.cost p := fun p hp => hmy hp.1
  have hr : Refreshed policy my b.s b.cost b.s.version t.next_hop_map t.next_hop_map :=
    ⟨fun _ _ hx _ => hx, fun p hp => absurd hp (hnone p), fun _ _ => rfl⟩
  exact nextHopInv_refreshed h hlast hr rfl rfl

/-- One rebuild. -/
theorem nextHopInv_rebuild (h : NextHopInv policy my last t) {b : Rebuild D} (hlast : ∀ a, last = some a → Versioned a b) :
    ∃ t', build_from_synced_info b.env my b.s policy b.cost t = some t' ∧ NextHopInv policy my (some b) t' := by
  by_cases hmy : my ∈ graphPeers b.s
  · obtain ⟨m, hbuild, hr⟩ := build_present b.env policy b.cost t hmy
    exact ⟨_, hbuild, nextHopInv_refreshed h hlast hr rfl rfl⟩
  · exact ⟨_, build_absent b.env policy t hmy, nextHopInv_clean (nextHopInv_absent h hlast hmy)⟩

theorem rebuilds_append (l₁ l₂ : List (TableOp D)) : rebuilds (l₁ ++ l₂) = rebuilds l₁ ++ rebuilds l₂ :=
  List.filterMap_append ..

/-- The latest of an ordered list comes after all that stand before it. -/
theorem versioned_getLast {l : List (Rebuild D)} {b : Rebuild D} (h : (l ++ [b]).Pairwise Versioned) :
    ∀ a, l.getLast? = some a → Versioned a b := by
  intro a ha
  exact (List.pairwise_append.mp h).2.2 a (List.mem_of_getLast? ha) b (List.mem_singleton_self b)

/-- One more step of a run. -/
theorem runTable_append {ops : List (TableOp D)} {op : TableOp D} (h : runTable policy my ops = some t) :
    runTable policy my (ops ++ [op]) = op.apply policy my t := by
  unfold runTable at h ⊢
  rw [List.foldlM_append, h]
  simp

/-- A run does not panic, and its next hops are those of the last rebuild. -/
theorem runTable_keeps (policy : NextHopPolicy) (my : PeerId) (ops : List (TableOp D))
    (hv : (rebuilds ops).Pairwise Versioned) :
    ∃ t, runTable policy my ops = some t ∧ NextHopInv policy my (rebuilds ops).getLast? t := by
  induction ops using List.reverseRecOn with
  | nil => exact ⟨RouteTable.new, rfl, nextHopInv_new policy my⟩
  | append_singleton ops op ih =>
    rw [rebuilds_append] at hv
    obtain ⟨t, ht, hinv⟩ := ih (List.pairwise_append.mp hv).1
    rw [runTable_append ht, rebuilds_append]
    cases op with
    | rebuild b =>
      have hone : rebuilds [TableOp.rebuild b] = [b] := rfl
      rw [hone] at hv ⊢
      rw [List.getLast?_append_of_ne_nil _ (List.cons_ne_nil b []), List.getLast?_singleton]
      exact nextHopInv_rebuild hinv (versioned_getLast hv)
    | clean =>
      have hone : rebuilds [(TableOp.clean : TableOp D)] = [] := rfl
      rw [hone, List.append_nil]
      exact ⟨_, rfl, nextHopInv_clean hinv⟩

/-- Who has a next hop, and which. -/
theorem NextHopInv.get_next_hop {b : Rebuild D} (h : NextHopInv policy my (some b) t) (p : PeerId) :
    (Reachable my b.s b.cost p → ∃ x, t.get_next_hop p = some x ∧ x.version = b.s.version ∧ Routed policy my b.s b.cost p x) ∧
    (¬ Reachable my b.s b.cost p → t.get_next_hop p = none) := by
  have hcurrent : ∀ x, t.next_hop_map.lookup p = some x → x.version = t.next_hop_map_version →
      Reachable my b.s b.cost p ∧ Routed policy my b.s b.cost p x := by
    intro x hx hxv
    obtain ⟨a, ha, hreach⟩ := h.current p x hx hxv
    obtain rfl := Option.some.inj ha
    exact hreach
  constructor
  · intro hp
    obtain ⟨x, hx, hxv⟩ := h.complete b rfl p hp
    refine ⟨x, ?_, hxv.trans h.version, (hcurrent x hx hxv).2⟩
    rw [RouteTable.get_next_hop, Option.filter_eq_some_iff]
    exact ⟨hx, decide_eq_true hxv.ge⟩
  · intro hp
    rw [RouteTable.get_next_hop, Option.filter_eq_none_iff]
    intro x hx hxv
    exact hp (hcurrent x hx (le_antisymm (h.bounded p x hx) (of_decide_eq_true hxv))).1

/-- After any run of rebuilds and cleanings, a peer has a next hop exactly when the last
link state leads to it, and it is one its policy wants. -/
theorem next_hops_of_run (policy : NextHopPolicy) (my : PeerId) (ops : List (TableOp D)) (b : Rebuild D)
    (hv : (rebuilds ops).Pairwise Versioned) (hlast : (rebuilds ops).getLast? = some b) :
    ∃ t, runTable policy my ops = some t ∧ ∀ p,
      (Reachable my b.s b.cost p → ∃ x, t.get_next_hop p = some x ∧ Routed policy my b.s b.cost p x) ∧
      (¬ Reachable my b.s b.cost p → t.get_next_hop p = none) := by
  obtain ⟨t, ht, hinv⟩ := runTable_keeps policy my ops hv
  rw [hlast] at hinv
  refine ⟨t, ht, ?_⟩
  intro p
  obtain ⟨hreach, hnone⟩ := hinv.get_next_hop p
  refine ⟨?_, hnone⟩
  intro hp
  obtain ⟨x, hx, -, hrouted⟩ := hreach hp
  exact ⟨x, hx, hrouted⟩

/-- Networks by their address and mask. -/
def plainCidrs (w : Nat) : CidrLib w where
  first_address := fun c => c.address
  last_address := fun c => c.address ||| (BitVec.allOnes w >>> c.network_length)

/-- The entry with the longest prefix among those that hold the address. -/
def scanLongest {w : Nat} (L : CidrLib w) {α : Type} (m : AList (fun _ : Cidr w => α)) (ip : BitVec w) :
    Option (Sigma fun _ : Cidr w => α) :=
  (m.entries.filter fun e => L.first_address e.1 ≤ ip ∧ ip ≤ L.last_address e.1).foldl
    (choose (fun e best => decide (best.1.network_length < e.1.network_length)) id) none

/-- A scan finds nothing only where nothing holds the address, and the longest otherwise. -/
theorem scanLongest_spec {w : Nat} (L : CidrLib w) {α : Type} (m : AList (fun _ : Cidr w => α)) (ip : BitVec w) :
    (scanLongest L m ip = none → ∀ c v, m.lookup c = some v → ¬L.Holds c ip) ∧
    (∀ e, scanLongest L m ip = some e → m.lookup e.1 = some e.2 ∧ L.Holds e.1 ip ∧
      ∀ c v, m.lookup c = some v → L.Holds c ip → c.network_length ≤ e.1.network_length) := by
  have hmem : ∀ e, e ∈ m.entries.filter (fun e => L.first_address e.1 ≤ ip ∧ ip ≤ L.last_address e.1) ↔
      m.lookup e.1 = some e.2 ∧ L.Holds e.1 ip := by
    intro e
    rw [List.mem_filter, ← AList.mem_lookup_iff, decide_eq_true_iff]
    rfl
  unfold scanLongest
  generalize m.entries.filter (fun e => L.first_address e.1 ≤ ip ∧ ip ≤ L.last_address e.1) = l at hmem
  cases l with
  | nil =>
    refine ⟨?_, fun e he => by cases he⟩
    intro _ c v hc hholds
    have hin := (hmem ⟨c, v⟩).mpr ⟨hc, hholds⟩
    cases hin
  | cons x l =>
    obtain ⟨e, he, horigin, hle, hall⟩ := foldl_choose_lowest
      (fun e best : Sigma fun _ : Cidr w => α => decide (best.1.network_length < e.1.network_length)) id
      (fun e => OrderDual.toDual e.1.network_length) (fun _ => True) (fun _ => True) (fun _ _ => trivial)
      (fun c old _ _ hb => OrderDual.toDual_le_toDual.mpr (of_decide_eq_true hb).le)
      (fun c old _ _ hb => OrderDual.toDual_le_toDual.mpr (Nat.not_lt.mp (of_decide_eq_false hb))) l x trivial
      (fun _ _ => trivial)
    have hin : e ∈ x :: l := by
      rcases horigin with rfl | ⟨c, hc, rfl⟩
      · exact List.mem_cons_self
      · exact List.mem_cons_of_mem x hc
    have hfirst : (x :: l).foldl (choose (fun e best : Sigma fun _ : Cidr w => α =>
        decide (best.1.network_length < e.1.network_length)) id) none = some e := he
    rw [hfirst]
    refine ⟨(fun h => by cases h), ?_⟩
    intro e' he'
    obtain rfl := Option.some.inj he'
    refine ⟨((hmem e).mp hin).1, ((hmem e).mp hin).2, ?_⟩
    intro c v hc hholds
    rcases List.mem_cons.mp ((hmem ⟨c, v⟩).mpr ⟨hc, hholds⟩) with hx | hx
    · rw [← hx] at hle
      exact OrderDual.toDual_le_toDual.mp hle
    · exact OrderDual.toDual_le_toDual.mp (hall ⟨c, v⟩ hx)

/-- Such a map. -/
def scannedEntries {w : Nat} (L : CidrLib w) : PrefixMap L where
  get_lpm := scanLongest L
  absent := fun m ip => (scanLongest_spec L m ip).1
  longest := fun m ip => (scanLongest_spec L m ip).2

/-- Maps visited in the order of their entries, graphs as lists, the search of this
development as the library's, and no range that can be read. -/
def plainEnv : RouteEnv where
  graphs := listGraphs PeerId Nat
  cidrs4 := plainCidrs 32
  cidrs6 := plainCidrs 128
  tries4 := scannedEntries (plainCidrs 32)
  tries6 := scannedEntries (plainCidrs 128)
  heap := sortedHeap Nat Nat
  search :=
    { dijkstra := fun g start edge_cost v =>
        (dijkstra_with_first_hop (sortedHeap Nat Nat) g start edge_cost).bind (fun r => r.scores.lookup v)
      spec := by
        intro g start edge_cost hstart v d
        obtain ⟨r, hr, hrun⟩ := dijkstra_answers (sortedHeap Nat Nat) g start edge_cost (fun _ => Nat.zero_le _) hstart
        have hresult : dijkstra_with_first_hop (sortedHeap Nat Nat) g start edge_cost = some r := hrun _ le_rfl
        rw [hresult]
        exact hr.scores_iff v d }
  node_order := ⟨fun l => l, fun l => List.Perm.refl l⟩
  hop_order := ⟨fun l => l, fun l => List.Perm.refl l⟩
  table_order := ⟨fun l => l, fun l => List.Perm.refl l⟩
  parse := fun _ => none

/-- Two peers that are connected to each other. -/
def twoPeers : SyncedRouteInfo Unit where
  peer_infos := ((∅ : AList _).insert 1 { (RoutePeerInfo.new : RoutePeerInfo Unit) with version := 1 }).insert 2
    { (RoutePeerInfo.new : RoutePeerInfo Unit) with version := 1 }
  conn_map := ((∅ : AList _).insert 1 ⟨{2}, 1, 0⟩).insert 2 ⟨{1}, 1, 0⟩
  version := 1

theorem links_twoPeers : links twoPeers (fun _ _ => 1) 1 2 1 ∧ links twoPeers (fun _ _ => 1) 2 1 1 := by
  refine ⟨⟨?_, ?_, ?_, ?_⟩, ?_, ?_, ?_, ?_⟩ <;> decide

theorem reachable_twoPeers : Reachable 1 twoPeers (fun _ _ => 1) 2 :=
  ⟨by decide, 1, 0 + 1, Walk.nil.snoc links_twoPeers.1⟩

theorem next_hops_of_two : ∃ t, runTable .LeastHop 1 [.rebuild ⟨plainEnv, twoPeers, fun _ _ => 1⟩, .clean] = some t ∧
    ∃ x, t.get_next_hop 2 = some x ∧ Routed .LeastHop 1 twoPeers (fun _ _ => 1) 2 x := by
  obtain ⟨t, ht, hhops⟩ := next_hops_of_run .LeastHop 1 [.rebuild ⟨plainEnv, twoPeers, fun _ _ => 1⟩, .clean]
    ⟨plainEnv, twoPeers, fun _ _ => 1⟩ (List.pairwise_singleton _ _) rfl
  exact ⟨t, ht, (hhops 2).1 reachable_twoPeers⟩

/-! ## Forwarding -/

/-- A table that some run has left whose last rebuild read these links. -/
def Converged (policy : NextHopPolicy) (s : SyncedRouteInfo D) (cost : PeerId → PeerId → Nat) (u : PeerId)
    (t : RouteTable D) : Prop :=
  ∃ ops b, runTable policy u ops = some t ∧ (rebuilds ops).Pairwise Versioned ∧ (rebuilds ops).getLast? = some b ∧
    links b.s b.cost = links s cost ∧ ∀ p, p ∈ graphPeers b.s ↔ p ∈ graphPeers s

theorem reachable_congr {s' : SyncedRouteInfo D} {cost' : PeerId → PeerId → Nat} (hlinks : links s' cost' = links s cost)
    (hpeers : ∀ p, p ∈ graphPeers s' ↔ p ∈ graphPeers s) : Reachable my s' cost' p ↔ Reachable my s cost p := by
  rw [Reachable, Reachable, hlinks, hpeers]

/-- What a converged table says of a peer that can be reached. -/
theorem Converged.get_next_hop {u : PeerId} (h : Converged policy s cost u t) (hp : Reachable u s cost p) :
    ∃ x, t.get_next_hop p = some x ∧ Routed policy u s cost p x := by
  obtain ⟨ops, b, hrun, hv, hlast, hlinks, hpeers⟩ := h
  obtain ⟨t', ht', hinv⟩ := runTable_keeps policy u ops hv
  rw [hrun, Option.some.injEq] at ht'
  subst ht'
  rw [hlast] at hinv
  obtain ⟨x, hx, -, hrouted⟩ := (hinv.get_next_hop p).1 ((reachable_congr hlinks hpeers).mpr hp)
  refine ⟨x, hx, ?_⟩
  cases policy with
  | LeastCost =>
    obtain ⟨d, hd, hlat⟩ := hrouted
    exact ⟨d, by rwa [← hlinks], hlat⟩
  | LeastHop =>
    obtain ⟨d, hd, hlat⟩ := hrouted
    exact ⟨d, by rwa [← hlinks], hlat⟩

/-- The next hop of each peer for one destination. -/
def nextFor (table : PeerId → RouteTable D) (p u : PeerId) : Option PeerId :=
  ((table u).get_next_hop p).map (·.next_hop_peer_id)

/-- Where every table has first hops of least walks, what is sent on arrives. -/
theorem delivers {K : Type} [AddCommMonoid K] [LinearOrder K] [IsOrderedAddMonoid K] [IsCancelAdd K] [WellFoundedLT K]
    {edge : PeerId → PeerId → K → Prop} {table : PeerId → RouteTable D} (hpos : ∀ u v w, edge u v w → 0 < w)
    (hlink : ∀ u v w, edge u v w → ∃ c, links s cost u v c)
    (hshort : ∀ u, Reachable u s cost p → ∃ x d, (table u).get_next_hop p = some x ∧
      Shortest edge u p x.next_hop_peer_id x.path_len d) {d : K} {u : PeerId} (hd : IsDist edge u p d) :
    ∃ l, Trail (nextFor table p) p u l ∧ (u :: l).Nodup ∧ Walk edge u p l.length d := by
  have hreach : ∀ v e, v ≠ p → IsDist edge v p e → Reachable v s cost p := by
    intro v e hne he
    obtain ⟨n, hn⟩ := he.attained
    obtain ⟨c, hc⟩ := hn.reweigh hlink
    have hn0 : n ≠ 0 := by
      rintro rfl
      cases hn
      exact hne rfl
    obtain ⟨h, hvia⟩ := hc.via hn0
    obtain ⟨-, -, w, -, hw, -⟩ := hvia.tail
    exact ⟨hw.1, n, c, hc⟩
  have hnext : ∀ v e, v ≠ p → IsDist edge v p e → ∃ h n, nextFor table p v = some h ∧ Via edge v h p n e := by
    intro v e hne he
    obtain ⟨x, e', hx, hsh⟩ := hshort v (hreach v e hne he)
    rcases hsh with ⟨h, -⟩ | ⟨-, hvia, he'⟩
    · exact absurd h.symm hne
    · rw [he'.unique he] at hvia
      exact ⟨x.next_hop_peer_id, x.path_len, by rw [nextFor, hx]; rfl, hvia⟩
  obtain ⟨l, hl, hnodup, hwalk, -⟩ := trail_of_first_hops hpos hnext d u hd
  exact ⟨l, hl, hnodup, hwalk⟩

theorem normalize_pos (w : Nat) : 0 < normalize_edge_cost w := by
  unfold normalize_edge_cost
  split
  · exact Nat.succ_pos _
  · exact Nat.one_pos

/-- Tables that agree on the links deliver: from any peer, sending on to the next hop of
each leads to the destination past no peer twice, on a walk that is least by cost, or
by hops and then cost. By cost this needs every link to cost something. -/
theorem forwarding_delivers (policy : NextHopPolicy) (s : SyncedRouteInfo D) (cost : PeerId → PeerId → Nat)
    (table : PeerId → RouteTable D) (hcost : policy = .LeastCost → ∀ p q, 0 < cost p q)
    (hconverged : ∀ u ∈ graphPeers s, Converged policy s cost u (table u)) (u p : PeerId) (hp : Reachable u s cost p) :
    ∃ l, Trail (nextFor table p) p u l ∧ (u :: l).Nodup ∧
      (policy = .LeastCost → ∃ d, IsDist (links s cost) u p d ∧ Walk (links s cost) u p l.length d) ∧
      (policy = .LeastHop → ∃ d, IsDist (bothEdge normalize_edge_cost (links s cost)) u p d ∧
        Walk (bothEdge normalize_edge_cost (links s cost)) u p l.length d) := by
  obtain ⟨-, n, c, hw⟩ := hp
  cases policy with
  | LeastCost =>
    obtain ⟨d, hd⟩ := exists_isDist hw
    have hpos : ∀ u v w, links s cost u v w → 0 < w := by
      rintro u v w ⟨-, -, -, rfl⟩
      have hone := hcost rfl u v
      unfold linkCost
      split
      · omega
      · exact hone
    have hshort : ∀ v, Reachable v s cost p → ∃ x d, (table v).get_next_hop p = some x ∧
        Shortest (links s cost) v p x.next_hop_peer_id x.path_len d := by
      intro v hv
      obtain ⟨x, hx, d, hsh, -⟩ := (hconverged v hv.1).get_next_hop hv
      exact ⟨x, d, hx, hsh⟩
    obtain ⟨l, hl, hnodup, hwalk⟩ := delivers hpos (fun u v w h => ⟨w, h⟩) hshort hd
    exact ⟨l, hl, hnodup, fun _ => ⟨d, hd, hwalk⟩, (fun h => by cases h)⟩
  | LeastHop =>
    obtain ⟨b, hb⟩ := hw.weighed normalize_edge_cost
    obtain ⟨d, hd⟩ := exists_isDist hb
    have hpos : ∀ u v x, bothEdge normalize_edge_cost (links s cost) u v x → 0 < x := by
      rintro u v x ⟨w, -, rfl⟩
      exact Prod.Lex.toLex_lt_toLex.mpr (Or.inl (normalize_pos w))
    have hshort : ∀ v, Reachable v s cost p → ∃ x d, (table v).get_next_hop p = some x ∧
        Shortest (bothEdge normalize_edge_cost (links s cost)) v p x.next_hop_peer_id x.path_len d := by
      intro v hv
      obtain ⟨x, hx, d, hsh, -⟩ := (hconverged v hv.1).get_next_hop hv
      exact ⟨x, d, hx, hsh⟩
    obtain ⟨l, hl, hnodup, hwalk⟩ := delivers hpos (fun u v x ⟨w, h, _⟩ => ⟨w, h⟩) hshort hd
    exact ⟨l, hl, hnodup, (fun h => by cases h), fun _ => ⟨d, hd, hwalk⟩⟩

theorem forwarding_of_two : ∃ table : PeerId → RouteTable Unit,
    ∃ l, Trail (nextFor table 2) 2 1 l ∧ ((1 : PeerId) :: l).Nodup := by
  have hrun : ∀ u, ∃ t, runTable .LeastCost u [.rebuild ⟨plainEnv, twoPeers, fun _ _ => 1⟩] = some t := by
    intro u
    obtain ⟨t, ht, -⟩ := runTable_keeps .LeastCost u [.rebuild ⟨plainEnv, twoPeers, fun _ _ => 1⟩]
      (List.pairwise_singleton _ _)
    exact ⟨t, ht⟩
  choose table htable using hrun
  obtain ⟨l, hl, hnodup, -, -⟩ := forwarding_delivers .LeastCost twoPeers (fun _ _ => 1) table
    (fun _ _ _ => Nat.one_pos)
    (fun u _ => ⟨_, ⟨plainEnv, twoPeers, fun _ _ => 1⟩, htable u, List.pairwise_singleton _ _, rfl, rfl, fun _ => Iff.rfl⟩)
    1 2 reachable_twoPeers
  exact ⟨table, l, hl, hnodup⟩

end RouteTable

end EasyTierHost.Peers
