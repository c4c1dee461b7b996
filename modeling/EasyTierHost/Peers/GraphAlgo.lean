import EasyTierHost.Graphs.Walks
import EasyTierHost.Graphs.Digraph
import EasyTierHost.Graphs.BinaryHeap
import Mathlib.Algebra.Order.Group.Nat
import Mathlib.Data.List.AList
import Mathlib.Data.List.Flatten

/- Dijkstra's algorithm with first hops (peers/graph_algo.rs). Scores are of any ordered
   commutative monoid. The graph is what the source's trait bounds give: the nodes and
   the edges out of each, in the order they are visited. A binary heap hands out one of
   its least entries; which of several is left open. `none` is a panic or a loop that
   does not end, and `dijkstra_spec` excludes both. -/
namespace EasyTierHost.Peers
open Graphs

section Algorithm
variable {V E K : Type} [DecidableEq V] [AddCommMonoid K] [LinearOrder K]

/-- `DijkstraResult`: scores, and a first hop with the number of edges. -/
structure DijkstraResult (K V : Type) where
  scores : AList (fun _ : V => K)
  first_hop : AList (fun _ : V => V × Nat)

/-- The variables of the loop. -/
structure Search (K V Heap : Type) extends DijkstraResult K V where
  visited : List V
  visit_next : Heap

/-- The lookup `first_hop[&node]` panics on a key that is absent. -/
def hopThrough {H : Type} (start node next : V) (st : Search K V H) : Option (V × Nat) :=
  if node = start then some (next, 0) else st.first_hop.lookup node

/-- A better score for `next`, from `node`. -/
def improve (Q : BinaryHeap K V) (start node next : V) (next_score : K) (st : Search K V Q.Heap) :
    Option (Search K V Q.Heap) := do
  let hop ← hopThrough start node next st
  return { st with
    scores := st.scores.insert next next_score
    visit_next := Q.push st.visit_next (next_score, next)
    first_hop := st.first_hop.insert next (hop.1, hop.2 + 1) }

/-- The body of the loop over the edges of `node`. -/
def relaxEdge (Q : BinaryHeap K V) (edge_cost : EdgeRef V E → K) (start node : V) (node_score : K)
    (st : Search K V Q.Heap) (edge : EdgeRef V E) : Option (Search K V Q.Heap) :=
  let next := edge.target
  if next ∈ st.visited then some st
  else
    let next_score := node_score + edge_cost edge
    match st.scores.lookup next with
    | some old => if next_score < old then improve Q start node next next_score st else some st
    | none => improve Q start node next next_score st

/-- The outer loop. -/
def search (Q : BinaryHeap K V) (g : IntoEdges V E) (edge_cost : EdgeRef V E → K) (start : V) :
    Nat → Search K V Q.Heap → Option (DijkstraResult K V)
  | 0, _ => none
  | fuel + 1, st =>
    match Q.pop st.visit_next with
    | none => some st.toDijkstraResult
    | some ((node_score, node), rest) =>
      let st := { st with visit_next := rest }
      if node ∈ st.visited then search Q g edge_cost start fuel st
      else do
        let st ← (g.edges node).foldlM (relaxEdge Q edge_cost start node node_score) st
        search Q g edge_cost start fuel { st with visited := node :: st.visited }

/-- The loop's variables before its first round. -/
def Search.first (Q : BinaryHeap K V) (start : V) : Search K V Q.Heap where
  scores := (∅ : AList _).insert start 0
  first_hop := (∅ : AList _).insert start (start, 0)
  visited := []
  visit_next := Q.push Q.new (0, start)

def dijkstra_with_first_hop (Q : BinaryHeap K V) (g : IntoEdges V E) (start : V) (edge_cost : EdgeRef V E → K) :
    Option (DijkstraResult K V) :=
  search Q g edge_cost start g.rounds (Search.first Q start)

/-! ## What the search keeps -/

variable {Q : BinaryHeap K V} {g : IntoEdges V E} {edge_cost : EdgeRef V E → K} {start : V}

/-- A first hop that goes with a score: the source itself, or the first node of a walk
of that cost and that many edges. -/
def HopFor (edge : V → V → K → Prop) (start v : V) (d : K) : Option (V × Nat) → Prop
  | none => False
  | some (h, n) => (v = start ∧ d = 0 ∧ h = start ∧ n = 0) ∨ (v ≠ start ∧ Via edge start h v n d)

/-- The two maps agree: the same keys, and a walk for each. -/
structure Agree (edge : V → V → K → Prop) (start : V) (r : DijkstraResult K V) : Prop where
  source : r.scores.lookup start = some 0
  hops : ∀ v d, r.scores.lookup v = some d → HopFor edge start v d (r.first_hop.lookup v)
  absent : ∀ v, r.scores.lookup v = none → r.first_hop.lookup v = none

/-- The heap holds what is labelled and unsettled, and perhaps older labels. -/
structure Queued (g : IntoEdges V E) (st : Search K V Q.Heap) : Prop where
  pending : ∀ v d, v ∉ st.visited → st.scores.lookup v = some d → (d, v) ∈ Q.items st.visit_next
  entries : ∀ v d, (d, v) ∈ Q.items st.visit_next → ∃ e, st.scores.lookup v = some e ∧ e ≤ d

structure SearchInv (g : IntoEdges V E) (edge_cost : EdgeRef V E → K) (start : V) (st : Search K V Q.Heap) : Prop where
  labels : LabelSetting (g.edge edge_cost) start (fun v => st.scores.lookup v) (· ∈ st.visited)
  agree : Agree (g.edge edge_cost) start st.toDijkstraResult
  queued : Queued g st

theorem searchInv_first : SearchInv g edge_cost start (Search.first Q start) := by
  have hother : ∀ v, v ≠ start → (Search.first Q start).scores.lookup v = none := by
    intro v hv
    rw [Search.first, AList.lookup_insert_ne hv]
    rfl
  constructor
  · exact LabelSetting.start (AList.lookup_insert _) hother (fun v => List.not_mem_nil)
  · constructor
    · exact AList.lookup_insert _
    · intro v d hd
      by_cases hv : v = start
      · subst hv
        rw [Search.first, AList.lookup_insert, Option.some.injEq] at hd
        rw [Search.first, AList.lookup_insert]
        exact Or.inl ⟨rfl, hd.symm, rfl, rfl⟩
      · rw [hother v hv] at hd
        cases hd
    · intro v hv
      have hne : v ≠ start := by
        rintro rfl
        rw [Search.first, AList.lookup_insert] at hv
        cases hv
      rw [Search.first, AList.lookup_insert_ne hne]
      rfl
  · have hitems : Q.items (Search.first Q start).visit_next = {(0, start)} := by
      rw [Search.first, Q.items_push, Q.items_new]
      rfl
    constructor
    · intro v d _ hd
      by_cases hv : v = start
      · subst hv
        rw [Search.first, AList.lookup_insert, Option.some.injEq] at hd
        rw [hitems, ← hd]
        exact Multiset.mem_singleton_self _
      · rw [hother v hv] at hd
        cases hd
    · intro v d hd
      rw [hitems, Multiset.mem_singleton, Prod.mk.injEq] at hd
      obtain ⟨rfl, rfl⟩ := hd
      exact ⟨0, AList.lookup_insert _, le_rfl⟩

/-! ## The edges of one node -/

/-- What looking at the edges `es` of `node` has done since `st₀`. -/
structure Scanned (edge_cost : EdgeRef V E → K) (node : V) (node_score : K) (es : List (EdgeRef V E))
    (st₀ st : Search K V Q.Heap) : Prop where
  visited : st.visited = st₀.visited
  kept : ∀ v ∈ st₀.visited, st.scores.lookup v = st₀.scores.lookup v
  lowered : ∀ v e, st₀.scores.lookup v = some e → ∃ e', st.scores.lookup v = some e' ∧ e' ≤ e
  origin : ∀ v e, st.scores.lookup v = some e → st₀.scores.lookup v = some e ∨
    ((e, v) ∈ Q.items st.visit_next ∧ ∃ x ∈ es, x.target = v ∧ e = node_score + edge_cost x)
  reached : ∀ x ∈ es, x.target ∉ st₀.visited →
    ∃ e, st.scores.lookup x.target = some e ∧ e ≤ node_score + edge_cost x
  items : Q.items st₀.visit_next ≤ Q.items st.visit_next
  entries : ∀ v d, (d, v) ∈ Q.items st.visit_next → (d, v) ∈ Q.items st₀.visit_next ∨
    ∃ e, st.scores.lookup v = some e ∧ e ≤ d
  pushes : (Q.items st.visit_next).card ≤ (Q.items st₀.visit_next).card + es.length

theorem Scanned.refl (node : V) (node_score : K) (st : Search K V Q.Heap) :
    Scanned edge_cost node node_score [] st st where
  visited := rfl
  kept := fun _ _ => rfl
  lowered := fun _ e he => ⟨e, he, le_rfl⟩
  origin := fun _ _ he => Or.inl he
  reached := fun _ hx => absurd hx List.not_mem_nil
  items := le_rfl
  entries := fun _ _ hd => Or.inl hd
  pushes := le_rfl

/-- Nothing to improve. -/
theorem Scanned.idle {node : V} {node_score : K} {e : EdgeRef V E} {st : Search K V Q.Heap}
    (h : e.target ∉ st.visited → ∃ d, st.scores.lookup e.target = some d ∧ d ≤ node_score + edge_cost e) :
    Scanned edge_cost node node_score [e] st st where
  visited := rfl
  kept := fun _ _ => rfl
  lowered := fun _ d hd => ⟨d, hd, le_rfl⟩
  origin := fun _ _ hd => Or.inl hd
  reached := fun x hx hv => by
    obtain rfl := List.mem_singleton.mp hx
    exact h hv
  items := le_rfl
  entries := fun _ _ hd => Or.inl hd
  pushes := Nat.le_add_right _ _

theorem Scanned.trans {node : V} {node_score : K} {es fs : List (EdgeRef V E)} {st₀ st₁ st₂ : Search K V Q.Heap}
    (h₁ : Scanned edge_cost node node_score es st₀ st₁) (h₂ : Scanned edge_cost node node_score fs st₁ st₂) :
    Scanned edge_cost node node_score (es ++ fs) st₀ st₂ where
  visited := h₂.visited.trans h₁.visited
  kept := fun v hv => by
    rw [h₂.kept v (by rw [h₁.visited]; exact hv), h₁.kept v hv]
  lowered := fun v e he => by
    obtain ⟨e₁, he₁, hle₁⟩ := h₁.lowered v e he
    obtain ⟨e₂, he₂, hle₂⟩ := h₂.lowered v e₁ he₁
    exact ⟨e₂, he₂, hle₂.trans hle₁⟩
  origin := fun v e he => by
    rcases h₂.origin v e he with hold | ⟨hq, x, hx, hxe⟩
    · rcases h₁.origin v e hold with hold | ⟨hq, x, hx, hxe⟩
      · exact Or.inl hold
      · exact Or.inr ⟨Multiset.mem_of_le h₂.items hq, x, List.mem_append_left _ hx, hxe⟩
    · exact Or.inr ⟨hq, x, List.mem_append_right _ hx, hxe⟩
  reached := fun x hx hv => by
    rcases List.mem_append.mp hx with hx | hx
    · obtain ⟨e, he, hle⟩ := h₁.reached x hx hv
      obtain ⟨e', he', hle'⟩ := h₂.lowered _ e he
      exact ⟨e', he', hle'.trans hle⟩
    · exact h₂.reached x hx (by rw [h₁.visited]; exact hv)
  items := h₁.items.trans h₂.items
  entries := fun v d hd => by
    rcases h₂.entries v d hd with hd | hd
    · rcases h₁.entries v d hd with hd | ⟨e, he, hle⟩
      · exact Or.inl hd
      · obtain ⟨e', he', hle'⟩ := h₂.lowered v e he
        exact Or.inr ⟨e', he', hle'.trans hle⟩
    · exact Or.inr hd
  pushes := by
    have h := h₁.pushes
    have h' := h₂.pushes
    rw [List.length_append]
    omega

/-- The hop handed on is the first of a walk through `node`. -/
theorem hopThrough_spec {st : Search K V Q.Heap} (ha : Agree (g.edge edge_cost) start st.toDijkstraResult)
    {node next : V} {node_score w : K} (hnode : st.scores.lookup node = some node_score)
    (hw : g.edge edge_cost node next w) :
    ∃ hop, hopThrough start node next st = some hop ∧
      Via (g.edge edge_cost) start hop.1 next (hop.2 + 1) (node_score + w) := by
  by_cases hn : node = start
  · subst hn
    have hzero : 0 = node_score := by
      have hsource := ha.source
      rwa [hnode, Option.some.injEq, eq_comm] at hsource
    refine ⟨(next, 0), by rw [hopThrough, if_pos rfl], ?_⟩
    rw [← hzero, zero_add w]
    exact Via.first hw
  · have hhop := ha.hops node node_score hnode
    cases hlook : st.first_hop.lookup node with
    | none =>
      rw [hlook] at hhop
      exact hhop.elim
    | some hop =>
      rw [hlook] at hhop
      rcases hhop with ⟨h, -⟩ | ⟨-, hvia⟩
      · exact absurd h hn
      · exact ⟨hop, by rw [hopThrough, if_neg hn, hlook], hvia.snoc hw⟩

/-! ## One round -/

omit [AddCommMonoid K] in
/-- A node popped for the first time has its own score and the least one. -/
theorem popped_least {st : Search K V Q.Heap} (hq : Queued g st) {d : K} {node : V} {rest : Q.Heap}
    (hpop : Q.pop st.visit_next = some ((d, node), rest)) (hnew : node ∉ st.visited) :
    st.scores.lookup node = some d ∧ ∀ v e, v ∉ st.visited → st.scores.lookup v = some e → d ≤ e := by
  obtain ⟨hitems, hleast⟩ := Q.pop_some _ _ _ hpop
  have hmin : ∀ v e, v ∉ st.visited → st.scores.lookup v = some e → d ≤ e :=
    fun v e hv he => hleast (e, v) (hq.pending v e hv he)
  refine ⟨?_, hmin⟩
  have hmem : (d, node) ∈ Q.items st.visit_next := by
    rw [hitems]
    exact Multiset.mem_cons_self _ _
  obtain ⟨e, he, hle⟩ := hq.entries node d hmem
  rw [he, le_antisymm hle (hmin node e hnew he)]

/-- A node that was popped before is skipped. -/
theorem searchInv_skip {st : Search K V Q.Heap} (h : SearchInv g edge_cost start st) {d : K} {node : V}
    {rest : Q.Heap} (hpop : Q.pop st.visit_next = some ((d, node), rest)) (hold : node ∈ st.visited) :
    SearchInv g edge_cost start { st with visit_next := rest } := by
  obtain ⟨hitems, -⟩ := Q.pop_some _ _ _ hpop
  refine ⟨h.labels, h.agree, ?_, ?_⟩
  · intro v e hv he
    have hmem := h.queued.pending v e hv he
    rw [hitems, Multiset.mem_cons, Prod.mk.injEq] at hmem
    rcases hmem with ⟨-, rfl⟩ | hmem
    · exact absurd hold hv
    · exact hmem
  · intro v e he
    refine h.queued.entries v e ?_
    rw [hitems]
    exact Multiset.mem_cons_of_mem he

/-- A scan of all the edges of a node relaxes them. -/
theorem Scanned.relaxation {node : V} {d : K} {st₀ st : Search K V Q.Heap}
    (hs : Scanned edge_cost node d (g.edges node) st₀ st) :
    Relaxation (g.edge edge_cost) (· ∈ st₀.visited) node d (fun v => st₀.scores.lookup v)
      (fun v => st.scores.lookup v) where
  kept := hs.kept
  lowered := hs.lowered
  origin := fun v e he => by
    rcases hs.origin v e he with hold | ⟨-, x, hx, hxv, hxe⟩
    · exact Or.inl hold
    · exact Or.inr ⟨edge_cost x, ⟨x, hx, hxv, rfl⟩, hxe⟩
  reached := fun v w ⟨x, hx, hxv, hxw⟩ hv => by
    subst hxv
    rw [← hxw]
    exact hs.reached x hx hv

/-! ## The rounds left -/

/-- The edges of the nodes that are not visited yet. -/
def edgesLeft (g : IntoEdges V E) (visited : List V) : Nat := ((g.nodes.filter (· ∉ visited)).flatMap g.edges).length

/-- Without a node, the edges of a list are fewer by its own. -/
theorem length_edges_without {node : V} : ∀ {l : List V}, node ∈ l →
    ((l.filter (· ≠ node)).flatMap g.edges).length + (g.edges node).length ≤ (l.flatMap g.edges).length
  | v :: l, h => by
    by_cases hv : v = node
    · subst hv
      have hsub : ((l.filter (· ≠ v)).flatMap g.edges).length ≤ (l.flatMap g.edges).length :=
        (List.filter_sublist.flatMap g.edges).length_le
      rw [List.filter_cons_of_neg (by simp), List.flatMap_cons, List.length_append]
      omega
    · have hrest := length_edges_without (List.mem_of_ne_of_mem (Ne.symm hv) h)
      rw [List.filter_cons_of_pos (by simpa using hv), List.flatMap_cons, List.length_append, List.flatMap_cons,
        List.length_append]
      omega

theorem edgesLeft_cons {visited : List V} {node : V} (hmem : node ∈ g.nodes) (hnew : node ∉ visited) :
    edgesLeft g (node :: visited) + (g.edges node).length ≤ edgesLeft g visited := by
  have hfilter : g.nodes.filter (· ∉ node :: visited) = (g.nodes.filter (· ∉ visited)).filter (· ≠ node) := by
    rw [List.filter_filter]
    apply List.filter_congr
    intro v _
    simp [List.mem_cons, not_or]
  rw [edgesLeft, hfilter, edgesLeft]
  exact length_edges_without (List.mem_filter.mpr ⟨hmem, by simpa using hnew⟩)

variable [IsOrderedAddMonoid K]

/-- A better score keeps the two maps in step. -/
theorem improve_spec (hpos : ∀ e, 0 ≤ edge_cost e) {st : Search K V Q.Heap}
    (ha : Agree (g.edge edge_cost) start st.toDijkstraResult) {node : V} {node_score : K}
    (hnode : st.scores.lookup node = some node_score) {e : EdgeRef V E} (he : e ∈ g.edges node)
    (hnew : e.target ∉ st.visited)
    (hbetter : ∀ old, st.scores.lookup e.target = some old → node_score + edge_cost e < old) :
    ∃ st', improve Q start node e.target (node_score + edge_cost e) st = some st' ∧
      Scanned edge_cost node node_score [e] st st' ∧ Agree (g.edge edge_cost) start st'.toDijkstraResult := by
  have hw : g.edge edge_cost node e.target (edge_cost e) := ⟨e, he, rfl, rfl⟩
  obtain ⟨hop, hhop, hvia⟩ := hopThrough_spec ha hnode hw
  have hscore : 0 ≤ node_score + edge_cost e := hvia.walk.nonneg (fun u v w ⟨x, _, _, hx⟩ => hx ▸ hpos x)
  -- the source is never improved on
  have hne : e.target ≠ start := by
    intro h
    have hlt := hbetter 0 (by rw [h]; exact ha.source)
    exact absurd hscore (not_le.mpr hlt)
  refine ⟨_, by rw [improve, hhop]; rfl, ?_, ?_⟩
  · constructor
    · rfl
    · intro v hv
      have hvne : v ≠ e.target := by
        rintro rfl
        exact hnew hv
      rw [AList.lookup_insert_ne hvne]
    · intro v d hd
      by_cases hv : v = e.target
      · subst hv
        exact ⟨_, AList.lookup_insert _, (hbetter d hd).le⟩
      · exact ⟨d, by rw [AList.lookup_insert_ne hv]; exact hd, le_rfl⟩
    · intro v d hd
      by_cases hv : v = e.target
      · subst hv
        rw [AList.lookup_insert, Option.some.injEq] at hd
        refine Or.inr ⟨?_, e, List.mem_singleton_self e, rfl, hd.symm⟩
        rw [Q.items_push, hd]
        exact Multiset.mem_cons_self _ _
      · rw [AList.lookup_insert_ne hv] at hd
        exact Or.inl hd
    · intro x hx _
      rw [List.mem_singleton.mp hx]
      exact ⟨_, AList.lookup_insert _, le_rfl⟩
    · rw [Q.items_push]
      exact Multiset.le_cons_self _ _
    · intro v d hd
      rw [Q.items_push, Multiset.mem_cons, Prod.mk.injEq] at hd
      rcases hd with ⟨rfl, rfl⟩ | hd
      · exact Or.inr ⟨_, AList.lookup_insert _, le_rfl⟩
      · exact Or.inl hd
    · rw [Q.items_push, Multiset.card_cons]
      exact le_rfl
  · constructor
    · rw [AList.lookup_insert_ne hne.symm]
      exact ha.source
    · intro v d hd
      by_cases hv : v = e.target
      · subst hv
        rw [AList.lookup_insert, Option.some.injEq] at hd
        rw [AList.lookup_insert, ← hd]
        exact Or.inr ⟨hne, hvia⟩
      · rw [AList.lookup_insert_ne hv] at hd
        rw [AList.lookup_insert_ne hv]
        exact ha.hops v d hd
    · intro v hd
      by_cases hv : v = e.target
      · subst hv
        rw [AList.lookup_insert] at hd
        cases hd
      · rw [AList.lookup_insert_ne hv] at hd
        rw [AList.lookup_insert_ne hv]
        exact ha.absent v hd

/-- One edge. -/
theorem relaxEdge_spec (hpos : ∀ e, 0 ≤ edge_cost e) {st : Search K V Q.Heap}
    (ha : Agree (g.edge edge_cost) start st.toDijkstraResult) {node : V} {node_score : K}
    (hnode : st.scores.lookup node = some node_score) {e : EdgeRef V E} (he : e ∈ g.edges node) :
    ∃ st', relaxEdge Q edge_cost start node node_score st e = some st' ∧
      Scanned edge_cost node node_score [e] st st' ∧ Agree (g.edge edge_cost) start st'.toDijkstraResult := by
  unfold relaxEdge
  by_cases hv : e.target ∈ st.visited
  · exact ⟨st, if_pos hv, Scanned.idle (fun h => absurd hv h), ha⟩
  · simp only [if_neg hv]
    cases hold : st.scores.lookup e.target with
    | none =>
      exact improve_spec hpos ha hnode he hv (fun old h => by rw [hold] at h; cases h)
    | some old =>
      by_cases hlt : node_score + edge_cost e < old
      · simp only [if_pos hlt]
        refine improve_spec hpos ha hnode he hv ?_
        intro old' h
        rw [hold, Option.some.injEq] at h
        rwa [← h]
      · simp only [if_neg hlt]
        exact ⟨st, rfl, Scanned.idle (fun _ => ⟨old, hold, not_lt.mp hlt⟩), ha⟩

/-- The score of `node` itself stays while its edges are looked at. -/
theorem Scanned.own (hpos : ∀ e, 0 ≤ edge_cost e) {node : V} {node_score : K} {es : List (EdgeRef V E)}
    {st₀ st : Search K V Q.Heap} (hs : Scanned edge_cost node node_score es st₀ st)
    (hnode : st₀.scores.lookup node = some node_score) : st.scores.lookup node = some node_score := by
  obtain ⟨e, he, hle⟩ := hs.lowered node node_score hnode
  rcases hs.origin node e he with hold | ⟨-, x, -, -, hx⟩
  · rw [he, ← hold, hnode]
  · have hge : node_score ≤ e := by
      rw [hx]
      exact le_add_of_nonneg_right (hpos x)
    rw [he, le_antisymm hle hge]

/-- All the edges of a node, from the first to the last. -/
theorem scan_spec (hpos : ∀ e, 0 ≤ edge_cost e) {node : V} {node_score : K} :
    ∀ (es : List (EdgeRef V E)) (st : Search K V Q.Heap), (∀ e ∈ es, e ∈ g.edges node) →
      Agree (g.edge edge_cost) start st.toDijkstraResult → st.scores.lookup node = some node_score →
      ∃ st', es.foldlM (relaxEdge Q edge_cost start node node_score) st = some st' ∧
        Scanned edge_cost node node_score es st st' ∧ Agree (g.edge edge_cost) start st'.toDijkstraResult
  | [], st, _, ha, _ => ⟨st, rfl, Scanned.refl node node_score st, ha⟩
  | e :: es, st, hes, ha, hnode => by
    obtain ⟨st₁, hrun₁, hs₁, ha₁⟩ := relaxEdge_spec hpos ha hnode (hes e List.mem_cons_self)
    obtain ⟨st₂, hrun₂, hs₂, ha₂⟩ := scan_spec hpos es st₁ (fun x hx => hes x (List.mem_cons_of_mem e hx)) ha₁
      (hs₁.own hpos hnode)
    refine ⟨st₂, ?_, hs₁.trans hs₂, ha₂⟩
    rw [List.foldlM_cons, hrun₁]
    exact hrun₂

/-- A new node is settled. -/
theorem searchInv_settle (hpos : ∀ e, 0 ≤ edge_cost e) {st st' : Search K V Q.Heap}
    (h : SearchInv g edge_cost start st) {d : K} {node : V} {rest : Q.Heap}
    (hpop : Q.pop st.visit_next = some ((d, node), rest)) (hnew : node ∉ st.visited)
    (hs : Scanned edge_cost node d (g.edges node) { st with visit_next := rest } st')
    (ha : Agree (g.edge edge_cost) start st'.toDijkstraResult) :
    SearchInv g edge_cost start { st' with visited := node :: st'.visited } := by
  obtain ⟨hitems, -⟩ := Q.pop_some _ _ _ hpop
  obtain ⟨hnode, hleast⟩ := popped_least h.queued hpop hnew
  have hvisited : st'.visited = st.visited := hs.visited
  refine ⟨?_, ha, ?_, ?_⟩
  · have hsettled := h.labels.settle (fun u v w ⟨x, _, _, hx⟩ => hx ▸ hpos x) hnode hnew hleast hs.relaxation
    have hmem : (fun v => v ∈ st.visited ∨ v = node) = (fun v => v ∈ node :: st'.visited) := by
      funext v
      rw [hvisited, List.mem_cons, or_comm]
    rwa [hmem] at hsettled
  · intro v e hv he
    obtain ⟨hne, hv⟩ := not_or.mp (fun hor => hv (List.mem_cons.mpr hor))
    rcases hs.origin v e he with hold | ⟨hq, -⟩
    · have hmem := h.queued.pending v e (by rwa [← hvisited]) hold
      rw [hitems, Multiset.mem_cons, Prod.mk.injEq] at hmem
      rcases hmem with ⟨-, rfl⟩ | hmem
      · exact absurd rfl hne
      · exact Multiset.mem_of_le hs.items hmem
    · exact hq
  · intro v e he
    rcases hs.entries v e he with hold | hnew'
    · obtain ⟨x, hx, hle⟩ := h.queued.entries v e (by rw [hitems]; exact Multiset.mem_cons_of_mem hold)
      obtain ⟨x', hx', hle'⟩ := hs.lowered v x hx
      exact ⟨x', hx', hle'.trans hle⟩
    · exact hnew'

/-- What the search returns: the distances, and hops that go with them. -/
structure Answers (edge : V → V → K → Prop) (start : V) (r : DijkstraResult K V) : Prop where
  scores_iff : ∀ v d, r.scores.lookup v = some d ↔ IsDist edge start v d
  agree : Agree edge start r

/-- With rounds enough for the heap and the edges left, the loop ends with the answer. -/
theorem search_spec (hpos : ∀ e, 0 ≤ edge_cost e) (hstart : start ∈ g.nodes) :
    ∀ (fuel : Nat) (st : Search K V Q.Heap), SearchInv g edge_cost start st →
      (Q.items st.visit_next).card + edgesLeft g st.visited < fuel →
      ∃ r, Answers (g.edge edge_cost) start r ∧ ∀ fuel', fuel ≤ fuel' → search Q g edge_cost start fuel' st = some r
  | 0, _, _, hfuel => absurd hfuel (Nat.not_lt_zero _)
  | fuel + 1, st, h, hfuel => by
    have hlater : ∀ {p : Nat → Prop}, (∀ k, fuel ≤ k → p (k + 1)) → ∀ k, fuel + 1 ≤ k → p k := by
      intro p hp k hk
      obtain ⟨m, rfl⟩ : ∃ m, k = m + 1 := ⟨k - 1, by omega⟩
      exact hp m (by omega)
    cases hpop : Q.pop st.visit_next with
    | none =>
      have hempty := Q.pop_none _ hpop
      have hdone : ∀ v d, st.scores.lookup v = some d → v ∈ st.visited := by
        intro v d hd
        by_contra hv
        have hmem := h.queued.pending v d hv hd
        rw [hempty] at hmem
        exact absurd hmem (Multiset.notMem_zero _)
      refine ⟨st.toDijkstraResult, ⟨fun v d => h.labels.label_iff hdone, h.agree⟩, hlater ?_⟩
      intro k _
      rw [search, hpop]
    | some popped =>
      obtain ⟨⟨d, node⟩, rest⟩ := popped
      obtain ⟨hitems, -⟩ := Q.pop_some _ _ _ hpop
      have hcard : (Q.items st.visit_next).card = (Q.items rest).card + 1 := by rw [hitems, Multiset.card_cons]
      by_cases hv : node ∈ st.visited
      · obtain ⟨r, hr, hrun⟩ := search_spec hpos hstart fuel { st with visit_next := rest } (searchInv_skip h hpop hv)
          (by show (Q.items rest).card + edgesLeft g st.visited < fuel; omega)
        refine ⟨r, hr, hlater ?_⟩
        intro k hk
        rw [search, hpop]
        simp only [if_pos hv]
        exact hrun k hk
      · obtain ⟨hnode, -⟩ := popped_least h.queued hpop hv
        obtain ⟨st', hscan, hs, ha⟩ := scan_spec hpos (g.edges node)
          { st with visit_next := rest } (fun e he => he) h.agree hnode
        -- a node that has a score is a node of the graph
        obtain ⟨m, hm⟩ := h.labels.attained node d hnode
        have hin : node ∈ g.nodes := by
          refine hm.mem ?_ hstart
          rintro u v w ⟨x, hx, rfl, -⟩ _
          exact g.closed u x hx
        have hleft := edgesLeft_cons hin hv
        have hpushes := hs.pushes
        have hvisited : st'.visited = st.visited := hs.visited
        obtain ⟨r, hr, hrun⟩ := search_spec hpos hstart fuel { st' with visited := node :: st'.visited }
          (searchInv_settle hpos h hpop hv hs ha) (by
            show (Q.items st'.visit_next).card + edgesLeft g (node :: st'.visited) < fuel
            rw [hvisited]
            have : (Q.items st'.visit_next).card ≤ (Q.items rest).card + (g.edges node).length := hpushes
            omega)
        refine ⟨r, hr, hlater ?_⟩
        intro k hk
        rw [search, hpop]
        simp only [if_neg hv, hscan]
        exact hrun k hk

/-- The rounds of the model are enough, and more do not change the result. -/
theorem dijkstra_answers (Q : BinaryHeap K V) (g : IntoEdges V E) (start : V) (edge_cost : EdgeRef V E → K)
    (hpos : ∀ e, 0 ≤ edge_cost e) (hstart : start ∈ g.nodes) :
    ∃ r, Answers (g.edge edge_cost) start r ∧
      ∀ rounds, g.rounds ≤ rounds → search Q g edge_cost start rounds (Search.first Q start) = some r := by
  refine search_spec hpos hstart g.rounds (Search.first Q start) searchInv_first ?_
  have hitems : Q.items (Search.first Q start).visit_next = {(0, start)} := by
    rw [Search.first, Q.items_push, Q.items_new]
    rfl
  have hleft : edgesLeft g (Search.first Q start).visited = (g.nodes.flatMap g.edges).length := by
    rw [edgesLeft, List.filter_eq_self.mpr]
    intro v _
    exact decide_eq_true List.not_mem_nil
  rw [hitems, hleft, Multiset.card_singleton, IntoEdges.rounds]
  omega

/-- The search ends, whatever heap it runs on and however many rounds it is given beyond
the edges of the graph. Its scores are the distances, and a node other than the source
has the first hop and the length of one of its least walks. -/
theorem dijkstra_with_first_hop_least (Q : BinaryHeap K V) (g : IntoEdges V E) (start : V)
    (edge_cost : EdgeRef V E → K) (hpos : ∀ e, 0 ≤ edge_cost e) (hstart : start ∈ g.nodes) :
    ∃ r, dijkstra_with_first_hop Q g start edge_cost = some r ∧
      (∀ rounds, g.rounds ≤ rounds → search Q g edge_cost start rounds (Search.first Q start) = some r) ∧
      (∀ v d, r.scores.lookup v = some d ↔ IsDist (g.edge edge_cost) start v d) ∧
      r.first_hop.lookup start = some (start, 0) ∧
      (∀ v d, v ≠ start → IsDist (g.edge edge_cost) start v d →
        ∃ h n, r.first_hop.lookup v = some (h, n) ∧ Via (g.edge edge_cost) start h v n d) ∧
      ∀ v, (∀ n c, ¬ Walk (g.edge edge_cost) start v n c) → r.first_hop.lookup v = none := by
  obtain ⟨r, hr, hrun⟩ := dijkstra_answers Q g start edge_cost hpos hstart
  refine ⟨r, hrun _ le_rfl, hrun, hr.scores_iff, ?_, ?_, ?_⟩
  · have hhop := hr.agree.hops start 0 hr.agree.source
    cases hlook : r.first_hop.lookup start with
    | none =>
      rw [hlook] at hhop
      exact hhop.elim
    | some hop =>
      rw [hlook] at hhop
      rcases hhop with ⟨-, -, hh, hn⟩ | ⟨h, -⟩
      · rw [← hh, ← hn]
      · exact absurd rfl h
  · intro v d hv hd
    have hhop := hr.agree.hops v d ((hr.scores_iff v d).mpr hd)
    cases hlook : r.first_hop.lookup v with
    | none =>
      rw [hlook] at hhop
      exact hhop.elim
    | some hop =>
      rw [hlook] at hhop
      rcases hhop with ⟨h, -⟩ | ⟨-, hvia⟩
      · exact absurd h hv
      · exact ⟨hop.1, hop.2, rfl, hvia⟩
  · intro v hv
    refine hr.agree.absent v ?_
    cases hlook : r.scores.lookup v with
    | none => rfl
    | some d =>
      obtain ⟨n, hn⟩ := ((hr.scores_iff v d).mp hlook).attained
      exact absurd hn (hv n d)

end Algorithm

/-- The edges of the source's test, its nodes a to e by index. -/
def testEdges : List (EdgeRef Nat Nat) := [⟨0, 1, 1⟩, ⟨0, 2, 2⟩, ⟨1, 3, 1⟩, ⟨2, 3, 3⟩, ⟨3, 4, 1⟩]

theorem testEdges_within : ∀ e ∈ testEdges, e.source < 5 ∧ e.target < 5 := by decide

def testGraph : IntoEdges Nat Nat :=
  (listGraphs Char Nat).view ⟨['a', 'b', 'c', 'd', 'e'], testEdges, testEdges_within⟩

theorem dijkstra_of_test : ∃ r, dijkstra_with_first_hop (sortedHeap Nat Nat) testGraph 0 (fun e => e.weight) = some r ∧
    r.first_hop.lookup 0 = some (0, 0) := by
  obtain ⟨r, hr, -, -, hstart, -⟩ := dijkstra_with_first_hop_least (sortedHeap Nat Nat) testGraph 0 (fun e => e.weight)
    (fun _ => Nat.zero_le _) (by decide)
  exact ⟨r, hr, hstart⟩

example : (dijkstra_with_first_hop (sortedHeap Nat Nat) testGraph 0 (fun e => e.weight)).map
    (fun r => (r.scores.lookup 4, r.first_hop.lookup 4)) = some (some 3, some (1, 3)) := by decide

end EasyTierHost.Peers
