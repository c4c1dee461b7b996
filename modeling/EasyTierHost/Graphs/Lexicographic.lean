import EasyTierHost.Graphs.Walks
import Mathlib.Algebra.Order.Monoid.Prod
import Mathlib.Data.Prod.Lex

/- Least in a first weight and, among those, least in a second. A search by the first
   weight leaves the edges that lie on its least walks; a search of that subgraph by
   the second weight finds the distances in the lexicographic order of the two. -/
namespace Graphs

variable {V H K : Type}

/-- The edges by their first weight. -/
def firstEdge (f : K → H) (edge : V → V → K → Prop) (u v : V) (x : H) : Prop := ∃ w, edge u v w ∧ f w = x

/-- The edges by both. -/
def bothEdge (f : K → H) (edge : V → V → K → Prop) (u v : V) (x : H ×ₗ K) : Prop :=
  ∃ w, edge u v w ∧ toLex (f w, w) = x

/-- The edges on least walks by the first weight, with their second weight. -/
def tightEdge [Add H] (f : K → H) (edge : V → V → K → Prop) (dist : V → Option H) (u v : V) (w : K) : Prop :=
  edge u v w ∧ ∃ a b, dist u = some a ∧ dist v = some b ∧ a + f w = b

/-- Nodes that stand for each other do so under both weights. -/
theorem Matching.both {V' : Type} {rel : V → V' → Prop} {edge : V → V → K → Prop} {edge' : V' → V' → K → Prop}
    (m : Matching rel edge edge') (f : K → H) : Matching rel (bothEdge f edge) (bothEdge f edge') where
  right := m.right
  left := m.left
  forth := fun u v x a ⟨w, he, hx⟩ ha => by
    obtain ⟨b, hb, he'⟩ := m.forth u v w a he ha
    exact ⟨b, hb, w, he', hx⟩
  back := fun a b x u ⟨w, he, hx⟩ ha => by
    obtain ⟨v, hv, he'⟩ := m.back a b w u he ha
    exact ⟨v, hv, w, he', hx⟩

section Lexicographic
variable [AddCommMonoid H] [AddCommMonoid K] {f : K → H} {edge : V → V → K → Prop} {s h v : V} {n : Nat}

theorem Walk.first {p : H ×ₗ K} (hw : Walk (bothEdge f edge) s v n p) : Walk (firstEdge f edge) s v n (ofLex p).1 := by
  induction hw with
  | nil => exact Walk.nil
  | snoc _ he ih =>
    obtain ⟨w, hw, rfl⟩ := he
    exact ih.snoc ⟨w, hw, rfl⟩

theorem Walk.both {a : H} (hw : Walk (firstEdge f edge) s v n a) :
    ∃ c, Walk (bothEdge f edge) s v n (toLex (a, c)) := by
  induction hw with
  | nil => exact ⟨0, Walk.nil⟩
  | snoc _ he ih =>
    obtain ⟨w, hw, rfl⟩ := he
    obtain ⟨c, hc⟩ := ih
    exact ⟨c + w, hc.snoc ⟨w, hw, rfl⟩⟩

/-- A walk has a weight of the first kind too. -/
theorem Walk.weighed (f : K → H) {c : K} (hw : Walk edge s v n c) : ∃ a, Walk (bothEdge f edge) s v n (toLex (a, c)) := by
  induction hw with
  | nil => exact ⟨0, Walk.nil⟩
  | @snoc u v n c w _ he ih =>
    obtain ⟨a, ha⟩ := ih
    exact ⟨a + f w, ha.snoc ⟨w, he, rfl⟩⟩

variable {dist : V → Option H}

/-- A walk of tight edges is least in the first weight. -/
theorem Walk.of_tight (hs : dist s = some 0) {c : K} (hw : Walk (tightEdge f edge dist) s v n c) :
    ∃ a, dist v = some a ∧ Walk (bothEdge f edge) s v n (toLex (a, c)) := by
  induction hw with
  | nil => exact ⟨0, hs, Walk.nil⟩
  | snoc _ he ih =>
    obtain ⟨a, ha, hwalk⟩ := ih
    obtain ⟨hedge, a', b, ha', hb, hab⟩ := he
    rw [ha, Option.some.injEq] at ha'
    subst ha'
    exact ⟨b, hb, by rw [← hab]; exact hwalk.snoc ⟨_, hedge, rfl⟩⟩

theorem Via.of_tight (hs : dist s = some 0) {c : K} (hv : Via (tightEdge f edge dist) s h v n c) :
    ∃ a, dist v = some a ∧ Via (bothEdge f edge) s h v n (toLex (a, c)) := by
  induction hv with
  | @first w he =>
    obtain ⟨hedge, a, b, ha, hb, hab⟩ := he
    rw [hs, Option.some.injEq] at ha
    subst ha
    rw [zero_add (f w)] at hab
    exact ⟨b, hb, by rw [← hab]; exact Via.first ⟨_, hedge, rfl⟩⟩
  | snoc _ he ih =>
    obtain ⟨a, ha, hvia⟩ := ih
    obtain ⟨hedge, a', b, ha', hb, hab⟩ := he
    rw [ha, Option.some.injEq] at ha'
    subst ha'
    exact ⟨b, hb, by rw [← hab]; exact hvia.snoc ⟨_, hedge, rfl⟩⟩

variable [LinearOrder H] [IsOrderedAddMonoid H] [IsCancelAdd H]

/-- A walk that is least in the first weight has tight edges only. -/
theorem Walk.tight (hdist : ∀ v a, dist v = some a ↔ IsDist (firstEdge f edge) s v a) {p : H ×ₗ K}
    (hw : Walk (bothEdge f edge) s v n p) (hleast : IsDist (firstEdge f edge) s v (ofLex p).1) :
    Walk (tightEdge f edge dist) s v n (ofLex p).2 := by
  induction hw with
  | nil => exact Walk.nil
  | @snoc u v n p x hw he ih =>
    obtain ⟨w, hw', rfl⟩ := he
    -- what comes before the last edge cannot be shortened either
    have hbefore : IsDist (firstEdge f edge) s u (ofLex p).1 := by
      refine ⟨⟨n, hw.first⟩, ?_⟩
      intro k c hc
      have hle := hleast.least _ _ (hc.snoc ⟨w, hw', rfl⟩)
      exact le_of_add_le_add_right hle
    exact (ih hbefore).snoc ⟨hw', _, _, (hdist _ _).mpr hbefore, (hdist _ _).mpr hleast, rfl⟩

variable [LinearOrder K]

/-- The two searches find the lexicographic distance. -/
theorem isDist_both_iff (hdist : ∀ v a, dist v = some a ↔ IsDist (firstEdge f edge) s v a) (hs : dist s = some 0)
    {a : H} {c : K} :
    IsDist (bothEdge f edge) s v (toLex (a, c)) ↔
      IsDist (firstEdge f edge) s v a ∧ IsDist (tightEdge f edge dist) s v c := by
  constructor
  · intro h
    obtain ⟨n, hn⟩ := h.attained
    have hfirst : IsDist (firstEdge f edge) s v a := by
      refine ⟨⟨n, hn.first⟩, ?_⟩
      intro k b hb
      obtain ⟨d, hd⟩ := hb.both
      rcases Prod.Lex.toLex_le_toLex.mp (h.least _ _ hd) with hlt | ⟨heq, -⟩
      · exact le_of_lt hlt
      · exact le_of_eq heq
    refine ⟨hfirst, ⟨n, Walk.tight hdist hn hfirst⟩, ?_⟩
    intro k d hd
    obtain ⟨b, hb, hboth⟩ := Walk.of_tight hs hd
    have hab : b = a := ((hdist v b).mp hb).unique hfirst
    rw [hab] at hboth
    rcases Prod.Lex.toLex_le_toLex.mp (h.least _ _ hboth) with hlt | ⟨-, hle⟩
    · exact absurd hlt (lt_irrefl a)
    · exact hle
  · rintro ⟨hfirst, hsecond⟩
    obtain ⟨n, hn⟩ := hsecond.attained
    obtain ⟨b, hb, hboth⟩ := Walk.of_tight hs hn
    have hab : b = a := ((hdist v b).mp hb).unique hfirst
    rw [hab] at hboth
    refine ⟨⟨n, hboth⟩, ?_⟩
    intro k p hp
    refine Prod.Lex.toLex_le_toLex.mpr ?_
    have hle : a ≤ (ofLex p).1 := hfirst.least _ _ hp.first
    rcases hle.lt_or_eq with hlt | heq
    · exact Or.inl hlt
    · rw [heq] at hfirst
      exact Or.inr ⟨heq, hsecond.least _ _ (Walk.tight hdist hp hfirst)⟩

end Lexicographic

end Graphs
