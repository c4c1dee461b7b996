import Mathlib.Algebra.Order.Monoid.Unbundled.Basic
import Mathlib.Algebra.Order.Monoid.Defs

/- Walks in a weighted graph given by its edges, distances as the least weight of a
   walk, and what a label-setting search has to keep so that its labels are distances
   when it ends. Weights are of any ordered commutative monoid. The last part is about
   forwarding: nodes that each send on to a first hop of one of their shortest walks
   move a message to its destination. -/
namespace Graphs

variable {V K : Type}

section Walks
variable [AddCommMonoid K]

/-- A walk from `s`, with its number of edges and its weight. -/
inductive Walk (edge : V → V → K → Prop) (s : V) : V → Nat → K → Prop
  | nil : Walk edge s s 0 0
  | snoc {u v : V} {n : Nat} {c w : K} : Walk edge s u n c → edge u v w → Walk edge s v (n + 1) (c + w)

/-- A walk from `s` whose first edge goes to `h`. -/
inductive Via (edge : V → V → K → Prop) (s h : V) : V → Nat → K → Prop
  | first {w : K} : edge s h w → Via edge s h h 1 w
  | snoc {u v : V} {n : Nat} {c w : K} : Via edge s h u n c → edge u v w → Via edge s h v (n + 1) (c + w)

variable {edge : V → V → K → Prop} {s h v : V} {n : Nat} {c : K}

theorem Via.walk (hv : Via edge s h v n c) : Walk edge s v n c := by
  induction hv with
  | @first w he =>
    have hone : Walk edge s h (0 + 1) (0 + w) := Walk.snoc Walk.nil he
    rwa [zero_add w] at hone
  | snoc _ he ih => exact ih.snoc he

/-- A walk of at least one edge has a first hop. -/
theorem Walk.via (hw : Walk edge s v n c) : n ≠ 0 → ∃ h, Via edge s h v n c := by
  induction hw with
  | nil => exact fun h => absurd rfl h
  | @snoc u v n c w hw he ih =>
    intro _
    cases hw with
    | nil =>
      rw [zero_add w]
      exact ⟨v, Via.first he⟩
    | snoc hw' he' =>
      obtain ⟨h, hh⟩ := ih (Nat.succ_ne_zero _)
      exact ⟨h, hh.snoc he⟩

/-- What is left of a walk behind its first edge. -/
theorem Via.tail (hv : Via edge s h v n c) : ∃ m d w, n = m + 1 ∧ edge s h w ∧ Walk edge h v m d ∧ c = w + d := by
  induction hv with
  | @first w he => exact ⟨0, 0, w, rfl, he, Walk.nil, (add_zero w).symm⟩
  | @snoc u v n c w' _ he ih =>
    obtain ⟨m, d, w, hn, hfirst, hrest, hc⟩ := ih
    exact ⟨m + 1, d + w', w, by rw [hn], hfirst, hrest.snoc he, by rw [hc, add_assoc w d w']⟩

theorem Walk.cons {u : V} {w : K} (he : edge u s w) (hw : Walk edge s v n c) : Walk edge u v (n + 1) (w + c) := by
  induction hw with
  | nil =>
    have hone : Walk edge u s (0 + 1) (0 + w) := Walk.snoc Walk.nil he
    rw [zero_add w] at hone
    rwa [add_zero w]
  | @snoc x y n c w' _ he' ih =>
    rw [← add_assoc w c w']
    exact ih.snoc he'

theorem Walk.mono {edge' : V → V → K → Prop} (h : ∀ u v w, edge u v w → edge' u v w) (hw : Walk edge s v n c) :
    Walk edge' s v n c := by
  induction hw with
  | nil => exact Walk.nil
  | snoc _ he ih => exact ih.snoc (h _ _ _ he)

/-- A walk among other weights of the same edges. -/
theorem Walk.reweigh {K' : Type} [AddCommMonoid K'] {edge' : V → V → K' → Prop}
    (h : ∀ u v w, edge u v w → ∃ w', edge' u v w') (hw : Walk edge s v n c) : ∃ c', Walk edge' s v n c' := by
  induction hw with
  | nil => exact ⟨0, Walk.nil⟩
  | snoc _ he ih =>
    obtain ⟨a, ha⟩ := ih
    obtain ⟨b, hb⟩ := h _ _ _ he
    exact ⟨a + b, ha.snoc hb⟩

/-- A set that the edges do not leave holds what a walk from it reaches. -/
theorem Walk.mem {p : V → Prop} (hp : ∀ u v w, edge u v w → p u → p v) (hw : Walk edge s v n c) (hs : p s) : p v := by
  induction hw with
  | nil => exact hs
  | snoc _ he ih => exact hp _ _ _ he ih

/-! ## Distances -/

/-- The least weight of a walk. -/
structure IsDist [LE K] (edge : V → V → K → Prop) (s v : V) (d : K) : Prop where
  attained : ∃ n, Walk edge s v n d
  least : ∀ n c, Walk edge s v n c → d ≤ c

/-- A first hop of a least walk and its length; for the source, itself and no edge. -/
def Shortest [LE K] (edge : V → V → K → Prop) (s v h : V) (n : Nat) (d : K) : Prop :=
  (v = s ∧ h = s ∧ n = 0 ∧ d = 0) ∨ (v ≠ s ∧ Via edge s h v n d ∧ IsDist edge s v d)

end Walks

/-! ## Two names for one graph -/

/-- The nodes of two graphs stand for each other, and so do their edges. -/
structure Matching {V' : Type} (rel : V → V' → Prop) (edge : V → V → K → Prop) (edge' : V' → V' → K → Prop) : Prop where
  right : ∀ v a b, rel v a → rel v b → a = b
  left : ∀ a u v, rel u a → rel v a → u = v
  forth : ∀ u v w a, edge u v w → rel u a → ∃ b, rel v b ∧ edge' a b w
  back : ∀ a b w u, edge' a b w → rel u a → ∃ v, rel v b ∧ edge u v w

namespace Matching
variable {V' : Type} {rel : V → V' → Prop} {edge : V → V → K → Prop} {edge' : V' → V' → K → Prop}

theorem symm (m : Matching rel edge edge') : Matching (fun a v => rel v a) edge' edge where
  right := m.left
  left := m.right
  forth := m.back
  back := m.forth

variable [AddCommMonoid K] {s h v : V} {a : V'} {n : Nat} {c : K}

theorem walk (m : Matching rel edge edge') (hs : rel s a) (hw : Walk edge s v n c) :
    ∃ b, rel v b ∧ Walk edge' a b n c := by
  induction hw with
  | nil => exact ⟨a, hs, Walk.nil⟩
  | snoc _ he ih =>
    obtain ⟨b, hb, hwalk⟩ := ih
    obtain ⟨b', hb', hedge⟩ := m.forth _ _ _ b he hb
    exact ⟨b', hb', hwalk.snoc hedge⟩

theorem via (m : Matching rel edge edge') (hs : rel s a) (hv : Via edge s h v n c) :
    ∃ k b, rel h k ∧ rel v b ∧ Via edge' a k b n c := by
  induction hv with
  | first he =>
    obtain ⟨b, hb, hedge⟩ := m.forth _ _ _ a he hs
    exact ⟨b, b, hb, hb, Via.first hedge⟩
  | snoc _ he ih =>
    obtain ⟨k, b, hk, hb, hvia⟩ := ih
    obtain ⟨b', hb', hedge⟩ := m.forth _ _ _ b he hb
    exact ⟨k, b', hk, hb', hvia.snoc hedge⟩

theorem isDist [LE K] (m : Matching rel edge edge') (hs : rel s a) {b : V'} (hv : rel v b) :
    IsDist edge s v c → IsDist edge' a b c := by
  rintro ⟨⟨n, hn⟩, hleast⟩
  constructor
  · obtain ⟨b', hb', hwalk⟩ := m.walk hs hn
    rw [m.right v b b' hv hb']
    exact ⟨n, hwalk⟩
  · intro k d hd
    obtain ⟨v', hv', hwalk⟩ := m.symm.walk hs hd
    rw [m.left b v' v hv' hv] at hwalk
    exact hleast k d hwalk

theorem shortest [LE K] (m : Matching rel edge edge') (hs : rel s a) {b k : V'} (hv : rel v b) (hh : rel h k)
    (hsh : Shortest edge s v h n c) : Shortest edge' a b k n c := by
  rcases hsh with ⟨hvs, hhs, hn, hc⟩ | ⟨hne, hvia, hdist⟩
  · rw [hvs] at hv
    rw [hhs] at hh
    exact Or.inl ⟨m.right s b a hv hs, m.right s k a hh hs, hn, hc⟩
  · obtain ⟨k', b', hk', hb', hvia'⟩ := m.via hs hvia
    rw [m.right v b' b hb' hv, m.right h k' k hk' hh] at hvia'
    refine Or.inr ⟨?_, hvia', m.isDist hs hv hdist⟩
    rintro rfl
    exact hne (m.left b v s hv hs)

end Matching

section Ordered
variable [AddCommMonoid K] [LinearOrder K] {edge : V → V → K → Prop} {s h v : V}

theorem IsDist.unique {d d' : K} (hd : IsDist edge s v d) (hd' : IsDist edge s v d') : d = d' := by
  obtain ⟨n, hn⟩ := hd.attained
  obtain ⟨n', hn'⟩ := hd'.attained
  exact le_antisymm (hd.least n' d' hn') (hd'.least n d hn)

/-- Where weights are well-founded, what a walk reaches has a distance. -/
theorem exists_isDist [WellFoundedLT K] {n : Nat} {c : K} (hw : Walk edge s v n c) : ∃ d, IsDist edge s v d := by
  induction c using WellFoundedLT.induction generalizing n with
  | ind c ih =>
    by_cases hleast : ∀ k d, Walk edge s v k d → c ≤ d
    · exact ⟨c, ⟨n, hw⟩, hleast⟩
    · obtain ⟨k, hk⟩ := not_forall.mp hleast
      obtain ⟨d, hd⟩ := not_forall.mp hk
      obtain ⟨hwalk, hlt⟩ := Classical.not_imp.mp hd
      exact ih d (not_le.mp hlt) hwalk

theorem Walk.nonneg [IsOrderedAddMonoid K] (hpos : ∀ u v w, edge u v w → 0 ≤ w) {n : Nat} {c : K} (hw : Walk edge s v n c) : 0 ≤ c := by
  induction hw with
  | nil => exact le_rfl
  | snoc _ he ih => exact add_nonneg ih (hpos _ _ _ he)

/-! ## Label setting -/

/-- What a label-setting search keeps: labels are weights of walks, the edges out of
settled nodes are accounted for, and nothing unsettled lies below what is settled. -/
structure LabelSetting (edge : V → V → K → Prop) (s : V) (label : V → Option K) (settled : V → Prop) : Prop where
  source : label s = some 0
  attained : ∀ v d, label v = some d → ∃ n, Walk edge s v n d
  labelled : ∀ u, settled u → ∃ d, label u = some d
  relaxed : ∀ u v d w, settled u → edge u v w → label u = some d → ∃ e, label v = some e ∧ e ≤ d + w
  ordered : ∀ u v d e, settled u → ¬ settled v → label u = some d → label v = some e → d ≤ e

/-- The labels after the edges out of `u`, itself at `d`, have been looked at. -/
structure Relaxation (edge : V → V → K → Prop) (settled : V → Prop) (u : V) (d : K) (label label' : V → Option K) :
    Prop where
  kept : ∀ v, settled v → label' v = label v
  lowered : ∀ v e, label v = some e → ∃ e', label' v = some e' ∧ e' ≤ e
  origin : ∀ v e, label' v = some e → label v = some e ∨ ∃ w, edge u v w ∧ e = d + w
  reached : ∀ v w, edge u v w → ¬ settled v → ∃ e, label' v = some e ∧ e ≤ d + w

/-- A label that no edge can lower stays. -/
theorem Relaxation.stays {settled : V → Prop} {u : V} {d : K} {label label' : V → Option K}
    (hr : Relaxation edge settled u d label label') {x : V} {b : K} (hx : label x = some b)
    (hle : ∀ w, edge u x w → b ≤ d + w) : label' x = some b := by
  obtain ⟨e, he, heb⟩ := hr.lowered x b hx
  rcases hr.origin x e he with hold | ⟨w, hw, hew⟩
  · rw [he, ← hold, hx]
  · have hbe : b ≤ e := by
      rw [hew]
      exact hle w hw
    rw [he, le_antisymm heb hbe]

namespace LabelSetting
variable {label label' : V → Option K} {settled : V → Prop}

/-- Before anything is settled, only the source is labelled. -/
theorem start (hs : label s = some 0) (hothers : ∀ v, v ≠ s → label v = none) (hnone : ∀ v, ¬ settled v) :
    LabelSetting edge s label settled := by
  constructor
  · exact hs
  · intro v d hd
    by_cases hv : v = s
    · subst hv
      rw [hs] at hd
      cases hd
      exact ⟨0, Walk.nil⟩
    · rw [hothers v hv] at hd
      cases hd
  · exact fun u hu => absurd hu (hnone u)
  · exact fun u _ _ _ hu => absurd hu (hnone u)
  · exact fun u _ _ _ hu => absurd hu (hnone u)

variable [IsOrderedAddMonoid K]

/-- Settling a node with the least label among the unsettled ones. -/
theorem settle (hl : LabelSetting edge s label settled) (hpos : ∀ u v w, edge u v w → 0 ≤ w) {u : V} {d : K}
    (hu : label u = some d) (hnew : ¬ settled u) (hleast : ∀ v e, ¬ settled v → label v = some e → d ≤ e)
    (hr : Relaxation edge settled u d label label') :
    LabelSetting edge s label' (fun v => settled v ∨ v = u) := by
  obtain ⟨m, hm⟩ := hl.attained u d hu
  have hself : label' u = some d := hr.stays hu (fun w hw => le_add_of_nonneg_right (hpos _ _ _ hw))
  constructor
  · exact hr.stays hl.source (fun w hw => add_nonneg (hm.nonneg hpos) (hpos _ _ _ hw))
  · intro v e he
    rcases hr.origin v e he with hold | ⟨w, hw, hew⟩
    · exact hl.attained v e hold
    · rw [hew]
      exact ⟨m + 1, hm.snoc hw⟩
  · intro x hx
    rcases hx with hx | rfl
    · rw [hr.kept x hx]
      exact hl.labelled x hx
    · exact ⟨d, hself⟩
  · intro x v a w hx hw ha
    rcases hx with hx | rfl
    · rw [hr.kept x hx] at ha
      obtain ⟨b, hb, hab⟩ := hl.relaxed x v a w hx hw ha
      obtain ⟨b', hb', hle⟩ := hr.lowered v b hb
      exact ⟨b', hb', hle.trans hab⟩
    · obtain rfl : d = a := by rwa [hself, Option.some.injEq] at ha
      by_cases hv : settled v
      · -- what was settled before lies below what is settled now
        obtain ⟨b, hb⟩ := hl.labelled v hv
        have hbd := hl.ordered v x b d hv hnew hb hu
        exact ⟨b, by rw [hr.kept v hv, hb], hbd.trans (le_add_of_nonneg_right (hpos _ _ _ hw))⟩
      · exact hr.reached v w hw hv
  · intro x v a b hx hv ha hb
    have hvold : ¬ settled v := fun h => hv (Or.inl h)
    have had : a ≤ d := by
      rcases hx with hx | rfl
      · rw [hr.kept x hx] at ha
        exact hl.ordered x u a d hx hnew ha hu
      · rw [hself, Option.some.injEq] at ha
        exact ha.ge
    refine had.trans ?_
    rcases hr.origin v b hb with hold | ⟨w, hw, hbw⟩
    · exact hleast v b hvold hold
    · rw [hbw]
      exact le_add_of_nonneg_right (hpos _ _ _ hw)

/-- When all that is labelled is settled, a walk does not go below the labels. -/
theorem below (hl : LabelSetting edge s label settled) (hdone : ∀ v d, label v = some d → settled v)
    {n : Nat} {c : K} (hw : Walk edge s v n c) : ∃ d, label v = some d ∧ d ≤ c := by
  induction hw with
  | nil => exact ⟨0, hl.source, le_rfl⟩
  | @snoc u v n c w _ he ih =>
    obtain ⟨d, hd, hdc⟩ := ih
    obtain ⟨e, hve, hle⟩ := hl.relaxed u v d w (hdone u d hd) he hd
    exact ⟨e, hve, hle.trans (add_le_add_left hdc w)⟩

/-- Then the labels are the distances. -/
theorem label_iff (hl : LabelSetting edge s label settled) (hdone : ∀ v d, label v = some d → settled v) {d : K} :
    label v = some d ↔ IsDist edge s v d := by
  have hdist : ∀ e, label v = some e → IsDist edge s v e := by
    intro e he
    refine ⟨hl.attained v e he, ?_⟩
    intro n c hw
    obtain ⟨e', he', hle⟩ := hl.below hdone hw
    rw [he, Option.some.injEq] at he'
    rwa [he']
  constructor
  · exact hdist d
  · intro hd
    obtain ⟨n, hn⟩ := hd.attained
    obtain ⟨e, he, _⟩ := hl.below hdone hn
    rw [he, (hdist e he).unique hd]

end LabelSetting

/-! ## Forwarding -/

/-- A first hop of a least walk is the edge's weight nearer to its end. -/
theorem Via.closer [IsOrderedAddMonoid K] [IsCancelAdd K] {t : V} {n : Nat} {d : K} (hv : Via edge s h t n d) (hd : IsDist edge s t d) :
    ∃ w e, edge s h w ∧ IsDist edge h t e ∧ d = w + e := by
  obtain ⟨m, e, w, -, hw, hrest, hdw⟩ := hv.tail
  refine ⟨w, e, hw, ⟨⟨m, hrest⟩, ?_⟩, hdw⟩
  intro k c hk
  have hle := hd.least _ _ (hk.cons hw)
  rw [hdw] at hle
  exact le_of_add_le_add_left hle

end Ordered

/-- The nodes a message from `u` passes, when each sends on to its `next`, until `t`. -/
inductive Trail (next : V → Option V) (t : V) : V → List V → Prop
  | here : Trail next t t []
  | hop {u h : V} {l : List V} : u ≠ t → next u = some h → Trail next t h l → Trail next t u (h :: l)

section Forwarding
variable [AddCommMonoid K] [LinearOrder K] [IsOrderedAddMonoid K] [IsCancelAdd K] [WellFoundedLT K]
  {edge : V → V → K → Prop} {t : V}

/-- Nodes that send on to a first hop of a least walk deliver, along a least walk
that passes no node twice. -/
theorem trail_of_first_hops (hpos : ∀ u v w, edge u v w → 0 < w) {next : V → Option V}
    (hnext : ∀ u d, u ≠ t → IsDist edge u t d → ∃ h n, next u = some h ∧ Via edge u h t n d) (d : K) :
    ∀ u, IsDist edge u t d → ∃ l, Trail next t u l ∧ (u :: l).Nodup ∧ Walk edge u t l.length d ∧
      ∀ v ∈ l, ∃ e, IsDist edge v t e ∧ e < d := by
  -- the distance left goes down with every hop
  induction d using WellFoundedLT.induction with
  | ind d ih =>
    intro u hu
    by_cases hut : u = t
    · subst hut
      have hzero : d = 0 := by
        have hle := hu.least 0 0 Walk.nil
        obtain ⟨n, hn⟩ := hu.attained
        exact le_antisymm hle (hn.nonneg (fun _ _ _ he => (hpos _ _ _ he).le))
      rw [hzero]
      exact ⟨[], Trail.here, by simp, Walk.nil, by simp⟩
    · obtain ⟨h, n, hh, hvia⟩ := hnext u d hut hu
      obtain ⟨w, e, hw, he, hde⟩ := hvia.closer hu
      have hlt : e < d := by
        rw [hde]
        exact lt_add_of_pos_left e (hpos _ _ _ hw)
      obtain ⟨l, hl, hnodup, hwalk, hbelow⟩ := ih e hlt h he
      have hall : ∀ v ∈ h :: l, ∃ e', IsDist edge v t e' ∧ e' < d := by
        intro v hv
        rcases List.mem_cons.mp hv with rfl | hv
        · exact ⟨e, he, hlt⟩
        · obtain ⟨e', he', hlt'⟩ := hbelow v hv
          exact ⟨e', he', hlt'.trans hlt⟩
      refine ⟨h :: l, Trail.hop hut hh hl, ?_, ?_, hall⟩
      · refine List.nodup_cons.mpr ⟨?_, hnodup⟩
        intro hmem
        obtain ⟨e', he', hlt'⟩ := hall u hmem
        exact absurd (he'.unique hu) hlt'.ne
      · rw [hde]
        exact hwalk.cons hw

end Forwarding

end Graphs
