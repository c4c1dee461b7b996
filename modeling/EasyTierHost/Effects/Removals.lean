import EasyTierHost.Effects.Runs
import Mathlib.Data.Set.Basic
import Mathlib.Data.List.Nodup

/- Runs that only take things away. Part of the world is a collection (`view`); an
   effect may carry the name of a thing (`label`), and then it takes that thing out
   or has no effect, and nothing else changes the collection. Where the names come
   in a known order, each at most once, the order in which things leave is known
   too: one thing outlasts another exactly when it is never taken out, or the other
   is taken out and stands before it (`Depletes.outlasts_iff`).

   `Depleting` says of a program that all its runs are such runs, and has one rule for
   each way of putting programs together. -/
namespace Effects
open Prog

variable {E R W ε α β ρ : Type}

/-! ## Runs -/

/-- From `w` to `w'` along `t`, things are only taken out of the collection, each by
an effect with its name. -/
inductive Depletes (view : W → Set ρ) (label : E → Option ρ) : W → List (Moment E W) → W → Prop where
  | done {w w' : W} (h : view w' = view w) : Depletes view label w [] w'
  | keep {w w' : W} {m : Moment E W} {t : List (Moment E W)} (hbefore : view m.before = view w)
      (hafter : view m.after = view w) (ht : Depletes view label m.after t w') :
      Depletes view label w (m :: t) w'
  | take {w w' : W} {m : Moment E W} {t : List (Moment E W)} {r : ρ} (hlabel : label m.event = some r)
      (hbefore : view m.before = view w) (hafter : view m.after = view w \ {r})
      (ht : Depletes view label m.after t w') : Depletes view label w (m :: t) w'

/-- The names along a run, in order. -/
def labels (label : E → Option ρ) (t : List (Moment E W)) : List ρ :=
  t.filterMap (fun m => label m.event)

/-- An effect with the name `r` takes effect. -/
def TakenOut (view : W → Set ρ) (label : E → Option ρ) (r : ρ) (t : List (Moment E W)) : Prop :=
  ∃ m ∈ t, label m.event = some r ∧ r ∉ view m.after

/-- While anything of `D` is in the collection, so is everything of `S` that was there
in `w`. -/
def Outlasts (view : W → Set ρ) (S D : Set ρ) (w v : W) : Prop :=
  (∃ d ∈ D, d ∈ view v) → ∀ r ∈ S, r ∈ view w → r ∈ view v

section Runs
variable {view : W → Set ρ} {label : E → Option ρ} {w w' w'' : W} {t t' : List (Moment E W)} {L : List ρ}
  {r d : ρ}

/-- Two things do not stand in both orders in a list that has each once. -/
theorem not_sublist_swap : ∀ {L : List ρ}, L.Nodup → [r, d].Sublist L → ¬[d, r].Sublist L
  | [], _, h, _ => by cases h
  | x :: L, hL, h, h' => by
    obtain ⟨hx, hL⟩ := List.nodup_cons.mp hL
    cases h with
    | cons _ h =>
      cases h' with
      | cons _ h' => exact not_sublist_swap hL h h'
      | cons_cons _ h' => exact hx (h.subset (by simp))
    | cons_cons _ h =>
      have hd : d ∈ L := List.singleton_sublist.mp h
      cases h' with
      | cons _ h' => exact hx (h'.subset (by simp))
      | cons_cons _ h' => exact hx hd

theorem labels_cons (m : Moment E W) : labels label (m :: t) =
    (label m.event).toList ++ labels label t := by
  unfold labels
  rw [List.filterMap_cons]
  cases label m.event with
  | none => rfl
  | some r => rfl

theorem labels_append : labels label (t ++ t') = labels label t ++ labels label t' :=
  List.filterMap_append

theorem TakenOut.mem_labels (h : TakenOut view label r t) : r ∈ labels label t := by
  obtain ⟨m, hm, hr, -⟩ := h
  exact List.mem_filterMap.mpr ⟨m, hm, hr⟩

theorem takenOut_cons {m : Moment E W} : TakenOut view label r (m :: t) ↔
    (label m.event = some r ∧ r ∉ view m.after) ∨ TakenOut view label r t := by
  simp [TakenOut]

namespace Depletes

/-- Only the collection counts at the start. -/
theorem from_view (h : Depletes view label w t w') (hw : view w'' = view w) :
    Depletes view label w'' t w' := by
  cases h with
  | done h => exact .done (h.trans hw.symm)
  | keep hbefore hafter ht => exact .keep (hbefore.trans hw.symm) (hafter.trans hw.symm) ht
  | take hlabel hbefore hafter ht => exact .take hlabel (hbefore.trans hw.symm) (hw ▸ hafter) ht

theorem append (h : Depletes view label w t w') (h' : Depletes view label w' t' w'') :
    Depletes view label w (t ++ t') w'' := by
  induction h with
  | done h => exact h'.from_view h.symm
  | keep hbefore hafter _ ih => exact .keep hbefore hafter (ih h')
  | take hlabel hbefore hafter _ ih => exact .take hlabel hbefore hafter (ih h')

/-- Nothing comes back. -/
theorem subset (h : Depletes view label w t w') :
    ∀ m ∈ t, view m.before ⊆ view w ∧ view m.after ⊆ view w := by
  induction h with
  | done _ => exact fun _ hm => absurd hm List.not_mem_nil
  | keep hbefore hafter _ ih =>
    intro m hm
    rcases List.mem_cons.mp hm with rfl | hm
    · exact ⟨hbefore.subset, hafter.subset⟩
    · rw [hafter] at ih
      exact ih m hm
  | take hlabel hbefore hafter _ ih =>
    intro m hm
    rcases List.mem_cons.mp hm with rfl | hm
    · exact ⟨hbefore.subset, hafter ▸ fun x hx => hx.1⟩
    · rw [hafter] at ih
      exact ⟨fun x hx => ((ih m hm).1 hx).1, fun x hx => ((ih m hm).2 hx).1⟩

/-- Of two things in the collection, the first stays while the second is there exactly
when, if it is taken out at all, the second is taken out too and comes before it. -/
theorem kept_iff (h : Depletes view label w t w') (hl : (labels label t).Sublist L) (hL : L.Nodup) (hne : r ≠ d)
    (hr : r ∈ view w) (hd : d ∈ view w) :
    (∀ m ∈ t, (d ∈ view m.before → r ∈ view m.before) ∧ (d ∈ view m.after → r ∈ view m.after)) ↔
      (TakenOut view label r t → [d, r].Sublist L ∧ TakenOut view label d t) := by
  induction h with
  | done _ =>
    refine ⟨fun _ ht => ?_, fun _ m hm => absurd hm List.not_mem_nil⟩
    obtain ⟨m, hm, -⟩ := ht
    cases hm
  | @keep w w' m t hbefore hafter _ ih =>
    have hrest : (labels label t).Sublist L := by
      rw [labels_cons] at hl
      exact (List.sublist_append_right _ _).trans hl
    rw [hafter] at ih
    have hstays : ∀ x ∈ view w, ¬(label m.event = some x ∧ x ∉ view m.after) :=
      fun x hx hout => hout.2 (hafter ▸ hx)
    rw [List.forall_mem_cons, takenOut_cons, takenOut_cons, or_iff_right (hstays r hr),
      or_iff_right (hstays d hd), ← ih hrest hr hd, hbefore, hafter]
    exact and_iff_right ⟨fun _ => hr, fun _ => hr⟩
  | @take w w' m t x hlabel hbefore hafter ht ih =>
    have hcons : (x :: labels label t).Sublist L := by
      rw [labels_cons, hlabel] at hl
      exact hl
    have hrest : (labels label t).Sublist L := (List.sublist_cons_self x _).trans hcons
    have hfollows : ∀ {y}, TakenOut view label y t → [x, y].Sublist L := fun hy =>
      ((List.singleton_sublist.mpr hy.mem_labels).cons_cons x).trans hcons
    have hname : ∀ {y}, label m.event = some y → y = x := fun hy =>
      Option.some.inj (hy.symm.trans hlabel)
    rw [List.forall_mem_cons, takenOut_cons, takenOut_cons]
    by_cases hxr : x = r
    · -- the first is taken out while the second is there
      subst hxr
      have hout : x ∉ view m.after := by rw [hafter]; exact fun hx => hx.2 rfl
      have hin : d ∈ view m.after := by rw [hafter]; exact ⟨hd, hne.symm⟩
      refine ⟨fun hk => absurd (hk.1.2 hin) hout, fun hk => ?_⟩
      obtain ⟨horder, hlater⟩ := hk (.inl ⟨hlabel, hout⟩)
      rcases hlater with ⟨he, -⟩ | hlater
      · exact absurd (hname he) hne.symm
      · exact absurd (hfollows hlater) (not_sublist_swap hL horder)
    · have hin : r ∈ view m.after := by rw [hafter]; exact ⟨hr, fun he => hxr he.symm⟩
      by_cases hxd : x = d
      · -- the second is gone from here on
        subst hxd
        have hout : x ∉ view m.after := by rw [hafter]; exact fun hx => hx.2 rfl
        refine ⟨fun _ hk => ?_, fun _ => ⟨⟨fun _ => hbefore ▸ hr, fun hx => absurd hx hout⟩, ?_⟩⟩
        · rcases hk with ⟨he, -⟩ | hk
          · exact absurd (hname he).symm hxr
          · exact ⟨hfollows hk, .inl ⟨hlabel, hout⟩⟩
        · intro m' hm'
          obtain ⟨hb, ha⟩ := ht.subset m' hm'
          exact ⟨fun hx => absurd (hb hx) hout, fun hx => absurd (ha hx) hout⟩
      · have hin' : d ∈ view m.after := by rw [hafter]; exact ⟨hd, fun he => hxd he.symm⟩
        rw [or_iff_right (fun hk => hk.2 hin), or_iff_right (fun hk => hk.2 hin'), ← ih hrest hin hin', hbefore]
        exact and_iff_right ⟨fun _ => hr, fun _ => hin⟩

/-- The things in `S` outlast those in `D` all along the run exactly when everything in
`S` that is taken out stands behind everything in `D`, and that is taken out too. -/
theorem outlasts_iff (h : Depletes view label w t w') (hl : (labels label t).Sublist L) (hL : L.Nodup)
    {S D : Set ρ} (hdisjoint : ∀ r ∈ S, r ∉ D) :
    (∀ m ∈ t, Outlasts view S D w m.before ∧ Outlasts view S D w m.after) ↔
      ∀ r ∈ S, r ∈ view w → TakenOut view label r t →
        ∀ d ∈ D, d ∈ view w → [d, r].Sublist L ∧ TakenOut view label d t := by
  have hpair : ∀ {r d}, r ∈ S → d ∈ D → r ∈ view w → d ∈ view w →
      ((∀ m ∈ t, (d ∈ view m.before → r ∈ view m.before) ∧ (d ∈ view m.after → r ∈ view m.after)) ↔
        (TakenOut view label r t → [d, r].Sublist L ∧ TakenOut view label d t)) :=
    fun hr hd hrw hdw => h.kept_iff hl hL (fun he => hdisjoint _ hr (he ▸ hd)) hrw hdw
  constructor
  · intro hall r hr hrw hout d hd hdw
    refine (hpair hr hd hrw hdw).mp (fun m hm => ⟨fun hdm => ?_, fun hdm => ?_⟩) hout
    · exact (hall m hm).1 ⟨d, hd, hdm⟩ r hr hrw
    · exact (hall m hm).2 ⟨d, hd, hdm⟩ r hr hrw
  · intro hall m hm
    obtain ⟨hbefore, hafter⟩ := h.subset m hm
    refine ⟨fun ⟨d, hd, hdm⟩ r hr hrw => ?_, fun ⟨d, hd, hdm⟩ r hr hrw => ?_⟩
    · exact ((hpair hr hd hrw (hbefore hdm)).mpr
        (fun hout => hall r hr hrw hout d hd (hbefore hdm)) m hm).1 hdm
    · exact ((hpair hr hd hrw (hafter hdm)).mpr
        (fun hout => hall r hr hrw hout d hd (hafter hdm)) m hm).2 hdm

end Depletes
end Runs

/-! ## Programs -/

/-- On allowed replies `x` only takes things out, and the names of its effects stand
in `L`, in that order. -/
def Depleting (ok : R → Prop) (view : W → Set ρ) (label : E → Option ρ) (L : List ρ)
    (x : Prog E R W ε α) : Prop :=
  ∀ s w, (∀ n, ok (s n)) → Depletes view label w (x s w).trace (x s w).world ∧
    (labels label (x s w).trace).Sublist L ∧ ∀ n, ok ((x s w).rest n)

namespace Depleting
variable {ok : R → Prop} {view : W → Set ρ} {label : E → Option ρ} {L L' : List ρ} {x : Prog E R W ε α}

theorem mono (hx : Depleting ok view label L x) (hL : L.Sublist L') : Depleting ok view label L' x := by
  intro s w hs
  obtain ⟨ht, hl, hrest⟩ := hx s w hs
  exact ⟨ht, hl.trans hL, hrest⟩

theorem ret (a : α) : Depleting ok view label [] (Prog.ret a : Prog E R W ε α) :=
  fun _ _ hs => ⟨.done rfl, List.Sublist.refl _, hs⟩

theorem raise (e : ε) : Depleting ok view label [] (Prog.raise e : Prog E R W ε α) :=
  fun _ _ hs => ⟨.done rfl, List.Sublist.refl _, hs⟩

theorem pure (a : α) : Depleting ok view label [] (pure a : Prog E R W ε α) := ret a

theorem throw (e : ε) : Depleting ok view label [] (throw e : Prog E R W ε α) := raise e

theorem andThen {f : α → Prog E R W ε β} {h : ε → Prog E R W ε β} (hx : Depleting ok view label L x)
    (hf : ∀ a, Depleting ok view label L' (f a)) (hh : ∀ e, Depleting ok view label L' (h e)) :
    Depleting ok view label (L ++ L') (x.andThen f h) := by
  intro s w hs
  obtain ⟨ht, hl, hrest⟩ := hx s w hs
  simp only [Prog.andThen]
  split
  · next t a w' s' heq =>
    rw [heq] at ht hl hrest
    obtain ⟨ht', hl', hrest'⟩ := hf a s' w' hrest
    exact ⟨ht.append ht', labels_append.symm ▸ hl.append hl', hrest'⟩
  · next t e w' s' heq =>
    rw [heq] at ht hl hrest
    obtain ⟨ht', hl', hrest'⟩ := hh e s' w' hrest
    exact ⟨ht.append ht', labels_append.symm ▸ hl.append hl', hrest'⟩

theorem bind {f : α → Prog E R W ε β} (hx : Depleting ok view label L x)
    (hf : ∀ a, Depleting ok view label L' (f a)) : Depleting ok view label (L ++ L') (x >>= f) :=
  andThen hx hf (fun e => (raise e).mono (List.nil_sublist _))

/-- The first part names nothing. -/
theorem seq {f : α → Prog E R W ε β} (hx : Depleting ok view label [] x)
    (hf : ∀ a, Depleting ok view label L (f a)) : Depleting ok view label L (x >>= f) := bind hx hf

/-- The second part names nothing. -/
theorem last {f : α → Prog E R W ε β} (hx : Depleting ok view label L x)
    (hf : ∀ a, Depleting ok view label [] (f a)) : Depleting ok view label L (x >>= f) := by
  have h := bind hx hf
  rw [List.append_nil] at h
  exact h

/-- What a sequence takes out, its first part takes out, if the second names nothing. -/
theorem takenOut_bind {f : α → Prog E R W ε β} {r : ρ} {s : Nat → R} {w : W} (hx : Depleting ok view label L x)
    (hf : ∀ a, Depleting ok view label [] (f a)) (hs : ∀ n, ok (s n)) :
    TakenOut view label r ((x >>= f) s w).trace ↔ TakenOut view label r (x s w).trace := by
  have hsecond : ∀ a, ¬TakenOut view label r (f a (x s w).rest (x s w).world).trace := by
    intro a h
    have hnone := (hf a (x s w).rest (x s w).world (hx s w hs).2.2).2.1
    rw [List.sublist_nil] at hnone
    have hmem := h.mem_labels
    rw [hnone] at hmem
    cases hmem
  rw [trace_bind]
  cases (x s w).result with
  | error e => rw [List.append_nil]
  | ok a =>
    have hno := hsecond a
    simp only [TakenOut, List.mem_append, or_and_right, exists_or] at hno ⊢
    exact or_iff_left hno

theorem ask {f : R → Prog E R W ε β} (hf : ∀ r, ok r → Depleting ok view label L (f r)) :
    Depleting ok view label L (Prog.ask >>= f) := by
  intro s w hs
  obtain ⟨ht, hl, hrest⟩ := hf (s 0) (hs 0) (fun n => s (n + 1)) w (fun n => hs (n + 1))
  exact ⟨ht, hl, hrest⟩

theorem get {f : W → Prog E R W ε β} (hf : ∀ w, Depleting ok view label L (f w)) :
    Depleting ok view label L (MonadState.get >>= f) :=
  fun s w hs => hf w s w hs

theorem modify {f : W → W} (hf : ∀ w, view (f w) = view w) :
    Depleting ok view label [] (modify f : Prog E R W ε Unit) :=
  fun _ w hs => ⟨.done (hf w), List.Sublist.refl _, hs⟩

/-- An effect without a name changes nothing. -/
theorem effect {ev : E} {f : W → W} (hev : label ev = none) (hf : ∀ w, view (f w) = view w) :
    Depleting ok view label [] (Prog.effect ev f : Prog E R W ε Unit) := by
  intro s w hs
  refine ⟨.keep rfl (hf w) (.done rfl), ?_, hs⟩
  show (labels label [⟨ev, w, f w⟩]).Sublist []
  rw [labels_cons, hev]
  exact List.Sublist.refl _

/-- An effect with a name takes that thing out, or does nothing. -/
theorem effect_take {ev : E} {f : W → W} {r : ρ} (hev : label ev = some r)
    (hf : ∀ w, view (f w) = view w ∨ view (f w) = view w \ {r}) :
    Depleting ok view label [r] (Prog.effect ev f : Prog E R W ε Unit) := by
  intro s w hs
  refine ⟨?_, ?_, hs⟩
  · cases hf w with
    | inl hkeep => exact .keep rfl hkeep (.done rfl)
    | inr htake => exact .take hev rfl htake (.done rfl)
  · show (labels label [⟨ev, w, f w⟩]).Sublist [r]
    rw [labels_cons, hev]
    exact List.Sublist.refl _

theorem ite {c : Prop} [Decidable c] {y : Prog E R W ε α} (hx : Depleting ok view label L x)
    (hy : Depleting ok view label L y) : Depleting ok view label L (if c then x else y) := by
  split
  · exact hx
  · exact hy

theorem outcome (o : Option ε) : Depleting ok view label [] (Prog.outcome o : Prog E R W ε Unit) := by
  cases o with
  | none => exact ret ()
  | some e => exact raise e

theorem refuse {c : Prop} [Decidable c] (e : ε) :
    Depleting ok view label [] (Prog.refuse c e : Prog E R W ε Unit) := ite (raise e) (ret ())

theorem attemptIf {c : Bool} {x : Prog E R W ε Unit} (hx : Depleting ok view label L x) :
    Depleting ok view label L (attemptIf c x) := by
  refine ite ?_ ((ret []).mono (List.nil_sublist _))
  have h := andThen hx (fun _ => ret []) (fun e => ret [e])
  rw [List.append_nil] at h
  exact h

theorem each {f : β → Prog E R W ε Unit} (hf : ∀ b, Depleting ok view label [] (f b)) :
    ∀ l : List β, Depleting ok view label [] (each f l)
  | [] => ret ()
  | b :: l => andThen (hf b) (fun _ => each hf l) (fun e => raise e)

/-- Collecting over a list of names, each element's step naming that element only. -/
theorem collect {f : ρ → Prog E R W ε Unit} (hf : ∀ r, Depleting ok view label [r] (f r)) :
    ∀ l : List ρ, Depleting ok view label l (collect f l)
  | [] => ret []
  | r :: l => by
    refine andThen (L := [r]) (hf r) (fun _ => collect hf l) (fun e => ?_)
    have h := andThen (collect hf l) (fun es => ret ((r, e) :: es)) Depleting.raise
    rw [List.append_nil] at h
    exact h

end Depleting

end Effects
