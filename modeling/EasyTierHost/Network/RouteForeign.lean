import EasyTierHost.Network.RouteMoves

/- Routes of other programs. Here the environment is at its worst: any reply may
   carry edits of the route table, on top of every failure and crash. Two frame
   conditions hold all the same. A moment of the controller takes out of the
   table nothing but routes its journal owns; and a route that was there before
   the transaction and that nobody else removes is never owned, since ownership
   is refused for a destination that is in the table, so it never leaves. -/
namespace EasyTierHost
open Effects GatewayRouteController

variable {D : Type} [DecidableEq D]

/-- A moment takes nothing from the table that the journal in memory does not own. -/
def TakesOwnedOnly (m : Moment RouteEvent (RouteWorld D)) : Prop :=
  m.event ≠ .foreign → ∀ x ∈ m.before.table, x ∈ m.after.table ∨
    ∃ j, m.before.journal = some j ∧ x ∈ j.owned

omit [DecidableEq D] in
theorem takesOwnedOnly_moves : ControllerMoves (fun _ => True) TakesOwnedOnly (fun _ : RouteWorld D => True) where
  foreign := fun _ _ _ _ => ⟨fun h => absurd rfl h, trivial⟩
  note := fun _ _ _ _ _ _ => trivial
  strike := fun _ _ _ _ _ => trivial
  flag := fun _ _ _ _ _ => trivial
  save := fun _ _ _ _ => ⟨fun _ _ hx => Or.inl hx, fun _ _ hx => Or.inl hx, trivial⟩
  add := fun _ _ _ _ _ _ =>
    ⟨fun _ _ hx => Or.inl hx, fun _ _ hx => Or.inl (List.mem_append_left _ hx), trivial⟩
  delete := by
    intro w j route _ hj hr
    refine ⟨fun _ _ hx => Or.inl hx, fun _ x hx => ?_, trivial⟩
    by_cases he : x = route
    · exact Or.inr ⟨j, hj, he ▸ hr⟩
    · exact Or.inl (List.mem_filter.mpr ⟨hx, by simp [Bool.eq_false_iff, he]⟩)
  dns := fun _ _ _ => ⟨fun _ _ hx => Or.inl hx, fun _ _ hx => Or.inl hx, trivial⟩
  state := fun _ _ _ => trivial
  rollbacks := fun _ _ _ => trivial
  begin := fun _ _ _ => trivial
  load := fun _ _ _ _ => trivial
  drop := fun _ _ => trivial
  deleteFile := fun _ _ => ⟨fun _ _ hx => Or.inl hx, trivial⟩

/-- The route `x` is in the table, and no journal owns a route to its destination. -/
structure Standing (x : RouteEntry) (w : RouteWorld D) : Prop where
  table : x ∈ w.table
  journal : ∀ j, w.journal = some j → ∀ r ∈ j.owned, r.destination ≠ x.destination
  file : ∀ j, w.file = some j → ∀ r ∈ j.owned, r.destination ≠ x.destination

/-- No other program removes `x` before this call. -/
def Spares (x : RouteEntry) (r : RouteReply D) : Prop := Edit.remove x ∉ r.foreign

omit [DecidableEq D] in
theorem Standing.edited {x : RouteEntry} {w : RouteWorld D} (h : Standing x w) {edits : List Edit}
    (he : Edit.remove x ∉ edits) : Standing x (w.edited edits) := by
  refine ⟨?_, h.journal, h.file⟩
  have hfold : ∀ (edits : List Edit) (table : List RouteEntry), Edit.remove x ∉ edits → x ∈ table →
      x ∈ edits.foldl Edit.apply table := by
    intro edits
    induction edits with
    | nil => exact fun _ _ hx => hx
    | cons e edits ih =>
      intro table hne hx
      rw [List.mem_cons, not_or] at hne
      refine ih _ hne.2 ?_
      cases e with
      | add r => exact List.mem_append_left _ hx
      | remove r =>
        have hxr : x ≠ r := fun heq => hne.1 (heq ▸ rfl)
        exact List.mem_filter.mpr ⟨hx, by simpa using hxr⟩
  exact hfold edits w.table he h.table

omit [DecidableEq D] in
theorem standing_moves (x : RouteEntry) :
    ControllerMoves (Spares x) (fun m => Standing x m.after) (Standing (D := D) x) where
  foreign := fun _ _ h hr => ⟨h.edited hr, h.edited hr⟩
  note := by
    intro w j route h hj hfree
    refine ⟨h.table, ?_, h.file⟩
    intro j' hj' r hr
    cases hj'
    cases List.mem_append.mp hr with
    | inl hr =>
      exact h.journal j hj r hr
    | inr hr =>
      rw [List.mem_singleton.mp hr]
      exact fun he => hfree x h.table he.symm
  strike := by
    intro w j route h hj
    refine ⟨h.table, ?_, h.file⟩
    intro j' hj' r hr
    cases hj'
    exact h.journal j hj r (List.mem_filter.mp hr).1
  flag := by
    intro w j b h hj
    refine ⟨h.table, ?_, h.file⟩
    intro j' hj' r hr
    cases hj'
    exact h.journal j hj r hr
  save := by
    intro w j h hj
    have hsaved : Standing x { w with file := some j } := by
      refine ⟨h.table, h.journal, ?_⟩
      intro j' hj'
      cases hj'
      exact h.journal j hj
    exact ⟨h, hsaved, hsaved⟩
  add := by
    intro w j route h _ _
    have hadded : Standing x { w with table := w.table ++ [route] } :=
      ⟨List.mem_append_left _ h.table, h.journal, h.file⟩
    exact ⟨h, hadded, hadded⟩
  delete := by
    intro w j route h hj hr
    have hne : x ≠ route := fun he => h.journal j hj route hr (he ▸ rfl)
    have hdeleted : Standing x
        { w with table := w.table.filter (fun r => !RoutePlanner.sameIdentity r route) } :=
      ⟨List.mem_filter.mpr ⟨h.table, by simp [Bool.eq_false_iff, hne]⟩, h.journal, h.file⟩
    exact ⟨h, hdeleted, hdeleted⟩
  dns := fun _ _ h => ⟨⟨h.table, h.journal, h.file⟩, ⟨h.table, h.journal, h.file⟩, ⟨h.table, h.journal, h.file⟩⟩
  state := fun _ _ h => ⟨h.table, h.journal, h.file⟩
  rollbacks := fun _ _ h => ⟨h.table, h.journal, h.file⟩
  begin := by
    intro w s h
    refine ⟨h.table, ?_, h.file⟩
    intro j' hj' r hr
    cases hj'
    exact absurd hr List.not_mem_nil
  load := by
    intro w j h hj
    refine ⟨h.table, ?_, h.file⟩
    intro j' hj'
    cases hj'
    exact h.file j hj
  drop := fun _ h => ⟨h.table, fun _ hj => by simp at hj, h.file⟩
  deleteFile := fun _ h =>
    have hdeleted := ⟨h.table, h.journal, fun _ hj => by simp at hj⟩
    ⟨hdeleted, hdeleted⟩

omit [DecidableEq D] in
theorem Standing.restart {x : RouteEntry} {w : RouteWorld D} (h : Standing x w) : Standing x w.restart :=
  ⟨h.table, fun _ hj => by simp [RouteWorld.restart] at hj, h.file⟩

/-- **Foreign routes are never touched.** Over every run, with any failures,
crashes, restarts and edits by other programs. A moment of the controller takes
from the table only routes with the identity of an entry its journal owns. And a
route that is in the table when no transaction is under way, and that no other
program removes, is in the table at every moment: whatever the destination, so
also an original `0.0.0.0/0`. -/
theorem foreign_routes_untouched (w : RouteWorld D) (steps : List (Step (RouteReply D) RouteOp)) :
    (∀ m ∈ (routeSystem D).trace w steps, m.event ≠ .foreign → ∀ x ∈ m.before.table,
      x ∈ m.after.table ∨ ∃ j, m.before.journal = some j ∧ x ∈ j.owned) ∧
    ∀ x ∈ w.table, w.journal = none → w.file = none →
      (∀ st ∈ steps, ∀ n, Edit.remove x ∉ (st.script n).foreign) →
      (∀ m ∈ (routeSystem D).trace w steps, x ∈ m.after.table) ∧ x ∈ ((routeSystem D).final w steps).table := by
  refine ⟨?_, ?_⟩
  · have hop : ∀ st ∈ steps, Keeps (fun _ => True) TakesOwnedOnly (fun _ : RouteWorld D => True)
        ((routeSystem D).exec st.op) := fun st _ => routeSystem_moves takesOwnedOnly_moves st.op
    exact (System.keeps (fun _ _ => trivial) (fun _ _ => trivial) steps w hop (fun _ _ _ => trivial)
      trivial).1
  · intro x hx hj hf hspared
    have hop : ∀ st ∈ steps, Keeps (Spares x) (fun m => Standing x m.after) (Standing (D := D) x)
        ((routeSystem D).exec st.op) := fun st _ => routeSystem_moves (standing_moves x) st.op
    have hstart : Standing x w := ⟨hx, by simp [hj], by simp [hf]⟩
    obtain ⟨hmoments, hend⟩ := System.keeps (fun _ h => h.restart) (fun _ h => h.restart) steps w hop
      hspared hstart
    exact ⟨fun m hm => (hmoments m hm).table, hend.table⟩

end EasyTierHost
