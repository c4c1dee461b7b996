import EasyTierHost.Network.RouteCalls
import EasyTierHost.Network.RoutePlanner

/- Which deletions of a removal loop take effect, told from the replies of the system
   alone. Every step lists the table, deletes its route if that is there, lists again and
   saves, and a call that throws ends the step: so the replies to one step say where the
   replies to the next begin (`removalCalls`), and whether the route goes
   (`DeletionTakesEffect`). `removals_deleted` connects both to the loop of
   `RollbackInternalAsync`. -/
namespace EasyTierHost
open Effects Effects.Prog GatewayRouteController

variable {D : Type}

/-- How many replies a removal step uses up; `listed` says whether its route is in the
table. -/
def removalCalls (listed : Bool) (s : Nat → RouteReply D) : Nat :=
  if (s 0).err.isSome then 1
  else if (s 1).err.isSome then 2
  -- a route that is still listed afterwards ends the step before its save
  else if listed && ((s 2).err.isSome || !(s 1).applied) then 3
  else if listed then 4
  else 3

/-- In the replies `s` to the removal of the routes `l` from `table`, the deletion of `r`
takes effect. -/
def DeletionTakesEffect (table : List RouteEntry) (r : RouteEntry) :
    List RouteEntry → (Nat → RouteReply D) → Prop
  | [], _ => False
  | x :: l, s =>
    (x = r ∧ x ∈ table ∧ (s 0).err = none ∧ (s 1).applied = true) ∨
      DeletionTakesEffect table r l (fun n => s (n + removalCalls (decide (x ∈ table)) s))

instance decidableDeletionTakesEffect (table : List RouteEntry) (r : RouteEntry) :
    ∀ (l : List RouteEntry) (s : Nat → RouteReply D), Decidable (DeletionTakesEffect table r l s)
  | [], _ => inferInstanceAs (Decidable False)
  | x :: l, s =>
    have := decidableDeletionTakesEffect table r l (fun n => s (n + removalCalls (decide (x ∈ table)) s))
    inferInstanceAs (Decidable ((x = r ∧ x ∈ table ∧ (s 0).err = none ∧ (s 1).applied = true) ∨
      DeletionTakesEffect table r l (fun n => s (n + removalCalls (decide (x ∈ table)) s))))

/-- The route an effect deletes. -/
def RouteEvent.deleted : RouteEvent → Option RouteEntry
  | delete r => some r
  | _ => none

section Calls
variable {s : Nat → RouteReply D} {w : RouteWorld D} {route : RouteEntry} {j : RouteJournal D}

theorem reply_ran (hq : Quiet (s 0)) : (reply : RouteM D (RouteReply D)) s w =
    ⟨[⟨.foreign, w, w⟩], .ok (s 0), w, fun n => s (n + 1)⟩ := by
  have hw : { w with table := (s 0).foreign.foldl Edit.apply w.table } = w := by
    rw [show (s 0).foreign = [] from hq]
    rfl
  show Ran.mk [⟨RouteEvent.foreign, w, { w with table := (s 0).foreign.foldl Edit.apply w.table }⟩]
    (.ok (s 0)) { w with table := (s 0).foreign.foldl Edit.apply w.table } (fun n => s (n + 1)) = _
  rw [hw]

theorem listRoutes_ran (hq : Quiet (s 0)) : (listRoutes : RouteM D (List RouteEntry)) s w =
    ⟨[⟨.foreign, w, w⟩], (s 0).err.elim (.ok w.table) .error, w, fun n => s (n + 1)⟩ := by
  simp only [listRoutes, bind, andThen, reply_ran hq]
  cases (s 0).err with
  | none => rfl
  | some e => rfl

theorem deleteRoute_ran (route : RouteEntry) (hq : Quiet (s 0)) : (deleteRoute route : RouteM D Unit) s w =
    ⟨[⟨.foreign, w, w⟩, ⟨.delete route, w, routeDeleted (s 0) route w⟩],
      (s 0).err.elim (.ok ()) .error, routeDeleted (s 0) route w, fun n => s (n + 1)⟩ := by
  simp only [deleteRoute, bind, andThen, reply_ran hq]
  cases (s 0).err with
  | none => rfl
  | some e => rfl

theorem mem_routeDeleted {r : RouteReply D} {x : RouteEntry} : x ∈ (routeDeleted r route w).table ↔
    x ∈ w.table ∧ ¬(r.applied = true ∧ x = route) := by
  unfold routeDeleted
  split
  · next h =>
    show x ∈ w.table.filter (fun x => !RoutePlanner.sameIdentity x route) ↔ _
    rw [RoutePlanner.not_sameIdentity, List.mem_filter, decide_eq_true_eq]
    simp [h]
  · next h =>
    simp [h]

theorem routeDeleted_journal (r : RouteReply D) (route : RouteEntry) : (routeDeleted r route w).journal = w.journal := by
  unfold routeDeleted
  split
  · rfl
  · rfl

theorem any_sameIdentity {l : List RouteEntry} :
    l.any (fun r => RoutePlanner.sameIdentity r route) = decide (route ∈ l) := by
  rw [Bool.eq_iff_iff, List.any_eq_true, decide_eq_true_eq]
  simp

/-! ## One step -/

/-- What a part of a removal step leaves: it used `n` replies, took no other route out of the
table and no other entry out of the journal, and a deletion of its route went through exactly
if `gone`. -/
structure Removes {α : Type} (route : RouteEntry) (s : Nat → RouteReply D) (w : RouteWorld D) (n : Nat)
    (gone : Prop) (r : Ran RouteEvent (RouteReply D) (RouteWorld D) Err α) : Prop where
  rest : r.rest = fun k => s (k + n)
  journal : ∀ j, w.journal = some j →
    ∃ j', r.world.journal = some j' ∧ ∀ x ∈ j.owned, x ≠ route → x ∈ j'.owned
  table : ∀ x, x ≠ route → (x ∈ r.world.table ↔ x ∈ w.table)
  only : ∀ m ∈ r.trace, ∀ x, m.event.deleted = some x → x = route
  deleted : (∃ m ∈ r.trace, m.event.deleted = some route ∧ route ∉ m.after.table) ↔ gone

namespace Removes
variable {α β : Type} {n n' : Nat} {gone gone' : Prop} {x : RouteM D α} {f : α → RouteM D β}

/-- A part that leaves the table and the journal alone. -/
theorem aside {r : Ran RouteEvent (RouteReply D) (RouteWorld D) Err α} (hrest : r.rest = fun k => s (k + n))
    (hjournal : r.world.journal = w.journal) (htable : r.world.table = w.table)
    (htrace : ∀ m ∈ r.trace, m.event.deleted = none) : Removes route s w n False r := by
  have hnone : ∀ m ∈ r.trace, ∀ x, m.event.deleted ≠ some x := by
    intro m hm x he
    rw [htrace m hm] at he
    cases he
  refine ⟨hrest, fun j hj => ⟨j, hjournal.trans hj, fun x hx _ => hx⟩, ?_, ?_, ?_⟩
  · intro x _
    rw [htable]
  · intro m hm x he
    exact absurd he (hnone m hm x)
  · refine iff_of_false (fun h => ?_) not_false
    obtain ⟨m, hm, he, -⟩ := h
    exact hnone m hm route he

/-- One part after the other. -/
theorem append {r : Ran RouteEvent (RouteReply D) (RouteWorld D) Err α}
    {r' : Ran RouteEvent (RouteReply D) (RouteWorld D) Err β} (h : Removes route s w n gone r)
    (h' : Removes route r.rest r.world n' gone' r') :
    Removes route s w (n + n') (gone ∨ gone') (r'.after r.trace) := by
  refine ⟨?_, fun j hj => ?_, fun x hx => (h'.table x hx).trans (h.table x hx), fun m hm x he => ?_, ?_⟩
  · show r'.rest = _
    rw [h'.rest, h.rest]
    funext k
    show s (k + n' + n) = s (k + (n + n'))
    rw [Nat.add_assoc, Nat.add_comm n' n]
  · obtain ⟨j₁, hj₁, hkept₁⟩ := h.journal j hj
    obtain ⟨j₂, hj₂, hkept₂⟩ := h'.journal j₁ hj₁
    exact ⟨j₂, hj₂, fun x hx hne => hkept₂ x (hkept₁ x hx hne) hne⟩
  · cases List.mem_append.mp hm with
    | inl hm => exact h.only m hm x he
    | inr hm => exact h'.only m hm x he
  · rw [← h.deleted, ← h'.deleted]
    show (∃ m ∈ r.trace ++ r'.trace, _) ↔ _
    simp only [List.mem_append, or_and_right, exists_or]

theorem bind_ok {a : α} {t : List (Moment RouteEvent (RouteWorld D))} {w' : RouteWorld D}
    {s' : Nat → RouteReply D} (hx : Removes route s w n gone (x s w)) (hrun : x s w = ⟨t, .ok a, w', s'⟩)
    (hf : Removes route s' w' n' gone' (f a s' w')) :
    Removes route s w (n + n') (gone ∨ gone') ((x >>= f) s w) := by
  show Removes route s w (n + n') (gone ∨ gone') ((x.andThen f raise) s w)
  rw [hrun] at hx
  rw [andThen, hrun]
  exact hx.append hf

theorem bind_error {e : Err} {t : List (Moment RouteEvent (RouteWorld D))} {w' : RouteWorld D}
    {s' : Nat → RouteReply D} (hx : Removes route s w n gone (x s w)) (hrun : x s w = ⟨t, .error e, w', s'⟩) :
    Removes route s w n gone ((x >>= f) s w) := by
  show Removes route s w n gone ((x.andThen f raise) s w)
  rw [hrun] at hx
  rw [andThen, hrun]
  refine ⟨hx.rest, hx.journal, hx.table, ?_, ?_⟩
  · simpa [Ran.after, raise] using hx.only
  · simpa [Ran.after, raise] using hx.deleted

theorem of_eq {r : Ran RouteEvent (RouteReply D) (RouteWorld D) Err α} (h : Removes route s w n gone r)
    (hn : n' = n) (hgone : gone' ↔ gone) : Removes route s w n' gone' r :=
  ⟨hn ▸ h.rest, h.journal, h.table, h.only, h.deleted.trans hgone.symm⟩

end Removes

theorem ret_removes {α : Type} (a : α) : Removes route s w 0 False ((ret a : RouteM D α) s w) :=
  Removes.aside rfl rfl rfl (fun _ hm => absurd hm List.not_mem_nil)

theorem refuse_removes (c : Prop) [Decidable c] (e : Err) :
    Removes route s w 0 False ((refuse c e : RouteM D Unit) s w) := by
  unfold refuse
  split
  · exact Removes.aside rfl rfl rfl (fun _ hm => absurd hm List.not_mem_nil)
  · exact ret_removes ()

theorem refuse_ran {c : Prop} [Decidable c] {e : Err} (hc : c) :
    (refuse c e : RouteM D Unit) s w = ⟨[], .error e, w, s⟩ := by
  rw [refuse, if_pos hc]
  rfl

theorem refuse_passed {c : Prop} [Decidable c] {e : Err} (hc : ¬c) :
    (refuse c e : RouteM D Unit) s w = ⟨[], .ok (), w, s⟩ := by
  rw [refuse, if_neg hc]
  rfl

theorem listRoutes_removes (hq : Quiet (s 0)) : Removes route s w 1 False (listRoutes s w) := by
  rw [listRoutes_ran hq]
  exact Removes.aside rfl rfl rfl (by simp [RouteEvent.deleted])

theorem deleteRoute_removes (hq : Quiet (s 0)) (hr : route ∈ w.table) :
    Removes route s w 1 ((s 0).applied = true) ((deleteRoute route : RouteM D Unit) s w) := by
  rw [deleteRoute_ran route hq]
  refine ⟨rfl, fun j hj => ⟨j, (routeDeleted_journal (s 0) route).trans hj, fun x hx _ => hx⟩, fun x hx => ?_, ?_, ?_⟩
  · simp [mem_routeDeleted, hx]
  · simp [RouteEvent.deleted]
  · simp [RouteEvent.deleted, mem_routeDeleted, hr]

theorem save_removes (hq : Quiet (s 0)) : Removes route s w 1 False ((save : RouteM D Unit) s w) := by
  have hsaved : ∀ c : Bool, (if c then { w with file := w.journal <|> w.file } else w).journal = w.journal ∧
      (if c then { w with file := w.journal <|> w.file } else w).table = w.table := by
    intro c
    cases c with
    | true => exact ⟨rfl, rfl⟩
    | false => exact ⟨rfl, rfl⟩
  simp only [save, bind, andThen, reply_ran hq, effect]
  cases (s 0).err with
  | none =>
    exact Removes.aside rfl (hsaved _).1 (hsaved _).2 (by simp [outcome, ret, Ran.after, RouteEvent.deleted])
  | some e =>
    exact Removes.aside rfl (hsaved _).1 (hsaved _).2 (by simp [outcome, raise, Ran.after, RouteEvent.deleted])

theorem theJournal_ran (hj : w.journal = some j) :
    (theJournal : RouteM D (RouteJournal D)) s w = ⟨[], .ok j, w, s⟩ := by
  simp [theJournal, bind, andThen, get, getThe, MonadStateOf.get, hj, Ran.after, pure, ret]

theorem theJournal_removes (hj : w.journal = some j) :
    Removes route s w 0 False ((theJournal : RouteM D (RouteJournal D)) s w) := by
  rw [theJournal_ran hj]
  exact ret_removes j

theorem setJournal_removes (hj : w.journal = some j) : Removes route s w 0 False
    (setJournal (some { j with owned := j.owned.filter (fun r => !RoutePlanner.sameIdentity r route) }) s w) := by
  refine ⟨rfl, fun j' hj' => ?_, fun _ _ => Iff.rfl, fun _ hm => absurd hm List.not_mem_nil, ?_⟩
  · rw [hj, Option.some.injEq] at hj'
    subst hj'
    refine ⟨_, rfl, fun x hx hne => ?_⟩
    rw [RoutePlanner.not_sameIdentity]
    exact List.mem_filter.mpr ⟨hx, by simpa using hne⟩
  · exact iff_of_false (fun h => by obtain ⟨m, hm, -⟩ := h; cases hm) not_false

/-- The end of a step lists again, and saves unless that throws or the route is still there. -/
theorem strikeGone_removes (route : RouteEntry) (hq : ∀ n, Quiet (s n)) (hj : w.journal = some j) :
    Removes route s w (if (s 0).err.isSome || decide (route ∈ w.table) then 1 else 2) False
      ((strikeGone route : RouteM D Unit) s w) := by
  have hlist := listRoutes_ran (w := w) (hq 0)
  have hlisted : Removes route s w 1 False (listRoutes s w) := listRoutes_removes (hq 0)
  cases he : (s 0).err with
  | some e =>
    rw [he] at hlist
    exact hlisted.bind_error hlist
  | none =>
    rw [he] at hlist
    by_cases hr : route ∈ w.table
    · have hstays : w.table.any (fun r => RoutePlanner.sameIdentity r route) = true := by
        rw [any_sameIdentity, decide_eq_true hr]
      exact (hlisted.bind_ok hlist ((refuse_removes _ _).bind_error (refuse_ran hstays))).of_eq
        (by simp [hr]) (by simp)
    · have hgone : ¬w.table.any (fun r => RoutePlanner.sameIdentity r route) = true := by
        rw [any_sameIdentity, decide_eq_false hr]
        exact Bool.false_ne_true
      refine (hlisted.bind_ok hlist ((refuse_removes _ _).bind_ok (refuse_passed hgone)
        ((theJournal_removes hj).bind_ok (theJournal_ran hj) ((setJournal_removes hj).bind_ok rfl
          (save_removes (hq 1)))))).of_eq (by simp [hr]) (by simp)

/-- What a step does after its first list call, if the route is listed, -/
theorem deleteThenStrike_removes (hq : ∀ n, Quiet (s n)) (hj : w.journal = some j) (hr : route ∈ w.table) :
    Removes route s w
      (if (s 0).err.isSome then 1 else if (s 1).err.isSome || !(s 0).applied then 2 else 3)
      ((s 0).applied = true)
      ((deleteRoute route >>= fun _ => strikeGone route : RouteM D Unit) s w) := by
  have hdelete := deleteRoute_ran (w := w) route (hq 0)
  have hdeleted : Removes route s w 1 ((s 0).applied = true) ((deleteRoute route : RouteM D Unit) s w) :=
    deleteRoute_removes (hq 0) hr
  cases he : (s 0).err with
  | some e =>
    rw [he] at hdelete
    exact hdeleted.bind_error hdelete
  | none =>
    rw [he] at hdelete
    have hstrike := strikeGone_removes (s := fun n => s (n + 1)) route (fun n => hq (n + 1))
      ((routeDeleted_journal (s 0) route).trans hj)
    have hleft : decide (route ∈ (routeDeleted (s 0) route w).table) = !(s 0).applied := by
      cases ha : (s 0).applied <;> simp [mem_routeDeleted, hr, ha]
    rw [hleft] at hstrike
    refine (hdeleted.bind_ok hdelete hstrike).of_eq ?_ (by rw [or_false])
    show (if ((s 1).err.isSome || !(s 0).applied) = true then 2 else 3)
      = 1 + if ((s 1).err.isSome || !(s 0).applied) = true then 1 else 2
    split
    · rfl
    · rfl

/-- and if it is not. -/
theorem strike_removes (hq : ∀ n, Quiet (s n)) (hj : w.journal = some j) (hr : route ∉ w.table) :
    Removes route s w (if (s 0).err.isSome then 1 else 2) False
      (((Pure.pure () : RouteM D Unit) >>= fun _ => strikeGone route) s w) := by
  have hstrike := strikeGone_removes route hq hj
  rw [decide_eq_false hr, Bool.or_false] at hstrike
  exact ((ret_removes ()).bind_ok rfl hstrike).of_eq (Nat.zero_add _).symm (by rw [or_self])

/-- A whole step. -/
theorem removeOwned_removes (hq : ∀ n, Quiet (s n)) (hj : w.journal = some j) (hr : route ∈ j.owned) :
    Removes route s w (removalCalls (decide (route ∈ w.table)) s)
      (route ∈ w.table ∧ (s 0).err = none ∧ (s 1).applied = true)
      ((removeOwned route : RouteM D Unit) s w) := by
  have howned : j.owned.any (fun r => RoutePlanner.sameIdentity r route) = true := by
    rw [any_sameIdentity, decide_eq_true hr]
  have hbody : (removeOwned route : RouteM D Unit) s w
      = (deleteListed route >>= fun _ => strikeGone route : RouteM D Unit) s w := by
    show (theJournal.andThen _ raise) s w = _
    rw [andThen, theJournal_ran hj]
    show Ran.after [] ((if j.owned.any (fun r => RoutePlanner.sameIdentity r route) = true then
      deleteListed route >>= fun _ => strikeGone route else Pure.pure ()) s w) = _
    rw [if_pos howned]
    rfl
  have hlist := listRoutes_ran (w := w) (hq 0)
  have hlisted : Removes route s w 1 False (listRoutes s w) := listRoutes_removes (hq 0)
  rw [hbody, deleteListed, bind_bind]
  cases he : (s 0).err with
  | some e =>
    rw [he] at hlist
    exact (hlisted.bind_error hlist).of_eq (by simp [removalCalls, he]) (by simp)
  | none =>
    rw [he] at hlist
    by_cases hmem : route ∈ w.table
    · have hthere : (if w.table.any (fun r => RoutePlanner.sameIdentity r route) = true then
          deleteRoute route else Pure.pure () : RouteM D Unit) = deleteRoute route := by
        rw [any_sameIdentity, if_pos (decide_eq_true hmem)]
      have hrest := deleteThenStrike_removes (fun n => hq (n + 1)) hj hmem
      rw [← hthere] at hrest
      refine (hlisted.bind_ok hlist hrest).of_eq ?_ (by simp [hmem])
      rw [removalCalls, he, decide_eq_true hmem]
      cases (s 1).err with
      | some e => rfl
      | none =>
        show (if ((s 2).err.isSome || !(s 1).applied) = true then 3 else 4)
          = 1 + if ((s 2).err.isSome || !(s 1).applied) = true then 2 else 3
        split
        · rfl
        · rfl
    · have hthere : (if w.table.any (fun r => RoutePlanner.sameIdentity r route) = true then
          deleteRoute route else Pure.pure () : RouteM D Unit) = Pure.pure () := by
        rw [any_sameIdentity, if_neg (by simpa using hmem)]
      have hrest := strike_removes (fun n => hq (n + 1)) hj hmem
      rw [← hthere] at hrest
      refine (hlisted.bind_ok hlist hrest).of_eq ?_ (by simp [hmem])
      rw [removalCalls, he, decide_eq_false hmem]
      cases (s 1).err with
      | some e => rfl
      | none => rfl

end Calls

/-! ## The loop -/

/-- A loop makes the deletions that its replies let take effect. -/
theorem removals_deleted (table : List RouteEntry) (r : RouteEntry) :
    ∀ (l : List RouteEntry) {s : Nat → RouteReply D} {w : RouteWorld D} {j : RouteJournal D},
      (∀ n, Quiet (s n)) → w.journal = some j → (∀ x ∈ l, x ∈ j.owned) → l.Nodup →
      (∀ x ∈ l, x ∈ w.table ↔ x ∈ table) →
      ((∃ m ∈ (collect removeOwned l s w).trace, m.event.deleted = some r ∧ r ∉ m.after.table) ↔
        DeletionTakesEffect table r l s)
  | [], _, _, _, _, _, _, _, _ => by
    refine iff_of_false (fun h => ?_) not_false
    obtain ⟨m, hm, -⟩ := h
    cases hm
  | x :: l, s, w, j, hq, hj, hl, hnodup, htable => by
    obtain ⟨hx, hnodup⟩ := List.nodup_cons.mp hnodup
    have hlisted : decide (x ∈ w.table) = decide (x ∈ table) :=
      decide_eq_decide.mpr (htable x List.mem_cons_self)
    have hstep := removeOwned_removes hq hj (hl x List.mem_cons_self)
    rw [hlisted] at hstep
    obtain ⟨j', hj', hkept⟩ := hstep.journal j hj
    have hother : ∀ y ∈ l, y ≠ x := fun y hy he => hx (he ▸ hy)
    -- the loop goes on from the replies that are left
    have hrest := removals_deleted table r l (s := fun n => s (n + removalCalls (decide (x ∈ table)) s))
      (fun n => hq _) hj' (fun y hy => hkept y (hl y (List.mem_cons_of_mem x hy)) (hother y hy)) hnodup
      (fun y hy => (hstep.table y (hother y hy)).trans (htable y (List.mem_cons_of_mem x hy)))
    rw [trace_collect_cons, hstep.rest]
    simp only [List.mem_append, or_and_right, exists_or, hrest, DeletionTakesEffect]
    refine or_congr_left ?_
    by_cases he : x = r
    · subst he
      rw [hstep.deleted, htable x List.mem_cons_self]
      simp
    · refine iff_of_false (fun h => ?_) (fun h => he h.1)
      obtain ⟨m, hm, hr, -⟩ := h
      exact he (hstep.only m hm r hr).symm

end EasyTierHost
