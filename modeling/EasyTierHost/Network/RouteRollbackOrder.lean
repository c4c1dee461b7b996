import EasyTierHost.Effects.Removals
import EasyTierHost.Network.RouteDistinct
import EasyTierHost.Network.RouteRecursion
import EasyTierHost.Network.RouteRemovalReplies
import Mathlib.Data.List.TakeWhile

/- In which order a rollback takes the routes away: the last one journalled goes
   first, and a removal that fails does not stop the loop. So the routes that
   stand before the split default in the journal are still in the table while
   the steps for the split default and for everything journalled later are made,
   and after those steps a /1 route is left only if its own step failed. A
   protection route that an update added is journalled after the split default
   and goes before it. -/
namespace EasyTierHost
open Effects Effects.Prog GatewayRouteController

variable {D : Type}

/-! ## Removals -/

/-- A transaction over the routes `owned`: whatever of it is no longer in the
journal in memory is no longer in the table. -/
def Tracks (owned : List RouteEntry) (w : RouteWorld D) : Prop :=
  ∃ j, w.journal = some j ∧ ∀ r ∈ owned, r ∈ j.owned ∨ r ∉ w.table

section Removals
variable {owned : List RouteEntry} {w : RouteWorld D} {I : Moment RouteEvent (RouteWorld D) → Prop}

theorem Lessened.refl (l : List RouteEntry) (w : RouteWorld D) : Lessened l w w :=
  ⟨rfl, rfl, fun _ hr => Or.inl hr, fun _ hr => hr⟩

/-- The end of a removal step strikes the entry of a route that is gone. -/
theorem strikeGone_lessens {route : RouteEntry} {w' : RouteWorld D} (h : Tracks owned w')
    (hless : Lessened [route] w w') (hI : ∀ m, Lessened [route] w m.after → I m) :
    Runs Quiet I (strikeGone route)
      (fun _ w' => Tracks owned w' ∧ Lessened [route] w w' ∧ route ∉ w'.table)
      (fun _ w' => Tracks owned w' ∧ Lessened [route] w w') w' := by
  obtain ⟨j, hj, howned⟩ := h
  refine Runs.bind (listRoutes_runs (fun _ hr => hr) (hI _ hless) ?_ (fun _ => ⟨⟨j, hj, howned⟩, hless⟩))
  refine Runs.bind (Runs.refuse (fun hc => ?_) (fun _ => ⟨⟨j, hj, howned⟩, hless⟩))
  have hgone : route ∉ w'.table := fun hr => hc (List.any_eq_true.mpr ⟨route, hr, by simp⟩)
  refine Runs.bind (theJournal_runs hj (Runs.bind (setJournal_runs ?_)))
  rw [RoutePlanner.not_sameIdentity]
  have hstruck : ∀ f, Tracks owned
      { w' with journal := some { j with owned := j.owned.filter (· ≠ route) }, file := f } := by
    refine fun f => ⟨_, rfl, fun r hr => ?_⟩
    by_cases he : r = route
    · exact Or.inr (he ▸ hgone)
    · cases howned r hr with
      | inl hr' =>
        exact Or.inl (List.mem_filter.mpr ⟨hr', by simpa using he⟩)
      | inr hr' =>
        exact Or.inr hr'
  have hless' : ∀ f, Lessened [route] w
      { w' with journal := some { j with owned := j.owned.filter (· ≠ route) }, file := f } := by
    refine fun f => ⟨hless.state, ?_, hless.kept, hless.old⟩
    rw [← hless.snapshot, hj]
    rfl
  exact save_runs (fun _ hr => hr) (hI _ (hless' w'.file)) rfl (hI _ (hless' _)) (hI _ (hless' w'.file))
    ⟨hstruck _, hless' _, hgone⟩ (fun _ => ⟨hstruck _, hless' _⟩) (fun _ => ⟨hstruck w'.file, hless' w'.file⟩)

/-- A removal step, whatever fails in it, takes away no other route; if it returns
its own route is gone. -/
theorem removeOwned_lessens {route : RouteEntry} (h : Tracks owned w) (hroute : route ∈ owned)
    (hI : ∀ m, Lessened [route] w m.after → I m) :
    Runs Quiet I (removeOwned route)
      (fun _ w' => Tracks owned w' ∧ Lessened [route] w w' ∧ route ∉ w'.table)
      (fun _ w' => Tracks owned w' ∧ Lessened [route] w w') w := by
  obtain ⟨j, hj, howned⟩ := h
  have hsame := Lessened.refl [route] w
  refine Runs.bind (theJournal_runs hj (Runs.ite (fun _ => ?_) (fun hc => Runs.pure ?_)))
  · -- whatever the delete does, what is left is this
    have hdeleted : ∀ reply : RouteReply D, Tracks owned (routeDeleted reply route w) ∧
        Lessened [route] w (routeDeleted reply route w) := by
      intro reply
      unfold routeDeleted
      split
      · rw [RoutePlanner.not_sameIdentity]
        refine ⟨⟨j, hj, fun r hr => ?_⟩, ⟨rfl, rfl, fun r hr => ?_, fun r hr => (List.mem_filter.mp hr).1⟩⟩
        · cases howned r hr with
          | inl hr' =>
            exact Or.inl hr'
          | inr hr' =>
            exact Or.inr (fun ht => hr' (List.mem_filter.mp ht).1)
        · by_cases he : r = route
          · exact Or.inr (by simp [he])
          · exact Or.inl (List.mem_filter.mpr ⟨hr, by simpa using he⟩)
      · exact ⟨⟨j, hj, howned⟩, hsame⟩
    refine Runs.bind (Runs.bind (listRoutes_runs (fun _ hr => hr) (hI _ hsame) ?_
      (fun _ => ⟨⟨j, hj, howned⟩, hsame⟩)))
    refine Runs.ite (fun _ => ?_) (fun _ => Runs.pure (strikeGone_lessens ⟨j, hj, howned⟩ hsame hI))
    exact deleteRoute_runs (fun _ hr => hr) (hI _ hsame) (fun r _ => hI _ (hdeleted r).2)
      (fun r _ _ => strikeGone_lessens (hdeleted r).1 (hdeleted r).2 hI) (fun r _ _ _ => hdeleted r)
  · refine ⟨⟨j, hj, howned⟩, hsame, ?_⟩
    cases howned route hroute with
    | inl hr =>
      exact absurd (List.any_eq_true.mpr ⟨route, hr, by simp⟩) hc
    | inr hr =>
      exact hr

/-- A removal loop, whatever fails in it: no other route is taken away, and a
route of the loop is left only if its step threw. -/
theorem removals_lessen {l : List RouteEntry} (h : Tracks owned w) (hl : ∀ r ∈ l, r ∈ owned)
    (hI : ∀ m, Lessened l w m.after → I m) {X : Err → RouteWorld D → Prop} :
    Runs Quiet I (collect removeOwned l)
      (fun es w' => Tracks owned w' ∧ Lessened l w w' ∧ ∀ r ∈ l, r ∈ w'.table → r ∈ es.map Prod.fst) X w := by
  let J : List RouteEntry → List (RouteEntry × Err) → RouteWorld D → Prop := fun done es w' =>
    Tracks owned w' ∧ Lessened l w w' ∧ ∀ r ∈ done, r ∈ w'.table → r ∈ es.map Prod.fst
  refine Runs.collect_prefix (J := J) ?_ ⟨h, Lessened.refl l w, by simp⟩
  intro done r left es hsplit w' h'
  obtain ⟨htracks, hless, hdone⟩ := h'
  have hr : r ∈ l := by simp [hsplit]
  have hone : ∀ x ∈ [r], x ∈ l := fun x hx => List.mem_singleton.mp hx ▸ hr
  refine (removeOwned_lessens htracks (hl r hr) (fun m hm => hI m (hless.trans hm hone))).mono ?_ ?_
  · intro _ w'' h''
    refine ⟨h''.1, hless.trans h''.2.1 hone, fun x hx ht => ?_⟩
    cases List.mem_append.mp hx with
    | inl hx =>
      exact hdone x hx (h''.2.1.old x ht)
    | inr hx =>
      rw [List.mem_singleton.mp hx] at ht
      exact absurd ht h''.2.2
  · intro e w'' h''
    refine ⟨h''.1, hless.trans h''.2 hone, fun x hx ht => ?_⟩
    rw [List.map_append, List.mem_append]
    cases List.mem_append.mp hx with
    | inl hx =>
      exact Or.inl (hdone x hx (h''.2.old x ht))
    | inr hx =>
      exact Or.inr (by simp [List.mem_singleton.mp hx])

end Removals

/-! ## The order of a rollback -/

/-- The entries of the journal from the first /1 route of the split default on. -/
def lateRoutes (context : GatewayContext) (j : RouteJournal D) : List RouteEntry :=
  j.owned.dropWhile (· ∉ RoutePlanner.default context)

/-- The entries before that. -/
def earlyRoutes (context : GatewayContext) (j : RouteJournal D) : List RouteEntry :=
  j.owned.takeWhile (· ∉ RoutePlanner.default context)

theorem early_append_late (context : GatewayContext) (j : RouteJournal D) :
    earlyRoutes context j ++ lateRoutes context j = j.owned :=
  List.takeWhile_append_dropWhile

theorem default_mem_lateRoutes {context : GatewayContext} {j : RouteJournal D} {d : RouteEntry}
    (hd : d ∈ RoutePlanner.default context) (ho : d ∈ j.owned) : d ∈ lateRoutes context j := by
  rw [← early_append_late context j, List.mem_append] at ho
  cases ho with
  | inl he =>
    have := List.mem_takeWhile_imp he
    simp [hd] at this
  | inr hl =>
    exact hl

/-- The first removal steps of a rollback: those for the late routes. -/
def removeLate (context : GatewayContext) (j : RouteJournal D) : RouteM D (List (RouteEntry × Err)) :=
  collect removeOwned (lateRoutes context j).reverse

section Order
variable [DecidableEq D] {context : GatewayContext} {j : RouteJournal D} {w : RouteWorld D}
  {s : Nat → RouteReply D}

/-- What a rollback does after that. -/
def afterLate (context : GatewayContext) (j : RouteJournal D) (late : List (RouteEntry × Err)) :
    RouteM D Unit := do
  let early ← collect removeOwned (earlyRoutes context j).reverse
  let errors ← undoChangedDns ((late ++ early).map Prod.snd)
  finishRollback errors

theorem rollbackInternal_journal (hj : w.journal = some j) :
    rollbackInternal s w = (rollbackErrors j >>= finishRollback) s { w with state := .rollingBack } := by
  simp [rollbackInternal, bind, andThen, get, getThe, MonadStateOf.get, hj, setState, modify, modifyGet,
    MonadStateOf.modifyGet, Ran.after]

theorem rollbackInternal_eq (context : GatewayContext) (hj : w.journal = some j) :
    rollbackInternal s w = (removeLate context j).andThen (afterLate context j) raise s
      { w with state := .rollingBack } := by
  have hsplit : j.owned.reverse = (lateRoutes context j).reverse ++ (earlyRoutes context j).reverse := by
    rw [← List.reverse_append, early_append_late]
  have hlate : (rollbackErrors j >>= finishRollback : RouteM D Unit) =
      (removeLate context j).andThen (afterLate context j) raise := by
    show ((collect removeOwned j.owned.reverse).andThen _ raise).andThen _ raise = _
    rw [hsplit, collect_append, andThen_assoc, andThen_assoc]
    simp only [andThen_assoc, ret_andThen, raise_andThen]
    rfl
  rw [rollbackInternal_journal hj, hlate]

omit [DecidableEq D] in
theorem edited_quiet (w : RouteWorld D) {r : RouteReply D} (hr : Quiet r) : w.edited r.foreign = w := by
  unfold RouteWorld.edited
  rw [show r.foreign = [] from hr]
  rfl

omit [DecidableEq D] in
/-- Taking routes away, seen from a table `T` they come from. -/
theorem shrinking_moves (T : List RouteEntry) :
    RemovalMoves Quiet (fun m => ∀ r ∈ m.after.table, r ∈ T)
      (fun w : RouteWorld D => ∀ r ∈ w.table, r ∈ T) where
  foreign := fun w r h hr => by
    rw [edited_quiet w hr]
    exact ⟨h, h⟩
  strike := fun _ _ _ h _ => h
  flag := fun _ _ _ h _ => h
  save := fun _ _ h _ => ⟨h, h, h⟩
  delete := fun _ _ _ h _ _ =>
    have hless := fun r hr => h r (List.mem_filter.mp hr).1
    ⟨h, hless, hless⟩
  dns := fun _ _ h => ⟨h, h, h⟩

/-- After the late routes nothing comes back. -/
theorem afterLate_shrinks (hw : w.journal.isSome) (late : List (RouteEntry × Err)) :
    Runs Quiet (fun m => ∀ r ∈ m.after.table, r ∈ w.table) (afterLate context j late) (fun _ _ => True)
      (fun _ _ => True) w := by
  have M : RemovalMoves Quiet _ (fun w' : RouteWorld D => ∀ r ∈ w'.table, r ∈ w.table) :=
    shrinking_moves w.table
  have hopen : Open (fun w' : RouteWorld D => ∀ r ∈ w'.table, r ∈ w.table) w := ⟨fun _ hr => hr, hw⟩
  refine Runs.bind ((removals_moves (X := fun _ _ => True) M _ hopen).mono (fun early w' h' => ?_) (fun _ _ _ => trivial))
  refine Runs.bind ((undoChangedDns_moves M _ w' h').mono (fun errors w'' h'' => ?_) (fun _ _ _ => trivial))
  refine Runs.bind (Runs.modify (Runs.ite (fun _ => ?_) (fun _ => ?_)))
  · exact Runs.bind (Runs.modify (Runs.throw trivial))
  · exact Runs.bind (Runs.effect h''.1 (Runs.bind (Runs.modify (Runs.modify trivial))))

/-- A rollback of the journal `j` takes the split default away before what was
journalled earlier. It begins with the removal steps for the late routes, and at
every moment of these every other route of `w` is in the table; at every moment
after them a /1 route that the journal owned is in the table only if its removal
step failed. -/
def DefaultFirst (context : GatewayContext) (j : RouteJournal D) (s : Nat → RouteReply D)
    (w : RouteWorld D) : Prop :=
  ∃ failed later,
    (removeLate context j s { w with state := .rollingBack }).result = .ok failed ∧
    (rollbackInternal s w).trace =
      (removeLate context j s { w with state := .rollingBack }).trace ++ later ∧
    (∀ m ∈ (removeLate context j s { w with state := .rollingBack }).trace,
      ∀ r ∈ w.table, r ∉ lateRoutes context j → r ∈ m.after.table) ∧
    ∀ m ∈ later, ∀ d ∈ RoutePlanner.default context, d ∈ j.owned → d ∈ m.after.table →
      d ∈ failed.map Prod.fst

theorem rollbackInternal_defaultFirst (hj : w.journal = some j) (hq : ∀ n, Quiet (s n)) :
    DefaultFirst context j s w := by
  let w₁ : RouteWorld D := { w with state := .rollingBack }
  let r₁ := removeLate context j s w₁
  obtain ⟨failed, hfailed⟩ : ∃ failed, r₁.result = .ok failed := collect_returns _ _ _ _
  have htracks : Tracks j.owned w₁ := ⟨j, hj, fun r hr => Or.inl hr⟩
  have hlate : ∀ r ∈ (lateRoutes context j).reverse, r ∈ j.owned := by
    intro r hr
    rw [← early_append_late context j, List.mem_append]
    exact Or.inr (List.mem_reverse.mp hr)
  have hruns : Runs Quiet (fun m => Lessened (lateRoutes context j).reverse w₁ m.after) (removeLate context j) _
      (fun _ _ => False) w₁ := removals_lessen htracks hlate (fun _ hm => hm)
  obtain ⟨hmoments, hend, hrest⟩ := hruns s hq
  refine ⟨failed, (afterLate context j failed r₁.rest r₁.world).trace, hfailed, ?_, ?_, ?_⟩
  · rw [rollbackInternal_eq context hj]
    exact trace_andThen hfailed
  · intro m hm r hr hnot
    cases (hmoments m hm).kept r hr with
    | inl ht =>
      exact ht
    | inr ht =>
      exact absurd (List.mem_reverse.mp ht) hnot
  · rw [show (removeLate context j s w₁).result = .ok failed from hfailed] at hend
    obtain ⟨⟨j', hj', _⟩, _, hgone⟩ := hend
    have hjournal : r₁.world.journal.isSome := by
      rw [show r₁.world.journal = some j' from hj']
      rfl
    have hafter : Runs Quiet _ (afterLate context j failed) _ _ r₁.world := afterLate_shrinks hjournal failed
    intro m hm d hd howned ht
    refine hgone d ?_ ((hafter r₁.rest hrest).1 m hm d ht)
    exact List.mem_reverse.mpr (default_mem_lateRoutes hd howned)

omit [DecidableEq D] in
/-- The protection since the activation is journalled before the split default. -/
theorem Protecting.not_mem_lateRoutes {orig : List RouteEntry} {prev : List IPAddress}
    {since : IPAddress → Prop} {front back : List RouteEntry}
    (h : Protecting orig context prev since j front back w) {r : RouteEntry} (hr : r ∈ front) :
    r ∉ lateRoutes context j := by
  obtain ⟨routes, hp, hroutes⟩ := h.protection
  obtain ⟨_, _, hmem⟩ := RoutePlanner.mem_protect hp
  have hfront : ∀ x ∈ front, decide (x ∉ RoutePlanner.default context) = true := by
    intro x hx
    obtain ⟨ip, _, rfl⟩ := (hmem x).mp ((hroutes x).mpr (Or.inl hx))
    have hhost := RoutePlanner.isHostRoute_protectOne j.snapshot ip
    rw [decide_eq_true_eq]
    intro hd
    rw [RoutePlanner.isHostRoute_default hd] at hhost
    exact absurd hhost (by simp)
  have hlate : ∀ x ∈ lateRoutes context j, x ∈ RoutePlanner.default context ++ back := by
    intro x hx
    unfold lateRoutes at hx
    rw [h.owned, List.append_assoc, List.dropWhile_append_of_pos hfront] at hx
    exact (List.dropWhile_suffix _).mem hx
  have hnodup := h.inStep.nodup
  rw [h.owned, List.append_assoc, List.nodup_append] at hnodup
  exact fun hl => hnodup.2.2 r hr r (hlate r hl) rfl

end Order

/-! ## Which routes outlast which -/

/-- The routes in the table. -/
def RouteWorld.routes (w : RouteWorld D) : Set RouteEntry := fun r => r ∈ w.table

/-- A program of the rollback: it deletes some of the routes `l`, in that order, and
changes the table in no other way. -/
abbrev Deletes {α : Type} (l : List RouteEntry) (x : RouteM D α) : Prop :=
  Depleting Quiet RouteWorld.routes RouteEvent.deleted l x

section Deletes

theorem reply_deletes {α : Type} {l : List RouteEntry} {f : RouteReply D → RouteM D α}
    (hf : ∀ r, Deletes l (f r)) : Deletes l (reply >>= f) := by
  have hreply : Deletes [] (reply : RouteM D (RouteReply D)) := by
    refine Depleting.ask (fun r hr => Depleting.seq (Depleting.effect rfl (fun w => ?_)) (fun _ => Depleting.pure r))
    rw [show r.foreign = [] from hr]
    rfl
  exact Depleting.seq hreply hf

theorem listRoutes_deletes : Deletes [] (listRoutes : RouteM D (List RouteEntry)) :=
  reply_deletes (fun r => Depleting.seq (Depleting.outcome r.err) (fun _ =>
    Depleting.get (fun w => Depleting.pure w.table)))

theorem theJournal_deletes : Deletes [] (theJournal : RouteM D (RouteJournal D)) := by
  refine Depleting.get (fun w => ?_)
  cases w.journal with
  | none => exact Depleting.throw _
  | some j => exact Depleting.pure j

theorem setJournal_deletes (j : Option (RouteJournal D)) : Deletes [] (setJournal j) :=
  Depleting.modify (fun _ => rfl)

theorem save_deletes : Deletes [] (save : RouteM D Unit) := by
  refine reply_deletes (fun r => Depleting.seq (Depleting.effect rfl (fun w => ?_)) (fun _ => Depleting.outcome r.err))
  split
  · rfl
  · rfl

theorem deleteRoute_deletes (route : RouteEntry) : Deletes [route] (deleteRoute route : RouteM D Unit) := by
  have htaken : ∀ (r : RouteReply D) (w : RouteWorld D),
      (if r.applied then { w with table := w.table.filter (fun x => !RoutePlanner.sameIdentity x route) } else w).routes =
          w.routes ∨
        (if r.applied then { w with table := w.table.filter (fun x => !RoutePlanner.sameIdentity x route) } else w).routes =
          w.routes \ {route} := by
    intro r w
    split
    · refine .inr (Set.ext (fun x => ?_))
      show x ∈ w.table.filter (fun x => !RoutePlanner.sameIdentity x route) ↔ x ∈ w.table ∧ x ≠ route
      rw [RoutePlanner.not_sameIdentity, List.mem_filter, decide_eq_true_eq]
    · exact .inl rfl
  refine reply_deletes (fun r => ?_)
  exact Depleting.last (Depleting.effect_take rfl (htaken r)) (fun _ => Depleting.outcome r.err)

/-- A removal step deletes its route. -/
theorem removeOwned_deletes (route : RouteEntry) : Deletes [route] (removeOwned route : RouteM D Unit) := by
  have hlisted : Deletes [route] (deleteListed route : RouteM D Unit) :=
    Depleting.seq listRoutes_deletes (fun _ => Depleting.ite (deleteRoute_deletes route)
      ((Depleting.pure ()).mono (List.nil_sublist _)))
  have hstruck : Deletes [] (strikeGone route : RouteM D Unit) := by
    refine Depleting.seq listRoutes_deletes (fun _ => Depleting.seq (Depleting.refuse _) (fun _ => ?_))
    exact Depleting.seq theJournal_deletes (fun _ => Depleting.seq (setJournal_deletes _) (fun _ => save_deletes))
  refine Depleting.seq theJournal_deletes (fun j => Depleting.ite ?_ ((Depleting.pure ()).mono (List.nil_sublist _)))
  exact Depleting.last hlisted (fun _ => hstruck)

variable [DecidableEq D]

theorem undoDns_deletes : Deletes [] (undoDns : RouteM D Unit) := by
  refine Depleting.seq theJournal_deletes (fun j => Depleting.seq (reply_deletes (fun r => ?_)) (fun _ =>
    Depleting.seq (setJournal_deletes _) (fun _ => save_deletes)))
  cases j.snapshot.dnsState with
  | none => exact Depleting.throw _
  | some captured =>
    refine Depleting.seq (Depleting.each (fun d => ?_) r.dnsPath) (fun _ => ?_)
    · exact Depleting.effect rfl (fun _ => rfl)
    · exact Depleting.seq (Depleting.outcome r.err) (fun _ => Depleting.effect rfl (fun _ => rfl))

theorem undoChangedDns_deletes (errors : List Err) : Deletes [] (undoChangedDns errors : RouteM D (List Err)) :=
  Depleting.seq theJournal_deletes (fun _ => Depleting.seq (Depleting.attemptIf undoDns_deletes)
    (fun _ => Depleting.pure _))

/-- The cleanup steps delete the owned routes, the last one noted first. -/
theorem rollbackErrors_deletes (j : RouteJournal D) : Deletes j.owned.reverse (rollbackErrors j) :=
  Depleting.last (Depleting.collect removeOwned_deletes j.owned.reverse) (fun _ => undoChangedDns_deletes _)

omit [DecidableEq D] in
theorem finishRollback_deletes (errors : List Err) : Deletes [] (finishRollback errors : RouteM D Unit) := by
  refine Depleting.seq (Depleting.modify (fun _ => rfl)) (fun _ => Depleting.ite ?_ ?_)
  · exact Depleting.seq (Depleting.modify (fun _ => rfl)) (fun _ => Depleting.throw _)
  · exact Depleting.seq (Depleting.effect rfl (fun _ => rfl)) (fun _ =>
      Depleting.seq (Depleting.modify (fun _ => rfl)) (fun _ => Depleting.modify (fun _ => rfl)))

/-- A rollback deletes the owned routes, the last one noted first. -/
theorem rollbackInternal_deletes {j : RouteJournal D} {w : RouteWorld D} {s : Nat → RouteReply D}
    (hj : w.journal = some j) (hq : ∀ n, Quiet (s n)) :
    (∃ w', Depletes RouteWorld.routes RouteEvent.deleted w (rollbackInternal s w).trace w') ∧
      (labels RouteEvent.deleted (rollbackInternal s w).trace).Sublist j.owned.reverse := by
  have hall : Deletes j.owned.reverse (rollbackErrors j >>= finishRollback) :=
    Depleting.last (rollbackErrors_deletes j) (fun errors => finishRollback_deletes errors)
  obtain ⟨ht, hl, -⟩ := hall s { w with state := .rollingBack } hq
  rw [rollbackInternal_journal hj]
  exact ⟨⟨_, ht.from_view rfl⟩, hl⟩

end Deletes

/-- **What a rollback keeps until the split default is gone.** From every world
with a journal in memory and whatever fails, a rollback takes the split default
away before everything journalled earlier. After an activation and any number of
updates the routes journalled earlier include the protection of the physical
gateway and of every endpoint that all of them named. -/
theorem rollback_default_before_protection [DecidableEq D] (context : GatewayContext) :
    (∀ (w : RouteWorld D) (j : RouteJournal D) (s : Nat → RouteReply D), w.journal = some j →
      (∀ n, Quiet (s n)) → DefaultFirst context j s w) ∧
    ∀ (w₀ : RouteWorld D) (s₀ : Nat → RouteReply D) (us : List (List IPAddress × (Nat → RouteReply D))),
      Untouched w₀ → (∀ n, Honest (s₀ n)) → (∀ u ∈ us, ∀ n, Honest (u.2 n)) →
      let w := (us.foldl updated (context.endpoints, (activate context s₀ w₀).world)).2
      w.state = .gatewayActive → ∃ j, w.journal = some j ∧
        ∀ ip, (ip ∈ context.endpoints ∧ ∀ u ∈ us, ip ∈ u.1) ∨
            IPAddress.tryParse j.snapshot.physicalGateway = some ip →
          RoutePlanner.protectOne j.snapshot ip ∈ w.table ∧
            RoutePlanner.protectOne j.snapshot ip ∉ lateRoutes context j := by
  refine ⟨fun w j s hj hq => rollbackInternal_defaultFirst hj hq, ?_⟩
  intro w₀ s₀ us h hs₀ hus w hst
  have hactive : _ ∧ InForce w₀.table w₀.dns context _ _ (activate context s₀ w₀).world := inForce_activate h hs₀
  have hforce := hactive.2.updates us hus
  rcases hforce.2 with ⟨j, front, back, hprot⟩ | hclosed
  · refine ⟨j, hprot.inStep.journal, fun ip hip => ?_⟩
    have hfront := hprot.since ip hip
    refine ⟨?_, hprot.not_mem_lateRoutes hfront⟩
    show _ ∈ (us.foldl updated (context.endpoints, (activate context s₀ w₀).world)).2.table
    rw [hprot.inStep.table, hprot.owned]
    simp [hfront]
  · exact absurd hst hclosed.inactive

/-- The /32 routes that the journal's snapshot gives to addresses. -/
def RouteJournal.Protects (j : RouteJournal D) (r : RouteEntry) : Prop :=
  ∃ ip, r = RoutePlanner.protectOne j.snapshot ip

/-- The protection that stood in `w` stands in `v`, unless no /1 route does. -/
def ShieldedSince (context : GatewayContext) (j : RouteJournal D) (w v : RouteWorld D) : Prop :=
  (∃ d ∈ RoutePlanner.default context, d ∈ v.table) → ∀ r, j.Protects r → r ∈ w.table → r ∈ v.table

/-- The routes a rollback takes out are those whose deletion its replies let take effect. -/
theorem rollbackInternal_takenOut [DecidableEq D] {j : RouteJournal D} {w : RouteWorld D}
    {s : Nat → RouteReply D} {r : RouteEntry} (hj : w.journal = some j) (hnodup : j.owned.Nodup)
    (hq : ∀ n, Quiet (s n)) :
    TakenOut RouteWorld.routes RouteEvent.deleted r (rollbackInternal s w).trace ↔
      DeletionTakesEffect w.table r j.owned.reverse s := by
  have hremoved : Deletes j.owned.reverse (collect removeOwned j.owned.reverse : RouteM D _) :=
    Depleting.collect removeOwned_deletes j.owned.reverse
  have hloop := removals_deleted w.table r j.owned.reverse (s := s)
    (w := { w with state := .rollingBack }) hq hj (fun x hx => List.mem_reverse.mp hx)
    (List.nodup_reverse.mpr hnodup) (fun _ _ => Iff.rfl)
  rw [rollbackInternal_journal hj, rollbackErrors, bind_bind]
  refine (hremoved.takenOut_bind (fun errors => ?_) hq).trans hloop
  exact Depleting.seq (undoChangedDns_deletes _) (fun errors => finishRollback_deletes errors)

/-- **When the split default goes first.** In every state of every run, and whatever
fails in it, a rollback keeps the protection in the table while a /1 route is there,
exactly when every protection route whose deletion takes effect stands in the journal
before each /1 route of the table, and the deletion of that takes effect too. -/
theorem rollback_default_first_iff [DecidableEq D] (context : GatewayContext) (w₀ : RouteWorld D)
    (h : Untouched w₀) (steps : List (Step (RouteReply D) RouteOp)) (j : RouteJournal D)
    (hj : ((routeSystem D).final w₀ steps).journal = some j) (s : Nat → RouteReply D)
    (hq : ∀ n, Quiet (s n)) :
    let w := (routeSystem D).final w₀ steps
    (∀ m ∈ (rollbackInternal s w).trace,
        ShieldedSince context j w m.before ∧ ShieldedSince context j w m.after) ↔
      ∀ r, j.Protects r → r ∈ w.table → DeletionTakesEffect w.table r j.owned.reverse s →
        ∀ d ∈ RoutePlanner.default context, d ∈ w.table →
          [r, d].Sublist j.owned ∧ DeletionTakesEffect w.table d j.owned.reverse s := by
  intro w
  have hnodup : j.owned.reverse.Nodup := List.nodup_reverse.mpr ((final_distinct h steps).memory j hj)
  replace hj : w.journal = some j := hj
  clear_value w
  have hhost : ∀ r, j.Protects r → r ∉ RoutePlanner.default context := by
    intro r hr hd
    obtain ⟨ip, rfl⟩ := hr
    have htrue := RoutePlanner.isHostRoute_protectOne j.snapshot ip
    rw [RoutePlanner.isHostRoute_default hd] at htrue
    cases htrue
  have hout : ∀ r, TakenOut RouteWorld.routes RouteEvent.deleted r (rollbackInternal s w).trace ↔
      DeletionTakesEffect w.table r j.owned.reverse s :=
    fun r => rollbackInternal_takenOut hj (List.nodup_reverse.mp hnodup) hq
  have horder : ∀ r d : RouteEntry, [d, r].Sublist j.owned.reverse ↔ [r, d].Sublist j.owned :=
    fun r d => @List.reverse_sublist _ [r, d] j.owned
  obtain ⟨⟨w', ht⟩, hl⟩ := rollbackInternal_deletes hj hq
  have hiff := ht.outlasts_iff hl hnodup (S := {r | j.Protects r})
    (D := {d | d ∈ RoutePlanner.default context}) hhost
  simp only [hout, horder] at hiff
  exact hiff

/-- The machine at home with the gateway active. -/
def activeHome : RouteWorld Bool := (activate homeContext goodScript homeWorld).world

/-- The same after an update that adds an endpoint. -/
def movedHome : RouteWorld Bool :=
  (updateProtection [.v4 192 0 2 10, .v4 203 0 113 2, .v4 198 51 100 7] goodScript activeHome).world

/-- Replies that deny the deletion of the two /1 routes. -/
def deniedScript : Nat → RouteReply Bool := fun n =>
  if n = 1 ∨ n = 3 then { goodReply with applied := false, err := some (.io "denied") } else goodReply

/-- Two rollbacks that remove a protection route while a /1 route is in the table:
one without any failure, after an update has added the endpoint, and one right
after the activation in which the deletion of the /1 routes is denied. -/
theorem rollback_protection_before_default :
    (∃ m ∈ (rollback goodScript movedHome).trace,
      (∃ d ∈ RoutePlanner.default homeContext, d ∈ m.after.table) ∧
      ⟨"198.51.100.7/32", "192.168.1.1", 2, 1⟩ ∈ movedHome.table ∧
      ⟨"198.51.100.7/32", "192.168.1.1", 2, 1⟩ ∉ m.after.table) ∧
    ∃ m ∈ (rollbackInternal deniedScript activeHome).trace,
      (∃ d ∈ RoutePlanner.default homeContext, d ∈ m.after.table) ∧
      ⟨"203.0.113.2/32", "192.168.1.1", 2, 1⟩ ∈ activeHome.table ∧
      ⟨"203.0.113.2/32", "192.168.1.1", 2, 1⟩ ∉ m.after.table := by
  decide +kernel

/-- The activation at home, as a run. -/
def homeActivation : List (Step (RouteReply Bool) RouteOp) := [.call (.activate homeContext) goodScript]

/-- Without an update, and without a failure, the rollback at home takes the split
default first. -/
theorem rollback_default_first_home : ∃ j, ((routeSystem Bool).final homeWorld homeActivation).journal = some j ∧
    ∀ m ∈ (rollbackInternal goodScript ((routeSystem Bool).final homeWorld homeActivation)).trace,
      ShieldedSince homeContext j ((routeSystem Bool).final homeWorld homeActivation) m.after := by
  have hjournal : ((routeSystem Bool).final homeWorld homeActivation).journal.isSome = true := by decide +kernel
  have howned : ∀ r ∈ ((routeSystem Bool).final homeWorld homeActivation).table, RoutePlanner.isHostRoute r = true →
      ∀ d ∈ RoutePlanner.default homeContext,
        [r, d].Sublist ((((routeSystem Bool).final homeWorld homeActivation).journal.map RouteJournal.owned).getD []) ∧
          DeletionTakesEffect ((routeSystem Bool).final homeWorld homeActivation).table d
            ((((routeSystem Bool).final homeWorld homeActivation).journal.map RouteJournal.owned).getD []).reverse
            goodScript := by
    decide +kernel
  obtain ⟨j, hj⟩ := Option.isSome_iff_exists.mp hjournal
  rw [hj] at howned
  refine ⟨j, hj, fun m hm => ?_⟩
  refine ((rollback_default_first_iff homeContext homeWorld homeWorld_untouched homeActivation j hj goodScript
    goodScript_quiet).mpr ?_ m hm).2
  intro r hr hrw _ d hd _
  obtain ⟨ip, rfl⟩ := hr
  exact howned _ hrw (RoutePlanner.isHostRoute_protectOne j.snapshot ip) d hd

end EasyTierHost
