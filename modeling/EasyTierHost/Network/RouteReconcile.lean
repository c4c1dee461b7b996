import EasyTierHost.Network.RouteRollbackOrder

/- `ReconcileAsync` after other programs have changed the route table or the
   physical default. What the controller relies on is in its memory: in every
   reachable state, whatever was edited and whatever failed, an active gateway
   holds a journal that says DNS may have changed (`ActiveJournal`). So a
   rollback that returns has restored DNS, and has looked for every owned route
   after its removal; a route that was already gone is no obstacle, and one that
   stands in its place has another identity. -/
namespace EasyTierHost
open Effects Effects.Prog GatewayRouteController

variable {D : Type}

/-! ## What the controller remembers -/

/-- The journal in memory is of the snapshot `s`, with this DNS flag, and the
controller is in the state `st`. -/
def Remembers (s : RouteSnapshot D) (flag : Bool) (st : GatewayState) (w : RouteWorld D) : Prop :=
  ∃ owned, w.journal = some ⟨s, owned, flag⟩ ∧ w.state = st

/-- An active gateway has a journal that says DNS may have changed. -/
def ActiveJournal (w : RouteWorld D) : Prop :=
  w.state = .gatewayActive → ∃ s, Remembers s true .gatewayActive w

section Memory
variable {ok : RouteReply D → Prop} {s : RouteSnapshot D} {flag : Bool} {st : GatewayState} {w : RouteWorld D}

theorem ActiveJournal.of_inactive (h : w.state ≠ .gatewayActive) : ActiveJournal w := fun hst => absurd hst h

theorem ActiveJournal.of_same {w' : RouteWorld D} (h : ActiveJournal w) (hj : w'.journal = w.journal)
    (hst : w'.state = w.state) : ActiveJournal w' := by
  intro hactive
  obtain ⟨s, owned, hjournal, _⟩ := h (hst.symm.trans hactive)
  exact ⟨s, owned, hj.trans hjournal, hactive⟩

theorem Remembers.isSome (h : Remembers s flag st w) : w.journal.isSome := by
  obtain ⟨_, hj, _⟩ := h
  rw [hj]
  rfl

theorem Holding.remembers {owned : List RouteEntry}
    (h : Holding (fun w => w.state = st) (some ⟨s, owned, flag⟩) w) : Remembers s flag st w :=
  ⟨owned, h.2, h.1⟩

/-- `AddOwnedAsync` that returns has put the route at the end of the journal. -/
theorem addOwned_notes (route : RouteEntry) {owned : List RouteEntry}
    (h : Holding (fun w => w.state = st) (some ⟨s, owned, flag⟩) w) :
    Runs ok (fun _ => True) (addOwned route)
      (fun _ => Holding (fun w => w.state = st) (some ⟨s, owned ++ [route], flag⟩))
      (fun _ => Remembers s flag st) w := by
  have M : TransactionMoves ok _ (fun w : RouteWorld D => w.state = st) := stays_moves st (fun _ _ _ => trivial)
  refine Runs.bind ((listRoutes_moves M.toRemovalMoves h).mono (fun current w' h' => ?_)
    (fun _ _ h' => h'.remembers))
  refine Runs.bind (Runs.refuse (fun _ => ?_) (fun _ => h'.1.remembers))
  refine Runs.bind (theJournal_holding h'.1 (Runs.bind (Runs.modify ?_)))
  have hnoted : Holding (fun w : RouteWorld D => w.state = st) (some ⟨s, owned ++ [route], flag⟩)
      { w' with journal := some ⟨s, owned ++ [route], flag⟩ } := ⟨h'.1.1, rfl⟩
  refine Runs.bind ((save_moves M.toRemovalMoves hnoted).mono (fun _ w'' h'' => ?_)
    (fun _ _ h'' => h''.remembers))
  exact (addRoute_moves M h'' (by simp)).mono (fun _ _ h => h) (fun _ _ h => h.remembers)

/-- `RemoveOwnedAsync` that returns has struck the route from the journal. -/
theorem removeOwned_strikes (route : RouteEntry) {owned : List RouteEntry}
    (h : Holding (fun w => w.state = st) (some ⟨s, owned, flag⟩) w) :
    Runs ok (fun _ => True) (removeOwned route)
      (fun _ => Holding (fun w => w.state = st) (some ⟨s, owned.filter (· ≠ route), flag⟩))
      (fun _ => Remembers s flag st) w := by
  have M : RemovalMoves ok _ (fun w : RouteWorld D => w.state = st) :=
    (stays_moves st (fun _ _ _ => trivial)).toRemovalMoves
  refine Runs.bind (theJournal_holding h (Runs.ite (fun hc => ?_) (fun hc => Runs.pure ?_)))
  · obtain ⟨r, hr, he⟩ := List.any_eq_true.mp hc
    rw [RoutePlanner.sameIdentity_iff] at he
    subst he
    refine Runs.bind ((deleteListed_moves M h hr).mono (fun _ w' h' => ?_) (fun _ _ h' => h'.remembers))
    refine Runs.bind ((listRoutes_moves M h').mono (fun _ w'' h'' => ?_) (fun _ _ h'' => h''.remembers))
    refine Runs.bind (Runs.refuse (fun _ => ?_) (fun _ => h''.1.remembers))
    refine Runs.bind (theJournal_holding h''.1 (Runs.bind (Runs.modify ?_)))
    rw [RoutePlanner.not_sameIdentity]
    have hstruck : Holding (fun w : RouteWorld D => w.state = st) (some ⟨s, _, flag⟩)
        { w'' with journal := some ⟨s, owned.filter (· ≠ r), flag⟩ } := ⟨h''.1.1, rfl⟩
    exact (save_moves M hstruck).mono (fun _ _ h => h) (fun _ _ h => h.remembers)
  · have hnot : owned.filter (· ≠ route) = owned := by
      refine List.filter_eq_self.mpr (fun r hr => ?_)
      have hne : r ≠ route := fun he => hc (List.any_eq_true.mpr ⟨r, hr, by simp [he]⟩)
      simpa using hne
    rw [hnot]
    exact h

theorem addOwned_remembers (route : RouteEntry) :
    Keeps ok (fun _ => True) (Remembers s flag st) (addOwned route) := by
  intro w h
  obtain ⟨owned, hj, hst⟩ := h
  exact (addOwned_notes route ⟨hst, hj⟩).mono (fun _ _ h' => h'.remembers) (fun _ _ h' => h')

theorem removeOwned_remembers (route : RouteEntry) :
    Keeps ok (fun _ => True) (Remembers s flag st) (removeOwned route) := by
  intro w h
  obtain ⟨owned, hj, hst⟩ := h
  exact (removeOwned_strikes route ⟨hst, hj⟩).mono (fun _ _ h' => h'.remembers) (fun _ _ h' => h')

theorem Remembers.addAll (h : Remembers s flag st w) (l : List RouteEntry) :
    Runs ok (fun _ => True) (each addOwned l) (fun _ => Remembers s flag st) (fun _ => Remembers s flag st) w :=
  Runs.each_inv (fun r _ w' h' => addOwned_remembers r w' h') h

theorem Remembers.removeAll (h : Remembers s flag st w) (l : List RouteEntry) :
    Runs ok (fun _ => True) (each removeOwned l) (fun _ => Remembers s flag st) (fun _ => Remembers s flag st) w :=
  Runs.each_inv (fun r _ w' h' => removeOwned_remembers r w' h') h

/-! ## Reachable states -/

/-- An activation that runs through leaves the flag up, and one that does not has not
become active. -/
theorem install_remembers {context : GatewayContext} (h : Remembers s false .capturing w) :
    Runs ok (fun _ => True) (install context s) (fun _ => Remembers s true .gatewayActive)
      (fun _ w' => w'.state ≠ .gatewayActive) w := by
  have hinactive : ∀ {flag st} {w' : RouteWorld D}, st ≠ .gatewayActive → Remembers s flag st w' →
      w'.state ≠ .gatewayActive := fun hst h' => by
    rw [h'.choose_spec.2]
    exact hst
  refine Runs.bind (Runs.ofExcept (fun protection _ => ?_) (fun _ _ => hinactive (by simp) h))
  refine Runs.bind ((h.addAll protection).mono (fun _ w h => ?_) (fun _ _ h => hinactive (by simp) h))
  replace h : Remembers s false .underlayProtected { w with state := .underlayProtected } :=
    ⟨_, h.choose_spec.1, rfl⟩
  refine Runs.bind (Runs.modify (Runs.bind (Runs.refuse (fun _ => ?_) (fun _ => hinactive (by simp) h))))
  refine Runs.bind ((h.addAll _).mono (fun _ w h => ?_) (fun _ _ h => hinactive (by simp) h))
  obtain ⟨owned, hj, _⟩ := h
  have hw : Holding (fun w : RouteWorld D => w.state = .probing) (some ⟨s, owned, false⟩)
      { w with state := .probing } := ⟨rfl, hj⟩
  have hprobing : ∀ {j : RouteJournal D} {w' : RouteWorld D},
      Holding (fun w => w.state = .probing) (some j) w' → w'.state ≠ .gatewayActive := fun h' => by
    rw [h'.1]
    simp
  have M : RemovalMoves ok (fun _ => True) (fun w : RouteWorld D => w.state = .probing) :=
    (stays_moves .probing (fun _ _ _ => trivial)).toRemovalMoves
  refine Runs.bind (Runs.modify (Runs.bind ?_))
  refine (checkProbe_moves M hw).mono (fun healthy w h => ?_) (fun _ _ h => hprobing h)
  refine Runs.bind (Runs.refuse (fun _ => ?_) (fun _ => hprobing h))
  refine Runs.bind (theJournal_holding h (Runs.bind (Runs.modify (Runs.bind ?_))))
  have hflagged : Holding (fun w : RouteWorld D => w.state = .probing) (some ⟨s, owned, true⟩)
      { w with journal := some ⟨s, owned, true⟩ } := ⟨h.1, rfl⟩
  refine (save_moves M hflagged).mono (fun _ w h => ?_) (fun _ _ h => hprobing h)
  refine Runs.bind ((applyDns_moves M h).mono (fun _ w h => ?_) (fun _ _ h => hprobing h))
  have hremembers : Remembers s true .probing w := ⟨owned, h.2, h.1⟩
  refine Runs.bind ((hremembers.addAll _).mono (fun _ w h => ?_) (fun _ _ h => hinactive (by simp) h))
  refine Runs.bind ((h.removeAll _).mono (fun _ w h => ?_) (fun _ _ h => hinactive (by simp) h))
  exact Runs.modify ⟨_, h.choose_spec.1, rfl⟩

/-- A call that asks the environment something leaves the controller's memory alone. -/
theorem reply_aside {Q : RouteReply D → RouteWorld D → Prop} {X : Err → RouteWorld D → Prop}
    (hQ : ∀ r w', ok r → w'.journal = w.journal → w'.state = w.state → Q r w') :
    Runs ok (fun _ => True) reply Q X w :=
  Runs.bind (Runs.ask (fun r hr => Runs.bind (Runs.effect trivial (Runs.pure (hQ r _ hr rfl rfl)))))

theorem waitGate_active (h : ActiveJournal w) :
    Runs ok (fun _ => True) waitGate (fun _ => ActiveJournal) (fun _ => ActiveJournal) w :=
  Runs.bind (reply_aside (fun _ _ _ hj hst =>
    Runs.outcome (fun _ => h.of_same hj hst) (fun _ _ => h.of_same hj hst)))

theorem activateTry_active {context : GatewayContext} (h : ActiveJournal w) :
    Runs ok (fun _ => True) (activateTry context) (fun _ => ActiveJournal)
      (fun _ w' => w'.state ≠ .gatewayActive) w := by
  have M : RemovalMoves ok (fun _ => True) (fun w : RouteWorld D => w.state = .capturing) :=
    (stays_moves .capturing (fun _ _ _ => trivial)).toRemovalMoves
  have hcapturing : ∀ {oj : Option (RouteJournal D)} {w' : RouteWorld D},
      Holding (fun w => w.state = .capturing) oj w' → w'.state ≠ .gatewayActive := fun h' => by
    rw [h'.1]
    simp
  refine Runs.bind (Runs.get (Runs.ite (fun _ => Runs.pure h) (fun hst => ?_)))
  refine Runs.bind (Runs.refuse (fun _ => ?_) (fun _ => hst))
  refine Runs.bind (Runs.ofExcept (fun _ _ => Runs.bind (Runs.modify (Runs.bind ?_))) (fun _ _ => hst))
  have hw : Holding (fun w : RouteWorld D => w.state = .capturing) w.journal { w with state := .capturing } :=
    ⟨rfl, rfl⟩
  refine (captureRoutes_moves M hw).mono (fun s w' h' => ?_) (fun _ _ h' => hcapturing h')
  refine Runs.bind (Runs.refuse (fun _ => Runs.bind ?_) (fun _ => hcapturing h'))
  refine (captureDns_moves M h').mono (fun s w'' h'' => ?_) (fun _ _ h'' => hcapturing h'')
  refine Runs.bind (Runs.modify (Runs.bind ?_))
  have hbegun : Holding (fun w : RouteWorld D => w.state = .capturing) (some ⟨s, [], false⟩)
      { w'' with journal := some ⟨s, [], false⟩ } := ⟨h''.1, rfl⟩
  refine (save_moves M hbegun).mono (fun _ w h => ?_) (fun _ _ h => hcapturing h)
  exact (install_remembers ⟨[], h.2, h.1⟩).mono (fun _ _ h hst => ⟨s, h⟩) (fun _ _ h => h)

theorem updateTry_active {endpoints : List IPAddress} (h : ActiveJournal w) :
    Runs ok (fun _ => True) (updateTry endpoints) (fun _ => ActiveJournal)
      (fun _ w' => w'.journal.isSome) w := by
  refine Runs.bind (Runs.get ?_)
  cases hj : w.journal with
  | none => exact Runs.pure h
  | some j =>
    refine Runs.ite (fun _ => Runs.pure h) (fun hst => ?_)
    obtain ⟨s, hremembers⟩ := h (not_not.mp hst)
    refine Runs.bind (Runs.ofExcept (fun desired _ => ?_) (fun _ _ => hremembers.isSome))
    refine Runs.bind (Runs.refuse (fun _ => Runs.bind ?_) (fun _ => hremembers.isSome))
    refine (hremembers.addAll _).mono (fun _ w' h' => ?_) (fun _ _ h' => h'.isSome)
    exact (h'.removeAll _).mono (fun _ _ h'' _ => ⟨s, h''⟩) (fun _ _ h'' => h''.isSome)

variable [DecidableEq D]

/-- A rollback of a journal leaves no active gateway. -/
theorem rollbackInternal_inactive (hw : w.journal.isSome) :
    Runs ok (fun _ => True) rollbackInternal (fun _ w' => w'.state ≠ .gatewayActive)
      (fun _ w' => w'.state ≠ .gatewayActive) w := by
  refine rollbackInternal_removes (stays_moves .rollingBack (fun _ _ _ => trivial)).toRemovalMoves hw rfl
    (fun es w' _ => ?_) (fun _ w' h' => ?_)
  · exact finishRollback_ends (fun _ => ⟨trivial, by simp⟩) (fun _ => by simp)
  · rw [h'.1]
    simp

theorem rollbackInternal_active (h : ActiveJournal w) :
    Runs ok (fun _ => True) rollbackInternal (fun _ => ActiveJournal) (fun _ => ActiveJournal) w := by
  cases hj : w.journal with
  | some j =>
    exact (rollbackInternal_inactive (by simp [hj])).mono (fun _ _ h' => ActiveJournal.of_inactive h')
      (fun _ _ h' => ActiveJournal.of_inactive h')
  | none =>
    refine Runs.bind (Runs.get ?_)
    simp only [hj]
    exact Runs.pure h

/-- Every operation, whatever other programs edit and whatever fails, leaves an
active gateway only with a journal that says DNS may have changed. -/
theorem routeSystem_active (op : RouteOp) :
    Keeps ok (fun _ => True) ActiveJournal ((routeSystem D).exec op) := by
  intro w h
  cases op with
  | recover =>
    refine Runs.seq (waitGate_active h) (fun _ w' h' => Runs.bind (Runs.get ?_))
    refine Runs.ite (fun _ => Runs.bind ?_) (fun _ => Runs.pure h')
    refine Runs.bind (reply_aside (fun r w'' _ hj hst => Runs.bind (Runs.outcome (fun _ => ?_)
      (fun _ _ => h'.of_same hj hst))))
    refine Runs.bind (Runs.get ?_)
    cases w''.file with
    | none => exact Runs.throw (h'.of_same hj hst)
    | some j =>
      refine Runs.pure (Runs.bind (Runs.modify ((rollbackInternal_inactive rfl).mono (fun _ _ h => ?_)
        (fun _ _ h => ?_))))
      · exact ActiveJournal.of_inactive h
      · exact ActiveJournal.of_inactive h
  | activate context =>
    refine Runs.seq (waitGate_active h) (fun _ w' h' => ?_)
    refine Runs.tryCatch ((activateTry_active h').mono (fun _ _ h'' => h'') (fun e w'' h'' => ?_))
    refine Runs.bind (Runs.bind (Runs.get (Runs.ite (fun _ => ?_) (fun _ => ?_))))
    · exact (rollbackInternal_active (ActiveJournal.of_inactive h'')).mono (fun _ _ h => Runs.throw h)
        (fun _ _ h => h)
    · exact Runs.modify (Runs.throw (ActiveJournal.of_inactive (by simp)))
  | updateProtection endpoints =>
    refine Runs.seq (waitGate_active h) (fun _ w' h' => ?_)
    refine Runs.tryCatch ((updateTry_active h').mono (fun _ _ h'' => h'') (fun e w'' h'' => ?_))
    refine Runs.bind (Runs.bind (Runs.get (Runs.ite (fun hj => ?_) (fun hj => absurd h'' hj))))
    exact (rollbackInternal_inactive hj).mono (fun _ _ h => Runs.throw (ActiveJournal.of_inactive h))
      (fun _ _ h => ActiveJournal.of_inactive h)
  | reconcile =>
    refine Runs.seq (waitGate_active h) (fun _ w' h' => Runs.bind (Runs.get ?_))
    cases w'.journal with
    | none => exact Runs.pure h'
    | some j =>
      refine Runs.ite (fun _ => Runs.pure h') (fun _ => Runs.bind (Runs.bind (reply_aside
        (fun r w'' _ hj hst => ?_))))
      have hsame := h'.of_same hj hst
      refine Runs.bind (Runs.outcome (fun _ => Runs.pure ?_) (fun _ _ => hsame))
      refine Runs.ite (fun _ => rollbackInternal_active hsame) (fun _ => Runs.bind (Runs.bind (reply_aside
        (fun r w₃ _ hj hst => ?_))))
      have hsame₃ := hsame.of_same hj hst
      refine Runs.bind (Runs.outcome (fun _ => Runs.bind (Runs.get (Runs.pure ?_))) (fun _ _ => hsame₃))
      exact Runs.ite (fun _ => rollbackInternal_active hsame₃) (fun _ => Runs.pure hsame₃)
  | rollback =>
    exact Runs.seq (waitGate_active h) (fun _ w' h' => rollbackInternal_active h')

/-- In every reachable state. -/
theorem activeJournal_run (steps : List (Step (RouteReply D) RouteOp)) (w₀ : RouteWorld D)
    (h : w₀.state = .physicalOnly) : ActiveJournal ((routeSystem D).final w₀ steps) := by
  have hrestart : ∀ w : RouteWorld D, ActiveJournal w.restart :=
    fun w => ActiveJournal.of_inactive (by simp [RouteWorld.restart])
  have hop : ∀ st ∈ steps, Keeps (fun _ => True) (fun _ => True) ActiveJournal ((routeSystem D).exec st.op) :=
    fun st _ => routeSystem_active st.op
  exact (System.keeps (fun m _ => hrestart m.after) (fun w _ => hrestart w) steps w₀ hop
    (fun _ _ _ => trivial) (ActiveJournal.of_inactive (by simp [h]))).2

end Memory

/-! ## Nothing but owned routes goes -/

/-- `left` is the table `table` less some of the routes `owned`. -/
def Less (table owned left : List RouteEntry) : Prop :=
  ∃ removed : List RouteEntry, (∀ r ∈ removed, r ∈ owned) ∧ left = table.filter (· ∉ removed)

/-- The table is `table` less some of the routes `owned`, and the journal owns no
other routes. -/
structure Pruned (table owned : List RouteEntry) (w : RouteWorld D) : Prop where
  table : Less table owned w.table
  journal : ∀ j, w.journal = some j → ∀ r ∈ j.owned, r ∈ owned

/-- A moment that adds no route and deletes only owned ones. -/
def OwnedOnly (owned : List RouteEntry) (m : Moment RouteEvent (RouteWorld D)) : Prop :=
  (∀ r, m.event ≠ .add r) ∧ ∀ r, m.event = .delete r → r ∈ owned

section Rollback
variable {table owned : List RouteEntry} {w : RouteWorld D}

theorem Pruned.delete (h : Pruned table owned w) {route : RouteEntry} (hr : route ∈ owned) :
    Pruned table owned { w with table := w.table.filter (fun x => !RoutePlanner.sameIdentity x route) } := by
  obtain ⟨removed, hremoved, ht⟩ := h.table
  refine ⟨⟨route :: removed, ?_, ?_⟩, h.journal⟩
  · intro r hmem
    rcases List.mem_cons.mp hmem with rfl | hmem
    · exact hr
    · exact hremoved r hmem
  · show w.table.filter _ = _
    rw [RoutePlanner.not_sameIdentity, ht, List.filter_filter]
    refine List.filter_congr (fun r _ => ?_)
    simp only [List.mem_cons, not_or, Bool.decide_and]

theorem pruned_moves (table owned : List RouteEntry) :
    RemovalMoves Quiet (OwnedOnly owned) (Pruned (D := D) table owned) where
  foreign := fun w r h hr => by
    rw [edited_quiet w hr]
    exact ⟨⟨by simp, by simp⟩, h⟩
  strike := fun w j route h hj => by
    refine ⟨h.table, fun j' hj' r hr => ?_⟩
    cases hj'
    exact h.journal j hj r (List.mem_filter.mp hr).1
  flag := fun w j b h hj => by
    refine ⟨h.table, fun j' hj' r hr => ?_⟩
    cases hj'
    exact h.journal j hj r hr
  save := fun w j h _ => ⟨⟨by simp, by simp⟩, ⟨by simp, by simp⟩, h.table, h.journal⟩
  delete := fun w j route h hj hr => by
    have howned : route ∈ owned := h.journal j hj route hr
    refine ⟨⟨by simp, ?_⟩, ⟨by simp, ?_⟩, h.delete howned⟩
    · intro r he
      cases he
      exact howned
    · intro r he
      cases he
      exact howned
  dns := fun w d h => ⟨⟨by simp, by simp⟩, ⟨by simp, by simp⟩, h.table, h.journal⟩

variable [DecidableEq D]

theorem rollbackInternal_pruned (h : Pruned table owned w) (hw : w.journal.isSome) :
    Runs Quiet (OwnedOnly owned) rollbackInternal
      (fun _ w' => Less table owned w'.table) (fun _ _ => True) w := by
  refine rollbackInternal_removes (pruned_moves table owned) hw ⟨h.table, h.journal⟩ (fun es w' h' => ?_)
    (fun _ _ _ => trivial)
  exact finishRollback_ends (fun _ => ⟨⟨by simp, by simp⟩, h'.1.table⟩) (fun _ => trivial)

/-- What a rollback of the journal ⟨s, owned, true⟩ leaves when it returns. -/
structure Cleared (s : RouteSnapshot D) (owned : List RouteEntry) (w : RouteWorld D) : Prop where
  state : w.state = .physicalOnly
  table : ∀ r ∈ owned, r ∉ w.table
  dns : s.dnsState = some w.dns
  file : w.file = none

/-- The DNS step of a rollback, when it returns. -/
theorem undoDns_restores {s : RouteSnapshot D} (h : Remembers s true .rollingBack w) :
    Runs Quiet (fun _ => True) undoDns (fun _ w' => s.dnsState = some w'.dns ∧ w'.table = w.table)
      (fun _ _ => True) w := by
  obtain ⟨left, hj, _⟩ := h
  refine Runs.bind (theJournal_runs hj (Runs.bind ?_))
  cases hs : s.dnsState with
  | none =>
    refine Runs.bind (reply_runs (fun _ hr => hr) trivial (fun r _ => ?_))
    rw [hs]
    exact Runs.throw trivial
  | some d =>
    refine (restoreDns_runs (fun _ hr => hr) (J := fun w' => w'.table = w.table) hs trivial rfl
      (fun w' d' h' _ => ⟨trivial, h'⟩) (fun _ _ _ => trivial)).mono (fun _ w' h' => ?_) (fun _ _ h => h)
    refine Runs.bind (setJournal_runs (save_runs (fun _ hr => hr) trivial rfl trivial trivial ?_
      (fun _ => trivial) (fun _ => trivial)))
    exact ⟨congrArg some h'.2.symm, h'.1⟩

/-- The cleanup steps: if nothing was collected, no owned route is left and DNS is as
captured. -/
theorem rollbackErrors_clears {s : RouteSnapshot D} (hj : w.journal = some ⟨s, owned, true⟩)
    (hst : w.state = .rollingBack) :
    Runs Quiet (fun _ => True) (rollbackErrors ⟨s, owned, true⟩)
      (fun es w' => es = [] → s.dnsState = some w'.dns ∧ ∀ r ∈ owned, r ∉ w'.table) (fun _ _ => True) w := by
  have hless : Runs Quiet (fun _ => True) (collect removeOwned owned.reverse) _ (fun _ _ => True) w :=
    removals_lessen ⟨_, hj, fun r hr => Or.inl hr⟩ (fun r hr => List.mem_reverse.mp hr) (fun _ _ => trivial)
  have hmemory : Runs Quiet (fun _ => True) (collect removeOwned owned.reverse)
      (fun _ => Remembers s true .rollingBack) (fun _ _ => True) w :=
    Runs.collect_prefix (J := fun _ _ => Remembers s true .rollingBack)
      (fun _ r _ _ _ w' h' => removeOwned_remembers r w' h') ⟨owned, hj, hst⟩
  refine Runs.bind (((hless.and hmemory).mono_moment (fun _ _ => trivial)).mono (fun es w' h' => ?_)
    (fun _ _ _ => trivial))
  obtain ⟨⟨_, _, hleft⟩, hremembers⟩ := h'
  have hgone : es.map Prod.snd = [] → ∀ r ∈ owned, r ∉ w'.table := by
    intro hes r hr ht
    have hmem := hleft r (List.mem_reverse.mpr hr) ht
    rw [List.map_eq_nil_iff.mp hes] at hmem
    cases hmem
  refine Runs.bind (theJournal_runs hremembers.choose_spec.1 (Runs.bind (Runs.attemptIf (fun _ => ?_)
    (fun hflag => by cases hflag))))
  refine (undoDns_restores hremembers).mono (fun _ w'' h'' => Runs.pure (fun hes => ?_))
    (fun e w'' _ => Runs.pure (fun hes => by simp at hes))
  rw [List.append_nil] at hes
  exact ⟨h''.1, fun r hr ht => hgone hes r hr (h''.2 ▸ ht)⟩

theorem rollbackInternal_clears {s : RouteSnapshot D} (hj : w.journal = some ⟨s, owned, true⟩) :
    Runs Quiet (fun _ => True) rollbackInternal (fun _ => Cleared s owned) (fun _ _ => True) w := by
  refine Runs.bind (Runs.get ?_)
  simp only [hj]
  refine Runs.bind (Runs.modify (Runs.bind ?_))
  have hclears : Runs Quiet (fun _ => True) (rollbackErrors ⟨s, owned, true⟩) _ (fun _ _ => True)
      { w with state := .rollingBack } := rollbackErrors_clears hj rfl
  refine hclears.mono (fun es w' h' => ?_) (fun _ _ h => h)
  refine finishRollback_ends (fun hes => ⟨trivial, ?_⟩) (fun _ => trivial)
  obtain ⟨hdns, hgone⟩ := h' hes
  exact ⟨rfl, hgone, hdns, rfl⟩

end Rollback

/-! ## Reconciliation -/

section Reconcile
variable [DecidableEq D] {s physical : RouteSnapshot D} {owned : List RouteEntry} {w : RouteWorld D}

/-- The world after other programs have made `table` of the route table. -/
def RouteWorld.changed (w : RouteWorld D) (table : List RouteEntry) : RouteWorld D := { w with table := table }

/-- The physical default is the one of the snapshot. -/
def SamePhysical (physical s : RouteSnapshot D) : Prop :=
  physical.physicalInterfaceIndex = s.physicalInterfaceIndex ∧
    physical.physicalGateway = s.physicalGateway ∧ physical.physicalIpv4 = s.physicalIpv4

/-- A gateway that is still active after a reconciliation was captured on the same
physical default. -/
theorem reconcile_physical (hj : w.journal = some ⟨s, owned, true⟩) (hst : w.state = .gatewayActive) :
    Runs (fun r => r.snapshot = physical) (fun _ => True) reconcile
      (fun _ w' => w'.state = .gatewayActive → SamePhysical physical s) (fun _ _ => True) w := by
  have hrolls : ∀ {w' : RouteWorld D}, w'.journal = w.journal →
      Runs (fun r => r.snapshot = physical) (fun _ => True) rollbackInternal
        (fun _ w' => w'.state = .gatewayActive → SamePhysical physical s) (fun _ _ => True) w' := by
    intro w' hw'
    exact (rollbackInternal_inactive (by simp [hw', hj])).mono (fun _ _ h hst => absurd hst h) (fun _ _ _ => trivial)
  refine Runs.bind (Runs.bind (reply_aside (fun _ w₁ _ hj₁ hst₁ =>
    Runs.outcome (fun _ => Runs.bind (Runs.get ?_)) (fun _ _ => trivial))))
  simp only [hj₁.trans hj]
  refine Runs.ite (fun hnot => absurd (hst₁.trans hst) hnot) (fun _ => Runs.bind (Runs.bind ?_))
  refine reply_aside (fun r w₂ hr hj₂ _ => Runs.bind (Runs.outcome (fun _ => Runs.pure ?_) (fun _ _ => trivial)))
  rw [hr]
  refine Runs.ite (fun _ => hrolls (hj₂.trans hj₁)) (fun hsame => Runs.bind (Runs.bind ?_))
  simp only [not_or, not_not] at hsame
  refine reply_aside (fun _ w₃ _ hj₃ _ => Runs.bind (Runs.outcome (fun _ => Runs.bind (Runs.get (Runs.pure ?_)))
    (fun _ _ => trivial)))
  exact Runs.ite (fun _ => hrolls (hj₃.trans (hj₂.trans hj₁))) (fun _ => Runs.pure (fun _ => hsame))

/-- While nobody edits: the gateway is still active with all its routes and nothing
has changed, or a rollback has cleared everything that was owned. -/
theorem reconcile_quiet (hj : w.journal = some ⟨s, owned, true⟩) (hst : w.state = .gatewayActive) :
    Runs Quiet (OwnedOnly owned) reconcile
      (fun _ w' => ((w'.state = .gatewayActive ∧ ∀ r ∈ owned, r ∈ w'.table) ∨ Cleared s owned w') ∧
        Less w.table owned w'.table) (fun _ _ => True) w := by
  have hplain : OwnedOnly (D := D) owned ⟨.foreign, w, w⟩ := ⟨by simp, by simp⟩
  have hless : Less w.table owned w.table := ⟨[], by simp, (List.filter_eq_self.mpr (by simp)).symm⟩
  have hpruned : Pruned w.table owned w := by
    refine ⟨hless, fun j hj' r hr => ?_⟩
    rw [hj] at hj'
    cases hj'
    exact hr
  have hrolls : Runs Quiet (OwnedOnly owned) rollbackInternal
      (fun _ w' => ((w'.state = .gatewayActive ∧ ∀ r ∈ owned, r ∈ w'.table) ∨ Cleared s owned w') ∧
        Less w.table owned w'.table) (fun _ _ => True) w :=
    (((rollbackInternal_clears hj).and (rollbackInternal_pruned hpruned (by simp [hj]))).mono_moment
      (fun _ hm => hm.2)).mono (fun _ _ h => ⟨Or.inr h.1, h.2⟩) (fun _ _ _ => trivial)
  refine Runs.bind (waitGate_runs (fun _ hr => hr) hplain (Runs.bind (Runs.get ?_)) (fun _ => trivial))
  simp only [hj]
  refine Runs.ite (fun hnot => absurd hst hnot) (fun _ => Runs.bind ?_)
  refine captureRoutes_runs (fun _ hr => hr) hplain (fun _ => ?_) (fun _ => trivial)
  refine Runs.ite (fun _ => hrolls) (fun _ => Runs.bind ?_)
  refine listRoutes_runs (fun _ hr => hr) hplain (Runs.ite (fun _ => hrolls) (fun hall => Runs.pure ?_))
    (fun _ => trivial)
  refine ⟨Or.inl ⟨hst, fun r hr => ?_⟩, hless⟩
  by_contra hmissing
  refine hall (List.any_eq_true.mpr ⟨r, hr, ?_⟩)
  rw [Bool.not_eq_true', Bool.eq_false_iff]
  intro hany
  obtain ⟨x, hx, he⟩ := List.any_eq_true.mp hany
  rw [RoutePlanner.sameIdentity_iff] at he
  exact hmissing (he ▸ hx)

end Reconcile

/-- **Reconciliation after external changes.** From every reachable state with an
active gateway, whatever other programs have made of the route table and of the
physical default, and while nobody edits during the call: a reconciliation that
returns leaves the gateway active on the same physical default with every owned
route in the table, or everything owned undone. Either way it adds no route and
removes none that is not owned. -/
theorem reconcile_after_changes [DecidableEq D] (w₀ : RouteWorld D) (hstart : w₀.state = .physicalOnly)
    (steps : List (Step (RouteReply D) RouteOp)) (table : List RouteEntry) (physical : RouteSnapshot D)
    (script : Nat → RouteReply D) (hquiet : ∀ n, Quiet (script n)) (hphysical : ∀ n, (script n).snapshot = physical)
    (hactive : ((routeSystem D).final w₀ steps).state = .gatewayActive)
    (hreturned : (reconcile script (((routeSystem D).final w₀ steps).changed table)).result.isOk = true) :
    let r := reconcile script (((routeSystem D).final w₀ steps).changed table)
    ∃ j, ((routeSystem D).final w₀ steps).journal = some j ∧
      ((r.world.state = .gatewayActive ∧ SamePhysical physical j.snapshot ∧ ∀ x ∈ j.owned, x ∈ r.world.table) ∨
        (r.world.state = .physicalOnly ∧ (∀ x ∈ j.owned, x ∉ r.world.table) ∧
          j.snapshot.dnsState = some r.world.dns ∧ r.world.file = none)) ∧
      -- in both cases
      (∀ m ∈ r.trace, OwnedOnly j.owned m) ∧ Less table j.owned r.world.table := by
  intro r
  obtain ⟨s, owned, hj, _⟩ := activeJournal_run steps w₀ hstart hactive
  have hq : Runs Quiet (OwnedOnly owned) reconcile _ (fun _ _ => True)
      (((routeSystem D).final w₀ steps).changed table) := reconcile_quiet hj hactive
  have hp : Runs (fun r => r.snapshot = physical) (fun _ => True) reconcile _ (fun _ _ => True)
      (((routeSystem D).final w₀ steps).changed table) := reconcile_physical hj hactive
  obtain ⟨hmoments, hend, _⟩ := hq script hquiet
  obtain ⟨_, hend', _⟩ := hp script hphysical
  obtain ⟨_, hcases, hless⟩ := hend.returned hreturned
  obtain ⟨_, hsame⟩ := hend'.returned hreturned
  refine ⟨⟨s, owned, true⟩, hj, ?_, hmoments, hless⟩
  rcases hcases with ⟨hst, hall⟩ | hcleared
  · exact Or.inl ⟨hst, hsame hst, hall⟩
  · exact Or.inr ⟨hcleared.state, hcleared.table, hcleared.dns, hcleared.file⟩

/-- At home: another program has put its own route in the place of one of the split
default, and added one more. -/
def replacedTable : List RouteEntry :=
  [⟨"0.0.0.0/0", "192.168.1.1", 2, 50⟩, ⟨"192.168.1.1/32", "0.0.0.0", 2, 1⟩, ⟨"0.0.0.0/1", "10.8.0.1", 9, 1⟩,
    ⟨"128.0.0.0/1", "10.10.0.1", 20, 1⟩, ⟨"10.8.0.0/24", "0.0.0.0", 9, 1⟩]

/-- The gateway gives way, and the foreign routes stay. -/
theorem reconcile_after_changes_replaced :
    (reconcile goodScript (activeHome.changed replacedTable)).world.state = .physicalOnly ∧
    (reconcile goodScript (activeHome.changed replacedTable)).world.table =
      [⟨"0.0.0.0/0", "192.168.1.1", 2, 50⟩, ⟨"0.0.0.0/1", "10.8.0.1", 9, 1⟩, ⟨"10.8.0.0/24", "0.0.0.0", 9, 1⟩] ∧
    ∃ j, activeHome.journal = some j ∧
      Less replacedTable j.owned (reconcile goodScript (activeHome.changed replacedTable)).world.table := by
  have hfinal : (routeSystem Bool).final homeWorld [.call (.activate homeContext) goodScript] = activeHome := rfl
  have hall := reconcile_after_changes homeWorld rfl [.call (.activate homeContext) goodScript] replacedTable
    goodReply.snapshot goodScript goodScript_quiet (fun _ => rfl)
  rw [hfinal] at hall
  obtain ⟨j, hj, _, _, hless⟩ := hall (by decide +kernel) (by decide +kernel)
  exact ⟨by decide +kernel, by decide +kernel, j, hj, hless⟩

end EasyTierHost
