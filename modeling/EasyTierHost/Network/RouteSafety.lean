import EasyTierHost.Network.RouteJournal

/- What each operation of the route controller leaves, when it returns and when
   it throws, in a world no other program writes to. The moment predicate is
   `RouteInv` throughout: a crash at any instant finds a journal on disk that
   covers what is live. -/
namespace EasyTierHost
open Effects Effects.Prog GatewayRouteController

variable {D : Type} {orig : List RouteEntry} {d : D}

/-- A moment that keeps the invariant. -/
def InvMoment (orig : List RouteEntry) (d : D) (m : Moment RouteEvent (RouteWorld D)) : Prop :=
  RouteInv orig d m.after

/-- An open transaction: the journal is in memory and on disk. -/
structure Held (orig : List RouteEntry) (d : D) (st : GatewayState) (rb : List Nat)
    (w : RouteWorld D) : Prop where
  inv : RouteInv orig d w
  journal : w.journal.isSome
  file : w.file.isSome
  state : w.state = st
  rollbacks : w.rollbacks = rb

/-- What a transaction that was undone leaves. -/
structure Restored (orig : List RouteEntry) (d : D) (w : RouteWorld D) : Prop where
  table : w.table = orig
  dns : w.dns = d
  file : w.file = none
  journal : w.journal = none
  state : w.state = .physicalOnly

/-- What a rollback that collected errors leaves. -/
structure Retained (w : RouteWorld D) : Prop where
  state : w.state = .faulted
  journal : w.journal.isSome
  file : w.file.isSome

/-- `j'` owns nothing that `j` does not, and agrees with it on DNS. -/
structure RouteJournal.Shrunk (j j' : RouteJournal D) : Prop where
  owned : ∀ r ∈ j'.owned, r ∈ j.owned
  dns : j'.dnsMayHaveChanged = j.dnsMayHaveChanged

theorem RouteInv.toRestored {w : RouteWorld D} (h : RouteInv orig d w) (hf : w.file = none)
    (hj : w.journal = none) (hs : w.state = .physicalOnly) : Restored orig d w :=
  ⟨(h.restored hf).1, (h.restored hf).2, hf, hj, hs⟩

section Transaction
variable {st : GatewayState} {rb : List Nat} {w : RouteWorld D}

theorem Held.exists_journal (h : Held orig d st rb w) : ∃ j, w.journal = some j :=
  Option.isSome_iff_exists.mp h.journal

/-! ## Owned routes -/

/-- `AddOwnedAsync` keeps an open transaction open, however it ends. -/
theorem addOwned_keeps (route : RouteEntry) :
    Keeps Quiet (InvMoment orig d) (Held orig d st rb) (addOwned route) := by
  intro w h
  obtain ⟨j, hj⟩ := h.exists_journal
  refine Runs.bind (listRoutes_runs (fun _ hr => hr) h.inv ?_ (fun _ => h))
  refine Runs.bind (Runs.refuse (fun hc => ?_) (fun _ => h))
  refine Runs.bind (theJournal_runs hj (Runs.bind (setJournal_runs ?_)))
  have hfresh : Fresh orig route := by
    intro o ho he
    obtain ⟨extra, ht, _⟩ := h.inv.table
    exact hc (List.any_eq_true.mpr ⟨o, by simp [ht, ho], by simp [he]⟩)
  have hinv := h.inv.noteRoute hj h.file hfresh
  have hsaved := hinv.save rfl
  have hmem : route ∈ j.owned ++ [route] := by simp
  have hadded := hsaved.addRoute rfl rfl hmem hmem
  refine Runs.bind (save_runs (fun _ hr => hr) hinv rfl hsaved hinv ?_ ?_ ?_)
  · have hheld : ∀ r : RouteReply D, Held orig d st rb (routeAdded r route
        { w with
          journal := some { j with owned := j.owned ++ [route] }
          file := some { j with owned := j.owned ++ [route] } }) := by
      intro r
      unfold routeAdded
      split
      · exact ⟨hadded, rfl, rfl, h.state, h.rollbacks⟩
      · exact ⟨hsaved, rfl, rfl, h.state, h.rollbacks⟩
    exact addRoute_runs (fun _ hr => hr) hsaved (fun r _ => (hheld r).inv) (fun r _ _ => hheld r)
      (fun r _ _ _ => hheld r)
  · exact fun _ => ⟨hsaved, rfl, rfl, h.state, h.rollbacks⟩
  · exact fun _ => ⟨hinv, rfl, h.file, h.state, h.rollbacks⟩

/-- Deleting a fresh route if it is listed touches nothing but the table. -/
theorem deleteListed_runs {route : RouteEntry} (h : Held orig d st rb w) (hr : Fresh orig route) :
    Runs Quiet (InvMoment orig d) (deleteListed route)
      (fun _ w' => Held orig d st rb w' ∧ w'.journal = w.journal)
      (fun _ w' => Held orig d st rb w' ∧ w'.journal = w.journal) w := by
  have hdel : ∀ r : RouteReply D, Held orig d st rb (routeDeleted r route w) ∧
      (routeDeleted r route w).journal = w.journal := by
    intro r
    unfold routeDeleted
    split
    · exact ⟨⟨h.inv.deleteRoute hr, h.journal, h.file, h.state, h.rollbacks⟩, rfl⟩
    · exact ⟨h, rfl⟩
  refine Runs.bind (listRoutes_runs (fun _ hr => hr) h.inv ?_ (fun _ => ⟨h, rfl⟩))
  refine Runs.ite (fun _ => ?_) (fun _ => Runs.pure ⟨h, rfl⟩)
  exact deleteRoute_runs (fun _ hr => hr) h.inv (fun r _ => (hdel r).1.inv) (fun r _ _ => hdel r)
    (fun r _ _ _ => hdel r)

/-- `RemoveOwnedAsync` keeps an open transaction open; when it returns the
journal in memory no longer owns the route. -/
theorem removeOwned_runs {route : RouteEntry} {j : RouteJournal D} (h : Held orig d st rb w)
    (hj : w.journal = some j) :
    Runs Quiet (InvMoment orig d) (removeOwned route)
      (fun _ w' => Held orig d st rb w' ∧
        ∃ j', w'.journal = some j' ∧ j.Shrunk j' ∧ route ∉ j'.owned)
      (fun _ w' => Held orig d st rb w' ∧ ∃ j', w'.journal = some j' ∧ j.Shrunk j') w := by
  have hsame : j.Shrunk j := ⟨fun _ hr => hr, rfl⟩
  refine Runs.bind (theJournal_runs hj (Runs.ite (fun hc => ?_) (fun hc => Runs.pure ?_)))
  · obtain ⟨r, hr, he⟩ := List.any_eq_true.mp hc
    rw [RoutePlanner.sameIdentity_iff] at he
    subst he
    refine Runs.bind ((deleteListed_runs h ((h.inv.journal j hj).fresh r hr)).mono ?_
      (fun _ w' h' => ⟨h'.1, j, h'.2.trans hj, hsame⟩))
    intro _ w' h'
    obtain ⟨h', hj'⟩ := h'
    rw [hj] at hj'
    have hkeep : Held orig d st rb w' ∧ ∃ j', w'.journal = some j' ∧ j.Shrunk j' := ⟨h', j, hj', hsame⟩
    refine Runs.bind (listRoutes_runs (fun _ hr => hr) h'.inv ?_ (fun _ => hkeep))
    refine Runs.bind (Runs.refuse (fun hgone => ?_) (fun _ => hkeep))
    refine Runs.bind (theJournal_runs hj' (Runs.bind (setJournal_runs ?_)))
    have hnot : r ∉ w'.table := fun hr' => hgone (List.any_eq_true.mpr ⟨r, hr', by simp⟩)
    have hinv := h'.inv.strikeRoute hj' hnot
    have hsaved := hinv.save rfl
    have hshrunk : j.Shrunk
        { j with owned := j.owned.filter (fun x => !RoutePlanner.sameIdentity x r) } :=
      ⟨fun x hx => (List.mem_filter.mp hx).1, rfl⟩
    refine save_runs (fun _ hr => hr) hinv rfl hsaved hinv ?_ ?_ ?_
    · exact ⟨⟨hsaved, rfl, rfl, h'.state, h'.rollbacks⟩, _, rfl, hshrunk, by simp [List.mem_filter]⟩
    · exact fun _ => ⟨⟨hsaved, rfl, rfl, h'.state, h'.rollbacks⟩, _, rfl, hshrunk⟩
    · exact fun _ => ⟨⟨hinv, rfl, h'.file, h'.state, h'.rollbacks⟩, _, rfl, hshrunk⟩
  · refine ⟨h, j, hj, hsame, fun hr => hc (List.any_eq_true.mpr ⟨route, hr, by simp⟩)⟩

theorem removeOwned_keeps (route : RouteEntry) :
    Keeps Quiet (InvMoment orig d) (Held orig d st rb) (removeOwned route) := by
  intro w h
  obtain ⟨j, hj⟩ := h.exists_journal
  exact (removeOwned_runs h hj).mono (fun _ _ h' => h'.1) (fun _ _ h' => h'.1)

/-! ## Rollback -/

variable [DecidableEq D]

/-- The DNS step of a rollback. -/
theorem undoDns_runs {j : RouteJournal D} (h : Held orig d st rb w) (hj : w.journal = some j) :
    Runs Quiet (InvMoment orig d) undoDns
      (fun _ w' => Held orig d st rb w' ∧
        w'.journal = some { j with dnsMayHaveChanged := false })
      (fun _ w' => Held orig d st rb w') w := by
  refine Runs.bind (theJournal_runs hj (Runs.bind ?_))
  refine (restoreDns_runs (fun _ hr => hr) (J := fun w' => Held orig d st rb w' ∧ w'.journal = some j)
    (h.inv.journal j hj).dns h.inv ⟨h, hj⟩ ?_ (fun _ _ h' => h'.1)).mono ?_ (fun _ _ h' => h')
  · intro w' d' h' hd
    have hinv := h'.1.inv.restoreDns hd
    exact ⟨hinv, ⟨hinv, h'.1.journal, h'.1.file, h'.1.state, h'.1.rollbacks⟩, h'.2⟩
  · intro _ w' h'
    obtain ⟨⟨h', hj'⟩, hd⟩ := h'
    refine Runs.bind (setJournal_runs ?_)
    have hinv := h'.inv.strikeDns hj' hd
    have hsaved := hinv.save rfl
    refine save_runs (fun _ hr => hr) hinv rfl hsaved hinv ?_ ?_ ?_
    · exact ⟨⟨hsaved, rfl, rfl, h'.state, h'.rollbacks⟩, rfl⟩
    · exact fun _ => ⟨hsaved, rfl, rfl, h'.state, h'.rollbacks⟩
    · exact fun _ => ⟨hinv, rfl, h'.file, h'.state, h'.rollbacks⟩

/-- The cleanup steps never throw past `collect`; if none of them threw, the
journal in memory names nothing any more. -/
theorem rollbackErrors_runs {j : RouteJournal D} (h : Held orig d st rb w)
    (hj : w.journal = some j) {X : Err → RouteWorld D → Prop} :
    Runs Quiet (InvMoment orig d) (rollbackErrors j)
      (fun es w' => Held orig d st rb w' ∧
        (es = [] → ∃ j', w'.journal = some j' ∧ j'.owned = [] ∧ j'.dnsMayHaveChanged = false)) X w := by
  -- the routes already treated without an error are no longer owned
  let J : List RouteEntry → List (RouteEntry × Err) → RouteWorld D → Prop := fun done es w' =>
    Held orig d st rb w' ∧ ∃ j', w'.journal = some j' ∧ j.Shrunk j' ∧
      (es = [] → ∀ r ∈ done, r ∉ j'.owned)
  have hloop : Runs Quiet (InvMoment orig d) (collect removeOwned j.owned.reverse)
      (fun es => J j.owned.reverse es) X w := by
    refine Runs.collect_prefix (J := J) ?_ ⟨h, j, hj, ⟨fun _ hr => hr, rfl⟩, by simp⟩
    intro done r left es _ w' hJ
    obtain ⟨h', j', hj', hsh, hdone⟩ := hJ
    refine (removeOwned_runs h' hj').mono ?_ ?_
    · intro _ w'' h''
      obtain ⟨h'', j'', hj'', hsh', hr⟩ := h''
      refine ⟨h'', j'', hj'', ⟨fun x hx => hsh.owned x (hsh'.owned x hx), hsh'.dns.trans hsh.dns⟩, ?_⟩
      intro hes x hx
      cases List.mem_append.mp hx with
      | inl hx =>
        exact fun hx' => hdone hes x hx (hsh'.owned x hx')
      | inr hx =>
        rw [List.mem_singleton.mp hx]; exact hr
    · intro e w'' h''
      obtain ⟨h'', j'', hj'', hsh'⟩ := h''
      exact ⟨h'', j'', hj'', ⟨fun x hx => hsh.owned x (hsh'.owned x hx), hsh'.dns.trans hsh.dns⟩, by simp⟩
  refine Runs.bind (hloop.mono ?_ (fun _ _ hX => hX))
  intro es w' hJ
  obtain ⟨h', j', hj', hsh, hdone⟩ := hJ
  have hempty : es.map Prod.snd = [] → j'.owned = [] := by
    intro hes
    refine List.eq_nil_iff_forall_not_mem.mpr (fun r hr => ?_)
    exact hdone (List.map_eq_nil_iff.mp hes) r (by simpa using hsh.owned r hr) hr
  refine Runs.bind (theJournal_runs hj' (Runs.bind (Runs.attemptIf (fun _ => ?_) (fun hflag => Runs.pure ?_))))
  · refine (undoDns_runs h' hj').mono (fun _ w'' h'' => Runs.pure ⟨h''.1, ?_⟩)
      (fun e w'' h'' => Runs.pure ⟨h'', by simp⟩)
    intro hes
    rw [List.append_nil] at hes
    exact ⟨_, h''.2, hempty hes, rfl⟩
  · refine ⟨h', fun hes => ⟨j', hj', hempty ?_, hflag⟩⟩
    rwa [List.append_nil] at hes

/-- What a rollback leaves when it returns. -/
def RolledBack (orig : List RouteEntry) (d : D) (rb : List Nat) (w : RouteWorld D) : Prop :=
  RouteInv orig d w ∧ Restored orig d w ∧ w.rollbacks = rb ++ [0]

/-- What a rollback leaves when it throws `e`. -/
def RollbackFailed (orig : List RouteEntry) (d : D) (rb : List Nat) (e : Err) (w : RouteWorld D) : Prop :=
  RouteInv orig d w ∧ Retained w ∧ ∃ es, es ≠ [] ∧ w.rollbacks = rb ++ [es.length] ∧
    e = .aggregate "ETH302: rollback incomplete; journal retained" es

omit [DecidableEq D] in
/-- The end of a rollback: errors need the file to be there, no error needs the
journal in memory to name nothing. -/
theorem finishRollback_runs {es : List Err} (h : RouteInv orig d w) (hst : w.state = .rollingBack)
    (hrb : w.rollbacks = rb) (hj : w.journal.isSome) (hfail : es ≠ [] → w.file.isSome)
    (hclean : es = [] → ∃ j, w.journal = some j ∧ j.owned = [] ∧ j.dnsMayHaveChanged = false) :
    Runs Quiet (InvMoment orig d) (finishRollback es) (fun _ => RolledBack orig d rb)
      (RollbackFailed orig d rb) w := by
  refine Runs.bind (Runs.modify (Runs.ite (fun hc => ?_) (fun hc => ?_)))
  · have hes : es ≠ [] := List.length_pos_iff.mp hc
    refine Runs.bind (setState_runs (Runs.throw ?_))
    have hinv : RouteInv orig d { w with rollbacks := w.rollbacks ++ [es.length], state := .faulted } :=
      { h with active := fun hs => by simp at hs }
    exact ⟨hinv, ⟨rfl, hj, hfail hes⟩, es, hes, by rw [hrb], rfl⟩
  · have hes : es = [] := by
      simpa using hc
    obtain ⟨j, hj, howned, hflag⟩ := hclean hes
    subst hes
    have hinv : RouteInv orig d { w with rollbacks := w.rollbacks ++ [0] } := { h with }
    have hdel := hinv.deleteFile hj howned hflag (by simp [hst])
    refine Runs.bind (deleteJournal_runs hdel (Runs.bind (setJournal_runs (setState_runs ?_))))
    have hend := hdel.dropJournal.setState (s := .physicalOnly) (by simp)
    exact ⟨hend, hend.toRestored rfl rfl rfl, by rw [← hrb]; rfl⟩

/-- `RollbackInternalAsync` with a journal in memory: it returns with everything
restored, or throws with the journal retained. -/
theorem rollbackInternal_runs (h : RouteInv orig d w) (hw : w.journal.isSome)
    (hrb : w.rollbacks = rb) :
    Runs Quiet (InvMoment orig d) rollbackInternal (fun _ => RolledBack orig d rb)
      (RollbackFailed orig d rb) w := by
  obtain ⟨j, hj⟩ := Option.isSome_iff_exists.mp hw
  refine Runs.bind (Runs.get ?_)
  simp only [hj]
  refine Runs.bind (setState_runs (Runs.bind ?_))
  have hinv : RouteInv orig d { w with state := .rollingBack } := h.setState (by simp)
  by_cases hf : w.file = none
  · -- the journal never reached the disk, so it names nothing
    obtain ⟨howned, hflag⟩ := h.anchored j hj hf
    have hnone : rollbackErrors j = (do
        let routeErrors ← collect removeOwned []
        undoChangedDns (routeErrors.map Prod.snd) : RouteM D (List Err)) := by
      simp only [rollbackErrors, howned, List.reverse_nil]
    rw [hnone]
    refine Runs.bind (Runs.ret (Runs.bind (theJournal_runs hj (Runs.bind (Runs.attemptIf (fun hc => ?_)
      (fun _ => ?_))))))
    · simp [hflag] at hc
    · refine Runs.pure (finishRollback_runs hinv rfl hrb (by simp [hj]) (by simp) ?_)
      exact fun _ => ⟨j, hj, howned, hflag⟩
  · have hheld : Held orig d .rollingBack rb { w with state := .rollingBack } :=
      ⟨hinv, hw, Option.isSome_iff_ne_none.mpr hf, rfl, hrb⟩
    refine (rollbackErrors_runs hheld hj).mono (fun es w' h' => ?_) (fun _ _ hX => hX)
    exact finishRollback_runs h'.1.inv h'.1.state h'.1.rollbacks h'.1.journal (fun _ => h'.1.file) h'.2

/-! ## The operations -/

/-- Between operations: no transaction, or one whose journal is on disk. -/
structure Settled (orig : List RouteEntry) (d : D) (w : RouteWorld D) : Prop where
  inv : RouteInv orig d w
  idle : w.journal = none → w.state = .physicalOnly
  held : w.journal.isSome → w.file.isSome

omit [DecidableEq D] in
theorem RolledBack.settled (h : RolledBack orig d rb w) : Settled orig d w :=
  ⟨h.1, fun _ => h.2.1.state, fun hj => by simp [h.2.1.journal] at hj⟩

omit [DecidableEq D] in
theorem RollbackFailed.settled {e : Err} (h : RollbackFailed orig d rb e w) : Settled orig d w := by
  refine ⟨h.1, fun hj => ?_, fun _ => h.2.1.file⟩
  have := h.2.1.journal
  simp [hj] at this

omit [DecidableEq D] in
/-- `ActivateAsync` from the protection routes on: the transaction stays open
throughout and is active at the end. -/
theorem install_runs {context : GatewayContext} {snapshot : RouteSnapshot D}
    (h : Held orig d st rb w) :
    Runs Quiet (InvMoment orig d) (install context snapshot) (fun _ => Held orig d .gatewayActive rb)
      (fun _ w' => ∃ st', Held orig d st' rb w') w := by
  have hstate : ∀ {st st'} {w : RouteWorld D}, Held orig d st rb w →
      Held orig d st' rb { w with state := st' } := by
    intro st st' w h
    exact ⟨{ h.inv with active := fun _ _ => h.file }, h.journal, h.file, rfl, h.rollbacks⟩
  have hadd : ∀ {st} {w : RouteWorld D} (l : List RouteEntry), Held orig d st rb w →
      Runs Quiet (InvMoment orig d) (each addOwned l) (fun _ => Held orig d st rb)
        (fun _ w' => ∃ st', Held orig d st' rb w') w := by
    intro st w l h
    refine Runs.each_inv (fun r _ w' h' => ?_) h
    exact (addOwned_keeps r w' h').mono (fun _ _ h => h) (fun _ _ h => ⟨st, h⟩)
  refine Runs.bind (Runs.ofExcept (fun protection _ => ?_) (fun _ _ => ⟨st, h⟩))
  refine Runs.seq (hadd protection h) (fun _ w h => ?_)
  refine Runs.bind (setState_runs (Runs.bind (Runs.refuse (fun _ => ?_) (fun _ => ⟨_, hstate h⟩))))
  refine Runs.seq (hadd _ (hstate h)) (fun _ w h => ?_)
  refine Runs.bind (setState_runs (Runs.bind ?_))
  replace h : Held orig d .probing rb { w with state := .probing } := hstate h
  refine checkProbe_runs (fun _ hr => hr) h.inv (fun healthy => ?_) (fun _ => ⟨_, h⟩)
  refine Runs.bind (Runs.refuse (fun _ => ?_) (fun _ => ⟨_, h⟩))
  obtain ⟨j, hj⟩ := h.exists_journal
  refine Runs.bind (theJournal_runs hj (Runs.bind (setJournal_runs ?_)))
  have hnoted := h.inv.noteDns hj h.file
  have hsaved := hnoted.save rfl
  refine Runs.bind (save_runs (fun _ hr => hr) hnoted rfl hsaved hnoted ?_
    (fun _ => ⟨_, hsaved, rfl, rfl, h.state, h.rollbacks⟩)
    (fun _ => ⟨_, hnoted, rfl, h.file, h.state, h.rollbacks⟩))
  -- both journals now say that DNS may have changed
  refine Runs.bind ((applyDns_runs (fun _ hr => hr) (J := fun w' => Held orig d .probing rb w' ∧
    ∃ j, w'.journal = some j ∧ w'.file = some j ∧ j.dnsMayHaveChanged = true) hsaved
    ⟨⟨hsaved, rfl, rfl, h.state, h.rollbacks⟩, _, rfl, rfl, rfl⟩ ?_ (fun _ w' h' => ⟨_, h'.1⟩)).mono
    (fun _ w h => ?_) (fun _ _ h => h))
  · intro w' d' h'
    obtain ⟨h', j, hj, hf, hc⟩ := h'
    have hinv : RouteInv orig d { w' with dns := d' } := h'.inv.moveDns hj hf hc hc
    exact ⟨hinv, ⟨hinv, h'.journal, h'.file, h'.state, h'.rollbacks⟩, j, hj, hf, hc⟩
  · refine Runs.seq (hadd _ h.1) (fun _ w h => ?_)
    refine Runs.seq (Runs.each_inv (fun r _ w' h' => ?_) h) (fun _ w h => ?_)
    · exact (removeOwned_keeps r w' h').mono (fun _ _ h => h) (fun _ _ h => ⟨_, h⟩)
    · exact setState_runs (hstate h)

omit [DecidableEq D] in
/-- The try block of `ActivateAsync`: it throws with nothing touched, or with
the journal set up. -/
theorem activateTry_runs {context : GatewayContext} (h : Settled orig d w) :
    Runs Quiet (InvMoment orig d) (activateTry context)
      (fun _ w' => w' = w ∨ Held orig d .gatewayActive w.rollbacks w')
      (fun _ w' => RouteInv orig d w' ∧ w'.rollbacks = w.rollbacks ∧
        (w'.journal.isSome ∨ w'.journal = none ∧ w' = { w with state := w'.state })) w := by
  refine Runs.bind (Runs.get (Runs.ite (fun _ => Runs.pure (Or.inl rfl)) (fun hstate => ?_)))
  have hsplit : w.journal.isSome ∨ w.journal = none ∧ w = { w with state := w.state } := by
    cases hj : w.journal with
    | none => exact Or.inr ⟨rfl, rfl⟩
    | some j => exact Or.inl rfl
  refine Runs.bind (Runs.refuse (fun hc => ?_) (fun _ => ⟨h.inv, rfl, hsplit⟩))
  simp only [Bool.or_eq_true, not_or, Bool.not_eq_true, Option.isSome_eq_false_iff,
    Option.isNone_iff_eq_none] at hc
  obtain ⟨hj, hf⟩ := hc
  refine Runs.bind (Runs.ofExcept (fun _ _ => ?_) (fun _ _ => ⟨h.inv, rfl, hsplit⟩))
  refine Runs.bind (setState_runs (Runs.bind ?_))
  have hcap : RouteInv orig d { w with state := .capturing } := h.inv.setState (by simp)
  refine captureRoutes_runs (fun _ hr => hr) hcap (fun s => ?_) (fun _ => ⟨hcap, rfl, Or.inr ⟨hj, rfl⟩⟩)
  refine Runs.bind (Runs.refuse (fun _ => Runs.bind ?_) (fun _ => ⟨hcap, rfl, Or.inr ⟨hj, rfl⟩⟩))
  refine captureDns_runs (fun _ hr => hr) hcap ?_ (fun _ => ⟨hcap, rfl, Or.inr ⟨hj, rfl⟩⟩)
  refine Runs.bind (setJournal_runs (Runs.bind ?_))
  have hbegin := hcap.begin (s := { s with dnsState := some w.dns }) hf rfl (by simp)
  have hsaved := hbegin.save rfl
  refine save_runs (fun _ hr => hr) hbegin rfl hsaved hbegin ?_ (fun _ => ⟨hsaved, rfl, Or.inl rfl⟩)
    (fun _ => ⟨hbegin, rfl, Or.inl rfl⟩)
  have hheld : Held orig d .capturing w.rollbacks _ := ⟨hsaved, rfl, rfl, rfl, rfl⟩
  refine (install_runs hheld).mono
    (fun _ _ h' => Or.inr h') (fun _ w' h' => ?_)
  obtain ⟨st', h'⟩ := h'
  exact ⟨h'.inv, h'.rollbacks, Or.inl h'.journal⟩

/-- How an operation that threw `e` left the world: nothing has changed, or a
rollback restored everything, or one failed. -/
def Threw (orig : List RouteEntry) (d : D) (w : RouteWorld D) (e : Err) (w' : RouteWorld D) : Prop :=
  w' = w ∨ RolledBack orig d w.rollbacks w' ∨ RollbackFailed orig d w.rollbacks e w'

theorem activate_runs {context : GatewayContext} (h : Settled orig d w) :
    Runs Quiet (InvMoment orig d) (activate context)
      (fun _ w' => w' = w ∨ Held orig d .gatewayActive w.rollbacks w') (Threw orig d w) w := by
  refine Runs.bind (waitGate_runs (fun _ hr => hr) h.inv ?_ (fun _ => Or.inl rfl))
  refine Runs.tryCatch ((activateTry_runs h).mono (fun _ _ h' => h') (fun e w' h' => ?_))
  obtain ⟨hinv, hrb, hsplit⟩ := h'
  refine Runs.bind (Runs.bind (Runs.get (Runs.ite (fun hj => ?_) (fun hj => ?_))))
  · exact (rollbackInternal_runs hinv hj hrb).mono (fun _ w'' h'' => Runs.throw (Or.inr (Or.inl h'')))
      (fun e w'' h'' => Or.inr (Or.inr h''))
  · rcases hsplit with hsome | ⟨hnone, hw⟩
    · exact absurd hsome hj
    · refine setState_runs (Runs.throw (Or.inl ?_))
      have hidle : w.state = .physicalOnly := by
        refine h.idle ?_
        rw [hw] at hnone
        exact hnone
      rw [hw, ← hidle]

omit [DecidableEq D] in
/-- The try block of `UpdateProtectionAsync` keeps the transaction open. -/
theorem updateTry_runs {endpoints : List IPAddress} (h : Settled orig d w) :
    Runs Quiet (InvMoment orig d) (updateTry endpoints)
      (fun _ w' => w' = w ∨ Held orig d .gatewayActive w.rollbacks w')
      (fun _ w' => Held orig d .gatewayActive w.rollbacks w') w := by
  refine Runs.bind (Runs.get ?_)
  cases hj : w.journal with
  | none => exact Runs.pure (Or.inl rfl)
  | some j =>
    refine Runs.ite (fun _ => Runs.pure (Or.inl rfl)) (fun hst => ?_)
    have hheld : Held orig d .gatewayActive w.rollbacks w :=
      ⟨h.inv, by simp [hj], h.held (by simp [hj]), not_not.mp hst, rfl⟩
    refine Runs.bind (Runs.ofExcept (fun desired _ => ?_) (fun _ _ => hheld))
    refine Runs.bind (Runs.refuse (fun _ => Runs.bind ?_) (fun _ => hheld))
    refine (Runs.each_inv (fun r _ w' h' => addOwned_keeps r w' h') hheld).mono (fun _ w' h' => ?_)
      (fun _ _ h' => h')
    exact (Runs.each_inv (fun r _ w'' h'' => removeOwned_keeps r w'' h'') h').mono
      (fun _ _ h'' => Or.inr h'') (fun _ _ h'' => h'')

theorem updateProtection_runs {endpoints : List IPAddress} (h : Settled orig d w) :
    Runs Quiet (InvMoment orig d) (updateProtection endpoints)
      (fun _ w' => w' = w ∨ Held orig d .gatewayActive w.rollbacks w') (Threw orig d w) w := by
  refine Runs.bind (waitGate_runs (fun _ hr => hr) h.inv ?_ (fun _ => Or.inl rfl))
  refine Runs.tryCatch ((updateTry_runs h).mono (fun _ _ h' => h') (fun e w' h' => ?_))
  refine Runs.bind (Runs.bind (Runs.get (Runs.ite (fun _ => ?_) (fun hj => absurd h'.journal hj))))
  exact (rollbackInternal_runs h'.inv h'.journal h'.rollbacks).mono
    (fun _ w'' h'' => Runs.throw (Or.inr (Or.inl h''))) (fun e w'' h'' => Or.inr (Or.inr h''))

/-- `RollbackInternalAsync` between operations, with or without a journal. -/
theorem rollbackInternal_settled (h : Settled orig d w) :
    Runs Quiet (InvMoment orig d) rollbackInternal
      (fun _ w' => w.journal = none ∧ w' = w ∨ w.journal.isSome ∧ RolledBack orig d w.rollbacks w')
      (RollbackFailed orig d w.rollbacks) w := by
  by_cases hj : w.journal.isSome
  · exact (rollbackInternal_runs h.inv hj rfl).mono (fun _ w' h' => Or.inr ⟨hj, h'⟩) (fun _ _ h' => h')
  · have hnone : w.journal = none := by simpa using hj
    refine Runs.bind (Runs.get ?_)
    simp only [hnone]
    exact Runs.pure (Or.inl ⟨trivial, rfl⟩)

theorem rollback_runs (h : Settled orig d w) :
    Runs Quiet (InvMoment orig d) rollback
      (fun _ w' => w.journal = none ∧ w' = w ∨ w.journal.isSome ∧ RolledBack orig d w.rollbacks w')
      (fun e w' => w' = w ∨ RollbackFailed orig d w.rollbacks e w') w :=
  Runs.bind (waitGate_runs (fun _ hr => hr) h.inv
    ((rollbackInternal_settled h).mono (fun _ _ h' => h') (fun _ _ h' => Or.inr h')) (fun _ => Or.inl rfl))

/-- A controller that holds the transaction whose journal is on disk, if there
is one: no other instance left it. -/
def Sole (w : RouteWorld D) : Prop := w.journal = none → w.file = none

/-- How any operation leaves the world: no rollback ran, or one restored
everything, or one failed and kept the journal. -/
def Outcome (orig : List RouteEntry) (d : D) (w w' : RouteWorld D) : Prop :=
  Settled orig d w' ∧
    ((w'.rollbacks = w.rollbacks ∧ (Sole w → Sole w')) ∨
      RolledBack orig d w.rollbacks w' ∨ ∃ e, RollbackFailed orig d w.rollbacks e w')

omit [DecidableEq D] in
theorem Outcome.refl (h : Settled orig d w) : Outcome orig d w w :=
  ⟨h, Or.inl ⟨rfl, fun hw => hw⟩⟩

omit [DecidableEq D] in
theorem Threw.outcome {e : Err} {w' : RouteWorld D} (hw : Settled orig d w) (h : Threw orig d w e w') :
    Outcome orig d w w' := by
  rcases h with rfl | h' | h'
  · exact Outcome.refl hw
  · exact ⟨h'.settled, Or.inr (Or.inl h')⟩
  · exact ⟨h'.settled, Or.inr (Or.inr ⟨e, h'⟩)⟩

omit [DecidableEq D] in
theorem RolledBack.outcome {w' : RouteWorld D} (h : RolledBack orig d w.rollbacks w') :
    Outcome orig d w w' :=
  ⟨h.settled, Or.inr (Or.inl h)⟩

omit [DecidableEq D] in
theorem RollbackFailed.outcome {e : Err} {w' : RouteWorld D}
    (h : RollbackFailed orig d w.rollbacks e w') : Outcome orig d w w' :=
  ⟨h.settled, Or.inr (Or.inr ⟨e, h⟩)⟩

omit [DecidableEq D] in
theorem Held.outcome {w' : RouteWorld D} (h : Held orig d st w.rollbacks w') : Outcome orig d w w' := by
  have hsome : w'.journal ≠ none := Option.isSome_iff_ne_none.mp h.journal
  refine ⟨⟨h.inv, fun hj => absurd hj hsome, fun _ => h.file⟩, Or.inl ⟨h.rollbacks, ?_⟩⟩
  exact fun _ hj => absurd hj hsome

omit [DecidableEq D] in
/-- What an outcome leaves to a controller that holds every transaction. -/
theorem Outcome.sole {w' : RouteWorld D} (h : Outcome orig d w w') (hw : Sole w) : Sole w' := by
  rcases h.2 with ⟨_, hsole⟩ | h' | ⟨e, h'⟩
  · exact hsole hw
  · exact fun _ => h'.2.1.file
  · exact fun hj => absurd hj (Option.isSome_iff_ne_none.mp h'.2.1.journal)

/-- `RecoverAsync` returns with no journal file left; where there was none it
does nothing. -/
theorem recover_runs (h : Settled orig d w) :
    Runs Quiet (InvMoment orig d) recover
      (fun _ w' => Outcome orig d w w' ∧ w'.file = none ∧ (w.file = none → w' = w))
      (fun _ w' => Outcome orig d w w' ∧ (w.file = none → w' = w)) w := by
  have hsame := Outcome.refl h
  refine Runs.bind (waitGate_runs (fun _ hr => hr) h.inv ?_ (fun _ => ⟨hsame, fun _ => rfl⟩))
  refine Runs.bind (Runs.get (Runs.ite (fun hf => ?_) (fun hf => ?_)))
  · have hsome : ∀ {w' : RouteWorld D}, w.file = none → w' = w := fun hnone => by simp [hnone] at hf
    refine Runs.bind (readJournal_runs (fun _ hr => hr) h.inv (fun j hj => ?_)
      (fun _ => ⟨hsame, fun _ => rfl⟩))
    refine Runs.bind (setJournal_runs ?_)
    refine (rollbackInternal_runs (h.inv.load hj) rfl rfl).mono (fun _ w' h' => ?_) (fun e w' h' => ?_)
    · exact ⟨RolledBack.outcome h', h'.2.1.file, hsome⟩
    · exact ⟨RollbackFailed.outcome h', hsome⟩
  · exact Runs.pure ⟨hsame, by simpa using hf, fun _ => rfl⟩

theorem reconcile_runs (h : Settled orig d w) :
    Runs Quiet (InvMoment orig d) reconcile (fun _ => Outcome orig d w) (fun _ => Outcome orig d w) w := by
  have hsame := Outcome.refl h
  have hroll : Runs Quiet (InvMoment orig d) rollbackInternal (fun _ => Outcome orig d w)
      (fun _ => Outcome orig d w) w := by
    refine (rollbackInternal_settled h).mono (fun _ w' h' => ?_) (fun _ _ h' => h'.outcome)
    rcases h' with ⟨_, rfl⟩ | ⟨_, h'⟩
    · exact hsame
    · exact h'.outcome
  refine Runs.bind (waitGate_runs (fun _ hr => hr) h.inv (Runs.bind (Runs.get ?_)) (fun _ => hsame))
  cases hj : w.journal with
  | none => exact Runs.pure hsame
  | some j =>
    refine Runs.ite (fun _ => Runs.pure hsame) (fun _ => Runs.bind ?_)
    refine captureRoutes_runs (fun _ hr => hr) h.inv (fun s => ?_) (fun _ => hsame)
    refine Runs.ite (fun _ => hroll) (fun _ => Runs.bind ?_)
    refine listRoutes_runs (fun _ hr => hr) h.inv ?_ (fun _ => hsame)
    exact Runs.ite (fun _ => hroll) (fun _ => Runs.pure hsame)

/-- Every operation leads from a settled world to one of the outcomes. -/
theorem routeSystem_runs (op : RouteOp) (h : Settled orig d w) :
    Runs Quiet (InvMoment orig d) ((routeSystem D).exec op) (fun _ => Outcome orig d w)
      (fun _ => Outcome orig d w) w := by
  have hactive : ∀ w', w' = w ∨ Held orig d .gatewayActive w.rollbacks w' → Outcome orig d w w' := by
    intro w' h'
    rcases h' with rfl | h'
    · exact Outcome.refl h
    · exact h'.outcome
  cases op with
  | recover => exact (recover_runs h).mono (fun _ _ h' => h'.1) (fun _ _ h' => h'.1)
  | activate context => exact (activate_runs h).mono (fun _ w' => hactive w') (fun _ _ h' => h'.outcome h)
  | updateProtection endpoints =>
    exact (updateProtection_runs h).mono (fun _ w' => hactive w') (fun _ _ h' => h'.outcome h)
  | reconcile => exact reconcile_runs h
  | rollback =>
    refine (rollback_runs h).mono (fun _ w' h' => ?_) (fun _ w' h' => ?_)
    · rcases h' with ⟨_, rfl⟩ | ⟨_, h'⟩
      · exact Outcome.refl h
      · exact h'.outcome
    · rcases h' with rfl | h'
      · exact Outcome.refl h
      · exact h'.outcome

theorem routeSystem_keeps (op : RouteOp) :
    Keeps Quiet (InvMoment orig d) (Settled orig d) ((routeSystem D).exec op) :=
  fun _ h => (routeSystem_runs op h).mono (fun _ _ h' => h'.1) (fun _ _ h' => h'.1)

/-- A run without restarts keeps the controller in charge of its journal. -/
theorem routeSystem_keeps_sole (op : RouteOp) :
    Keeps Quiet (InvMoment orig d) (fun w => Settled orig d w ∧ Sole w) ((routeSystem D).exec op) :=
  fun _ h => (routeSystem_runs op h.1).mono (fun _ _ h' => ⟨h'.1, h'.sole h.2⟩)
    (fun _ _ h' => ⟨h'.1, h'.sole h.2⟩)

end Transaction

end EasyTierHost
