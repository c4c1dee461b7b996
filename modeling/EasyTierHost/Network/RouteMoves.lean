import EasyTierHost.Network.RouteController

/- What the route controller can do to the world, said once. `RemovalMoves` lists
   the moves that take a transaction back, each with what the code has checked
   before it; `TransactionMoves` adds those that carry it forward, and
   `ControllerMoves` those that open and close one. A
   predicate that survives every move survives every operation, whatever the
   replies, and here the replies may carry any edits of other programs. -/
namespace EasyTierHost
open Effects Effects.Prog GatewayRouteController

variable {D : Type}

/-- The table after the edits of other programs. -/
def RouteWorld.edited (w : RouteWorld D) (edits : List Edit) : RouteWorld D :=
  { w with table := edits.foldl Edit.apply w.table }

/-- The moves of an open transaction that is only taken back keep `P`, and the
moments among them are in `I`. -/
structure RemovalMoves (ok : RouteReply D → Prop) (I : Moment RouteEvent (RouteWorld D) → Prop)
    (P : RouteWorld D → Prop) : Prop where
  foreign : ∀ w r, P w → ok r → I ⟨.foreign, w, w.edited r.foreign⟩ ∧ P (w.edited r.foreign)
  strike : ∀ w j route, P w → w.journal = some j →
    P { w with
        journal := some { j with owned := j.owned.filter (fun x => !RoutePlanner.sameIdentity x route) } }
  flag : ∀ w j b, P w → w.journal = some j → P { w with journal := some { j with dnsMayHaveChanged := b } }
  save : ∀ w j, P w → w.journal = some j →
    I ⟨.save, w, w⟩ ∧ I ⟨.save, w, { w with file := some j }⟩ ∧ P { w with file := some j }
  delete : ∀ w j route, P w → w.journal = some j → route ∈ j.owned →
    I ⟨.delete route, w, w⟩ ∧
      I ⟨.delete route, w, { w with table := w.table.filter (fun x => !RoutePlanner.sameIdentity x route) }⟩ ∧
      P { w with table := w.table.filter (fun x => !RoutePlanner.sameIdentity x route) }
  dns : ∀ w d, P w →
    I ⟨.dnsApply, w, { w with dns := d }⟩ ∧ I ⟨.dnsRestore, w, { w with dns := d }⟩ ∧ P { w with dns := d }

/-- The moves of an open transaction. -/
structure TransactionMoves (ok : RouteReply D → Prop) (I : Moment RouteEvent (RouteWorld D) → Prop)
    (P : RouteWorld D → Prop) : Prop extends RemovalMoves ok I P where
  -- a route is noted when the list just taken has nothing for its destination
  note : ∀ w j route, P w → w.journal = some j → (∀ x ∈ w.table, x.destination ≠ route.destination) →
    P { w with journal := some { j with owned := j.owned ++ [route] } }
  add : ∀ w j route, P w → w.journal = some j → route ∈ j.owned →
    I ⟨.add route, w, w⟩ ∧ I ⟨.add route, w, { w with table := w.table ++ [route] }⟩ ∧
      P { w with table := w.table ++ [route] }

/-- The moves of the operations. -/
structure ControllerMoves (ok : RouteReply D → Prop) (I : Moment RouteEvent (RouteWorld D) → Prop)
    (P : RouteWorld D → Prop) : Prop extends TransactionMoves ok I P where
  state : ∀ w s, P w → P { w with state := s }
  rollbacks : ∀ w n, P w → P { w with rollbacks := w.rollbacks ++ [n] }
  begin : ∀ w s, P w → P { w with journal := some ⟨s, [], false⟩ }
  load : ∀ w j, P w → w.file = some j → P { w with journal := some j }
  drop : ∀ w, P w → P { w with journal := none }
  deleteFile : ∀ w, P w → I ⟨.deleteFile, w, { w with file := none }⟩ ∧ P { w with file := none }

section Calls
variable {ok : RouteReply D → Prop} {I : Moment RouteEvent (RouteWorld D) → Prop}
  {P : RouteWorld D → Prop} {w : RouteWorld D} {X : Err → RouteWorld D → Prop}

/-- `P` with the journal `oj` in memory: what a call that leaves the controller's
memory alone keeps. -/
def Holding (P : RouteWorld D → Prop) (oj : Option (RouteJournal D)) (w : RouteWorld D) : Prop :=
  P w ∧ w.journal = oj

/-- `P` with some journal in memory. -/
def Open (P : RouteWorld D → Prop) (w : RouteWorld D) : Prop := P w ∧ w.journal.isSome

theorem Holding.opened {j : RouteJournal D} (h : Holding P (some j) w) : Open P w :=
  ⟨h.1, by simp [h.2]⟩

/-! ## The calls -/

theorem reply_moves (M : RemovalMoves ok I P) {oj : Option (RouteJournal D)} (h : Holding P oj w)
    {Q : RouteReply D → RouteWorld D → Prop} (hQ : ∀ r w', ok r → Holding P oj w' → Q r w') :
    Runs ok I reply Q X w := by
  refine Runs.bind (Runs.ask (fun r hr => Runs.bind ?_))
  obtain ⟨hI, hP⟩ := M.foreign w r h.1 hr
  exact Runs.effect hI (Runs.pure (hQ r _ hr ⟨hP, h.2⟩))

theorem waitGate_moves (M : RemovalMoves ok I P) {oj : Option (RouteJournal D)} (h : Holding P oj w) :
    Runs ok I waitGate (fun _ => Holding P oj) (fun _ => Holding P oj) w :=
  Runs.bind (reply_moves M h (fun _ _ _ h' => Runs.outcome (fun _ => h') (fun _ _ => h')))

theorem listRoutes_moves (M : RemovalMoves ok I P) {oj : Option (RouteJournal D)} (h : Holding P oj w) :
    Runs ok I listRoutes (fun current w' => Holding P oj w' ∧ current = w'.table)
      (fun _ => Holding P oj) w := by
  refine Runs.bind (reply_moves M h (fun r w' _ h' => Runs.bind ?_))
  exact Runs.outcome (fun _ => Runs.bind (Runs.get (Runs.pure ⟨h', rfl⟩))) (fun _ _ => h')

theorem captureRoutes_moves (M : RemovalMoves ok I P) {oj : Option (RouteJournal D)}
    (h : Holding P oj w) : Runs ok I captureRoutes (fun _ => Holding P oj) (fun _ => Holding P oj) w := by
  refine Runs.bind (reply_moves M h (fun r w' _ h' => Runs.bind ?_))
  exact Runs.outcome (fun _ => Runs.pure h') (fun _ _ => h')

theorem captureDns_moves (M : RemovalMoves ok I P) {oj : Option (RouteJournal D)}
    {s : RouteSnapshot D} (h : Holding P oj w) :
    Runs ok I (captureDns s) (fun _ => Holding P oj) (fun _ => Holding P oj) w := by
  refine Runs.bind (reply_moves M h (fun r w' _ h' => Runs.bind ?_))
  exact Runs.outcome (fun _ => Runs.bind (Runs.get (Runs.pure h'))) (fun _ _ => h')

theorem checkProbe_moves (M : RemovalMoves ok I P) {oj : Option (RouteJournal D)}
    (h : Holding P oj w) : Runs ok I checkProbe (fun _ => Holding P oj) (fun _ => Holding P oj) w := by
  refine Runs.bind (reply_moves M h (fun r w' _ h' => Runs.bind ?_))
  exact Runs.outcome (fun _ => Runs.pure h') (fun _ _ => h')

theorem readJournal_moves (M : RemovalMoves ok I P) {oj : Option (RouteJournal D)}
    (h : Holding P oj w) :
    Runs ok I readJournal (fun j w' => P w' ∧ w'.file = some j) (fun _ => P) w := by
  refine Runs.bind (reply_moves M h (fun r w' _ h' => Runs.bind ?_))
  refine Runs.outcome (fun _ => Runs.bind (Runs.get ?_)) (fun _ _ => h'.1)
  cases hf : w'.file with
  | none => exact Runs.throw h'.1
  | some j => exact Runs.pure ⟨h'.1, hf⟩

theorem addRoute_moves (M : TransactionMoves ok I P) {j : RouteJournal D} {route : RouteEntry}
    (h : Holding P (some j) w) (hr : route ∈ j.owned) :
    Runs ok I (addRoute route) (fun _ => Holding P (some j)) (fun _ => Holding P (some j)) w := by
  refine Runs.bind (reply_moves M.toRemovalMoves h (fun r w' _ h' => Runs.bind ?_))
  obtain ⟨hnone, hsome, hP⟩ := M.add w' j route h'.1 h'.2 hr
  refine Runs.effectIf (fun _ => ⟨hsome, ?_⟩) (fun _ => ⟨hnone, ?_⟩)
  · exact Runs.outcome (fun _ => ⟨hP, h'.2⟩) (fun _ _ => ⟨hP, h'.2⟩)
  · exact Runs.outcome (fun _ => h') (fun _ _ => h')

theorem deleteRoute_moves (M : RemovalMoves ok I P) {j : RouteJournal D} {route : RouteEntry}
    (h : Holding P (some j) w) (hr : route ∈ j.owned) :
    Runs ok I (deleteRoute route) (fun _ => Holding P (some j)) (fun _ => Holding P (some j)) w := by
  refine Runs.bind (reply_moves M h (fun r w' _ h' => Runs.bind ?_))
  obtain ⟨hnone, hsome, hP⟩ := M.delete w' j route h'.1 h'.2 hr
  refine Runs.effectIf (fun _ => ⟨hsome, ?_⟩) (fun _ => ⟨hnone, ?_⟩)
  · exact Runs.outcome (fun _ => ⟨hP, h'.2⟩) (fun _ _ => ⟨hP, h'.2⟩)
  · exact Runs.outcome (fun _ => h') (fun _ _ => h')

theorem save_moves (M : RemovalMoves ok I P) {j : RouteJournal D} (h : Holding P (some j) w) :
    Runs ok I save (fun _ => Holding P (some j)) (fun _ => Holding P (some j)) w := by
  refine Runs.bind (reply_moves M h (fun r w' _ h' => Runs.bind ?_))
  obtain ⟨hnone, hsome, hP⟩ := M.save w' j h'.1 h'.2
  have hw : { w' with file := w'.journal <|> w'.file } = { w' with file := some j } := by
    rw [h'.2]; rfl
  refine Runs.effectIf (fun _ => ?_) (fun _ => ⟨hnone, ?_⟩)
  · rw [hw]
    exact ⟨hsome, Runs.outcome (fun _ => ⟨hP, h'.2⟩) (fun _ _ => ⟨hP, h'.2⟩)⟩
  · exact Runs.outcome (fun _ => h') (fun _ _ => h')

theorem applyDns_moves (M : RemovalMoves ok I P) {oj : Option (RouteJournal D)} (h : Holding P oj w) :
    Runs ok I applyDns (fun _ => Holding P oj) (fun _ => Holding P oj) w := by
  refine Runs.bind (reply_moves M h (fun r w' _ h' => Runs.bind ?_))
  refine (Runs.each_inv (J := Holding P oj) (fun d _ w hw => ?_) h').mono (fun _ w hw => ?_) (fun _ _ hX => hX)
  · exact Runs.effect (M.dns w d hw.1).1 ⟨(M.dns w d hw.1).2.2, hw.2⟩
  · exact Runs.outcome (fun _ => hw) (fun _ _ => hw)

theorem restoreDns_moves [DecidableEq D] (M : RemovalMoves ok I P) {oj : Option (RouteJournal D)}
    {s : RouteSnapshot D} (h : Holding P oj w) :
    Runs ok I (restoreDns s) (fun _ => Holding P oj) (fun _ => Holding P oj) w := by
  refine Runs.bind (reply_moves M h (fun r w' _ h' => ?_))
  cases s.dnsState with
  | none => exact Runs.throw h'
  | some captured =>
    refine Runs.seq (Runs.each_inv (J := Holding P oj) (fun d _ w hw => ?_) h') (fun _ w hw => ?_)
    · obtain ⟨_, hI, hP⟩ := M.dns w (if w.dns = captured then captured else d) hw.1
      exact Runs.effect hI ⟨hP, hw.2⟩
    · refine Runs.bind (Runs.outcome (fun _ => ?_) (fun _ _ => hw))
      obtain ⟨_, hI, hP⟩ := M.dns w captured hw.1
      exact Runs.effect hI ⟨hP, hw.2⟩

theorem theJournal_open {Q : RouteJournal D → RouteWorld D → Prop} (h : Open P w)
    (hQ : ∀ j, Holding P (some j) w → Q j w) : Runs ok I theJournal Q X w := by
  obtain ⟨j, hj⟩ := Option.isSome_iff_exists.mp h.2
  refine Runs.bind (Runs.get ?_)
  simp only [hj]
  exact Runs.pure (hQ j ⟨h.1, hj⟩)

theorem theJournal_holding {j : RouteJournal D} {Q : RouteJournal D → RouteWorld D → Prop}
    (h : Holding P (some j) w) (hQ : Q j w) : Runs ok I theJournal Q X w := by
  refine Runs.bind (Runs.get ?_)
  simp only [h.2]
  exact Runs.pure hQ

/-! ## Inside a transaction -/

theorem addOwned_moves (M : TransactionMoves ok I P) (route : RouteEntry) :
    Keeps ok I (Open P) (addOwned route) := by
  intro w h
  obtain ⟨j, hj⟩ := Option.isSome_iff_exists.mp h.2
  have hw : Holding P (some j) w := ⟨h.1, hj⟩
  refine Runs.bind ((listRoutes_moves M.toRemovalMoves hw).mono ?_ (fun _ _ h' => h'.opened))
  intro current w' h'
  obtain ⟨h', rfl⟩ := h'
  refine Runs.bind (Runs.refuse (fun hc => ?_) (fun _ => h'.opened))
  refine Runs.bind (theJournal_holding h' (Runs.bind (Runs.modify ?_)))
  have hfree : ∀ x ∈ w'.table, x.destination ≠ route.destination :=
    fun x hx he => hc (List.any_eq_true.mpr ⟨x, hx, by simp [he]⟩)
  have hnoted : Holding P (some { j with owned := j.owned ++ [route] })
      { w' with journal := some { j with owned := j.owned ++ [route] } } :=
    ⟨M.note w' j route h'.1 h'.2 hfree, rfl⟩
  refine Runs.bind ((save_moves M.toRemovalMoves hnoted).mono (fun _ w'' h'' => ?_) (fun _ _ h'' => h''.opened))
  exact (addRoute_moves M h'' (by simp)).mono (fun _ _ h => h.opened) (fun _ _ h => h.opened)

theorem deleteListed_moves (M : RemovalMoves ok I P) {j : RouteJournal D} {route : RouteEntry}
    (h : Holding P (some j) w) (hr : route ∈ j.owned) :
    Runs ok I (deleteListed route) (fun _ => Holding P (some j)) (fun _ => Holding P (some j)) w := by
  refine Runs.seq (listRoutes_moves M h) (fun _ w' h' => ?_)
  exact Runs.ite (fun _ => deleteRoute_moves M h'.1 hr) (fun _ => Runs.pure h'.1)

theorem removeOwned_moves (M : RemovalMoves ok I P) (route : RouteEntry) :
    Keeps ok I (Open P) (removeOwned route) := by
  intro w h
  refine Runs.bind (theJournal_open h (fun j hw => Runs.ite (fun hc => ?_) (fun _ => Runs.pure h)))
  obtain ⟨r, hr, he⟩ := List.any_eq_true.mp hc
  rw [RoutePlanner.sameIdentity_iff] at he
  subst he
  refine Runs.bind ((deleteListed_moves M hw hr).mono (fun _ w' h' => ?_) (fun _ _ h' => h'.opened))
  refine Runs.bind ((listRoutes_moves M h').mono (fun _ w'' h'' => ?_) (fun _ _ h'' => h''.opened))
  refine Runs.bind (Runs.refuse (fun _ => ?_) (fun _ => h''.1.opened))
  refine Runs.bind (theJournal_holding h''.1 (Runs.bind (Runs.modify ?_)))
  have hstruck := M.strike w'' j r h''.1.1 h''.1.2
  exact (save_moves M ⟨hstruck, rfl⟩).mono (fun _ _ h => h.opened) (fun _ _ h => h.opened)

theorem undoDns_moves [DecidableEq D] (M : RemovalMoves ok I P) : Keeps ok I (Open P) undoDns := by
  intro w h
  refine Runs.bind (theJournal_open h (fun j hw => Runs.bind ?_))
  refine (restoreDns_moves M hw).mono (fun _ w' h' => ?_) (fun _ _ h' => h'.opened)
  refine Runs.bind (Runs.modify ?_)
  have hflag := M.flag w' j false h'.1 h'.2
  exact (save_moves M ⟨hflag, rfl⟩).mono (fun _ _ h => h.opened) (fun _ _ h => h.opened)

theorem undoChangedDns_moves [DecidableEq D] (M : RemovalMoves ok I P) (errors : List Err) :
    Keeps ok I (Open P) (undoChangedDns errors) := by
  intro w h
  refine Runs.bind (theJournal_open h (fun _ _ => Runs.bind (Runs.attemptIf (fun _ => ?_) (fun _ => Runs.pure h))))
  exact (undoDns_moves M w h).mono (fun _ _ h' => Runs.pure h') (fun _ _ h' => Runs.pure h')

theorem removals_moves (M : RemovalMoves ok I P) (l : List RouteEntry) {X : Err → RouteWorld D → Prop}
    (h : Open P w) : Runs ok I (collect removeOwned l) (fun _ => Open P) X w :=
  Runs.collect_prefix (J := fun _ _ => Open P) (fun _ r _ _ _ w' h' => removeOwned_moves M r w' h') h

theorem rollbackErrors_moves [DecidableEq D] (M : RemovalMoves ok I P) (j : RouteJournal D) :
    Keeps ok I (Open P) (rollbackErrors j) :=
  fun _ h => Runs.seq (removals_moves M _ h) (fun _ w' h' => undoChangedDns_moves M _ w' h')

theorem addAll_moves (M : TransactionMoves ok I P) (l : List RouteEntry) :
    Keeps ok I (Open P) (each addOwned l) :=
  fun _ h => Runs.each_inv (fun r _ w' h' => addOwned_moves M r w' h') h

theorem removeAll_moves (M : RemovalMoves ok I P) (l : List RouteEntry) :
    Keeps ok I (Open P) (each removeOwned l) :=
  fun _ h => Runs.each_inv (fun r _ w' h' => removeOwned_moves M r w' h') h

/-- The state is out of reach of everything inside a transaction. -/
theorem stays_moves (st : GatewayState) (hI : ∀ m, m.before.state = st → m.after.state = st → I m) :
    TransactionMoves ok I (fun w : RouteWorld D => w.state = st) where
  toRemovalMoves :=
    { foreign := fun _ _ h _ => ⟨hI _ h h, h⟩
      strike := fun _ _ _ h _ => h
      flag := fun _ _ _ h _ => h
      save := fun _ _ h _ => ⟨hI _ h h, hI _ h h, h⟩
      delete := fun _ _ _ h _ _ => ⟨hI _ h h, hI _ h h, h⟩
      dns := fun _ _ h => ⟨hI _ h h, hI _ h h, h⟩ }
  note := fun _ _ _ h _ _ => h
  add := fun _ _ _ h _ _ => ⟨hI _ h h, hI _ h h, h⟩

/-! ## The operations -/

variable [DecidableEq D]

omit [DecidableEq D] in
/-- A rollback ends without a journal, or it keeps the journal and throws. -/
theorem finishRollback_ends {es : List Err} {Q : Unit → RouteWorld D → Prop}
    (hdone : es = [] → I ⟨.deleteFile, { w with rollbacks := w.rollbacks ++ [es.length] },
        { w with rollbacks := w.rollbacks ++ [es.length], file := none }⟩ ∧
      Q () { w with rollbacks := w.rollbacks ++ [es.length], file := none, journal := none, state := .physicalOnly })
    (hfailed : ∀ e, X e { w with rollbacks := w.rollbacks ++ [es.length], state := .faulted }) :
    Runs ok I (finishRollback es) Q X w := by
  refine Runs.bind (Runs.modify (Runs.ite (fun _ => ?_) (fun hes => ?_)))
  · exact Runs.bind (Runs.modify (Runs.throw (hfailed _)))
  · obtain ⟨hI, hQ⟩ := hdone (by simpa using hes)
    exact Runs.bind (Runs.effect hI (Runs.bind (Runs.modify (Runs.modify hQ))))

/-- A rollback of a journal is made of removals and of its end. -/
theorem rollbackInternal_removes (M : RemovalMoves ok I P) (hj : w.journal.isSome)
    (hP : P { w with state := .rollingBack }) {Q : Unit → RouteWorld D → Prop}
    (hfinish : ∀ es w', Open P w' → Runs ok I (finishRollback es) Q X w')
    (hstopped : ∀ e w', Open P w' → X e w') : Runs ok I rollbackInternal Q X w := by
  obtain ⟨j, hj⟩ := Option.isSome_iff_exists.mp hj
  refine Runs.bind (Runs.get ?_)
  simp only [hj]
  have hopen : Open P { w with state := .rollingBack } := ⟨hP, by simp [hj]⟩
  refine Runs.bind (Runs.modify (Runs.bind ?_))
  exact (rollbackErrors_moves M j _ hopen).mono hfinish hstopped

theorem rollbackInternal_moves (M : ControllerMoves ok I P) : Keeps ok I P rollbackInternal := by
  intro w h
  cases hj : w.journal with
  | none =>
    refine Runs.bind (Runs.get ?_)
    simp only [hj]
    exact Runs.pure h
  | some j =>
    refine rollbackInternal_removes M.toRemovalMoves (by simp [hj]) (M.state w _ h) (fun es w' h' => ?_)
      (fun _ _ h' => h'.1)
    have hnoted := M.rollbacks w' es.length h'.1
    refine finishRollback_ends (fun _ => ?_) (fun _ => M.state _ _ hnoted)
    obtain ⟨hI, hdeleted⟩ := M.deleteFile _ hnoted
    exact ⟨hI, M.state _ _ (M.drop _ hdeleted)⟩

omit [DecidableEq D] in
theorem install_moves (M : ControllerMoves ok I P) {context : GatewayContext} {s : RouteSnapshot D} :
    Keeps ok I (Open P) (install context s) := by
  intro w h
  have hadd := addAll_moves M.toTransactionMoves
  have hstate : ∀ {w : RouteWorld D} (st), Open P w → Open P { w with state := st } :=
    fun st h => ⟨M.state _ st h.1, h.2⟩
  refine Runs.bind (Runs.ofExcept (fun protection _ => ?_) (fun _ _ => h))
  refine Runs.seq (hadd protection w h) (fun _ w h => ?_)
  refine Runs.bind (Runs.modify (Runs.bind (Runs.refuse (fun _ => ?_) (fun _ => hstate _ h))))
  refine Runs.seq (hadd _ _ (hstate _ h)) (fun _ w h => ?_)
  refine Runs.bind (Runs.modify (Runs.bind ?_))
  obtain ⟨j, hj⟩ := Option.isSome_iff_exists.mp h.2
  have hw : Holding P (some j) { w with state := .probing } := ⟨M.state _ _ h.1, hj⟩
  refine (checkProbe_moves M.toRemovalMoves hw).mono (fun healthy w h => ?_) (fun _ _ h => h.opened)
  refine Runs.bind (Runs.refuse (fun _ => ?_) (fun _ => h.opened))
  refine Runs.bind (theJournal_holding h (Runs.bind (Runs.modify (Runs.bind ?_))))
  have hflag := M.flag w j true h.1 h.2
  refine (save_moves M.toRemovalMoves ⟨hflag, rfl⟩).mono (fun _ w h => ?_) (fun _ _ h => h.opened)
  refine Runs.bind ((applyDns_moves M.toRemovalMoves h).mono (fun _ w h => ?_) (fun _ _ h => h.opened))
  refine Runs.seq (hadd _ w h.opened) (fun _ w h => ?_)
  refine Runs.seq (removeAll_moves M.toRemovalMoves _ w h) (fun _ w h => ?_)
  exact Runs.modify (hstate _ h)

omit [DecidableEq D] in
theorem activateTry_moves (M : ControllerMoves ok I P) {context : GatewayContext} :
    Keeps ok I P (activateTry context) := by
  intro w h
  refine Runs.bind (Runs.get (Runs.ite (fun _ => Runs.pure h) (fun _ => ?_)))
  refine Runs.bind (Runs.refuse (fun _ => ?_) (fun _ => h))
  refine Runs.bind (Runs.ofExcept (fun _ _ => ?_) (fun _ _ => h))
  refine Runs.bind (Runs.modify (Runs.bind ?_))
  have hw : Holding P w.journal { w with state := .capturing } := ⟨M.state w _ h, rfl⟩
  refine (captureRoutes_moves M.toRemovalMoves hw).mono (fun s w' h' => ?_) (fun _ _ h' => h'.1)
  refine Runs.bind (Runs.refuse (fun _ => Runs.bind ?_) (fun _ => h'.1))
  refine (captureDns_moves M.toRemovalMoves h').mono (fun s w'' h'' => ?_) (fun _ _ h'' => h''.1)
  refine Runs.bind (Runs.modify (Runs.bind ?_))
  refine (save_moves M.toRemovalMoves ⟨M.begin w'' s h''.1, rfl⟩).mono (fun _ w h => ?_) (fun _ _ h => h.1)
  exact (install_moves M w h.opened).mono (fun _ _ h => h.1) (fun _ _ h => h.1)

omit [DecidableEq D] in
theorem updateTry_moves (M : ControllerMoves ok I P) {endpoints : List IPAddress} :
    Keeps ok I P (updateTry endpoints) := by
  intro w h
  refine Runs.bind (Runs.get ?_)
  cases hj : w.journal with
  | none => exact Runs.pure h
  | some j =>
    refine Runs.ite (fun _ => Runs.pure h) (fun _ => ?_)
    refine Runs.bind (Runs.ofExcept (fun desired _ => ?_) (fun _ _ => h))
    refine Runs.bind (Runs.refuse (fun _ => Runs.bind ?_) (fun _ => h))
    have hopen : Open P w := ⟨h, by simp [hj]⟩
    refine (addAll_moves M.toTransactionMoves _ w hopen).mono (fun _ w' h' => ?_) (fun _ _ h' => h'.1)
    exact (removeAll_moves M.toRemovalMoves _ w' h').mono (fun _ _ h => h.1) (fun _ _ h => h.1)

/-- What the rollback and the two try blocks keep, every operation keeps: around them
it waits, reads and looks. -/
theorem exec_keeps (M : RemovalMoves ok I P) (hstate : ∀ w st, P w → P { w with state := st })
    (hload : ∀ w j, P w → w.file = some j → P { w with journal := some j })
    (hroll : Keeps ok I P rollbackInternal) (hactivate : ∀ context, Keeps ok I P (activateTry context))
    (hupdate : ∀ endpoints, Keeps ok I P (updateTry endpoints)) (op : RouteOp) :
    Keeps ok I P ((routeSystem D).exec op) := by
  intro w h
  have hwait : Runs ok I waitGate (fun _ => P) (fun _ => P) w :=
    (waitGate_moves M ⟨h, rfl⟩).mono (fun _ _ h' => h'.1) (fun _ _ h' => h'.1)
  cases op with
  | recover =>
    refine Runs.seq hwait (fun _ w' h' => Runs.bind (Runs.get ?_))
    refine Runs.ite (fun _ => Runs.bind ?_) (fun _ => Runs.pure h')
    refine (readJournal_moves M ⟨h', rfl⟩).mono (fun j w'' h'' => ?_) (fun _ _ h'' => h'')
    exact Runs.bind (Runs.modify (hroll _ (hload w'' j h''.1 h''.2)))
  | activate context =>
    refine Runs.seq hwait (fun _ w' h' => ?_)
    refine Runs.tryCatch ((hactivate context w' h').mono (fun _ _ h'' => h'') (fun e w'' h'' => ?_))
    refine Runs.bind (Runs.bind (Runs.get (Runs.ite (fun _ => ?_) (fun _ => ?_))))
    · exact (hroll w'' h'').mono (fun _ _ h => Runs.throw h) (fun _ _ h => h)
    · exact Runs.modify (Runs.throw (hstate w'' _ h''))
  | updateProtection endpoints =>
    refine Runs.seq hwait (fun _ w' h' => ?_)
    refine Runs.tryCatch ((hupdate endpoints w' h').mono (fun _ _ h'' => h'') (fun e w'' h'' => ?_))
    refine Runs.bind (Runs.bind (Runs.get (Runs.ite (fun _ => ?_) (fun _ => ?_))))
    · exact (hroll w'' h'').mono (fun _ _ h => Runs.throw h) (fun _ _ h => h)
    · exact Runs.pure (Runs.throw h'')
  | reconcile =>
    refine Runs.seq hwait (fun _ w' h' => Runs.bind (Runs.get ?_))
    cases w'.journal with
    | none => exact Runs.pure h'
    | some j =>
      refine Runs.ite (fun _ => Runs.pure h') (fun _ => Runs.bind ?_)
      refine (captureRoutes_moves M ⟨h', rfl⟩).mono (fun s w'' h'' => ?_) (fun _ _ h'' => h''.1)
      refine Runs.ite (fun _ => hroll w'' h''.1) (fun _ => Runs.bind ?_)
      refine (listRoutes_moves M h'').mono (fun _ w₃ h₃ => ?_) (fun _ _ h₃ => h₃.1)
      exact Runs.ite (fun _ => hroll w₃ h₃.1.1) (fun _ => Runs.pure h₃.1.1)
  | rollback => exact Runs.seq hwait (fun _ w' h' => hroll w' h')

/-- What every move keeps, every operation keeps. -/
theorem routeSystem_moves (M : ControllerMoves ok I P) (op : RouteOp) :
    Keeps ok I P ((routeSystem D).exec op) :=
  exec_keeps M.toRemovalMoves M.state M.load (rollbackInternal_moves M)
    (fun _ => activateTry_moves M) (fun _ => updateTry_moves M) op

end Calls

end EasyTierHost
