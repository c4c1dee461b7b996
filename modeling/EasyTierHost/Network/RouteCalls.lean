import EasyTierHost.Network.RouteController

/- One `Runs` rule for each call of the route controller, in a world no other
   program writes to: every allowed reply carries no foreign edit. The rules
   leave the moment predicate and the postconditions open, so that a proof about
   an operation never unfolds a call. -/
namespace EasyTierHost.GatewayRouteController
open Effects Effects.Prog

/-- A reply with no edit by another program. -/
def Quiet {D : Type} (r : RouteReply D) : Prop := r.foreign = []

theorem goodScript_quiet (n : Nat) : Quiet (goodScript n) := rfl

section Calls
variable {D : Type} {ok : RouteReply D → Prop} {I : Moment RouteEvent (RouteWorld D) → Prop}
  {X : Err → RouteWorld D → Prop} {w : RouteWorld D}

theorem reply_runs (hq : ∀ r, ok r → Quiet r) (hI : I ⟨.foreign, w, w⟩)
    {Q : RouteReply D → RouteWorld D → Prop} (h : ∀ r, ok r → Q r w) : Runs ok I reply Q X w := by
  refine Runs.bind (Runs.ask (fun r hr => Runs.bind ?_))
  have hw : { w with table := r.foreign.foldl Edit.apply w.table } = w := by
    rw [hq r hr]; rfl
  refine Runs.effect ?_ ?_
  · simp only [hw]; exact hI
  · simp only [hw]; exact Runs.pure (h r hr)

theorem waitGate_runs (hq : ∀ r, ok r → Quiet r) (hI : I ⟨.foreign, w, w⟩)
    {Q : Unit → RouteWorld D → Prop} (h : Q () w) (hX : ∀ e, X e w) : Runs ok I waitGate Q X w := by
  refine Runs.bind (reply_runs hq hI (fun r _ => ?_))
  exact Runs.outcome (fun _ => h) (fun e _ => hX e)

theorem listRoutes_runs (hq : ∀ r, ok r → Quiet r) (hI : I ⟨.foreign, w, w⟩)
    {Q : List RouteEntry → RouteWorld D → Prop} (h : Q w.table w) (hX : ∀ e, X e w) :
    Runs ok I listRoutes Q X w := by
  refine Runs.bind (reply_runs hq hI (fun r _ => Runs.bind ?_))
  exact Runs.outcome (fun _ => Runs.bind (Runs.get (Runs.pure h))) (fun e _ => hX e)

theorem captureRoutes_runs (hq : ∀ r, ok r → Quiet r) (hI : I ⟨.foreign, w, w⟩)
    {Q : RouteSnapshot D → RouteWorld D → Prop} (h : ∀ s, Q s w) (hX : ∀ e, X e w) :
    Runs ok I captureRoutes Q X w := by
  refine Runs.bind (reply_runs hq hI (fun r _ => Runs.bind ?_))
  exact Runs.outcome (fun _ => Runs.pure (h _)) (fun e _ => hX e)

theorem captureDns_runs (hq : ∀ r, ok r → Quiet r) (hI : I ⟨.foreign, w, w⟩) {s : RouteSnapshot D}
    {Q : RouteSnapshot D → RouteWorld D → Prop} (h : Q { s with dnsState := some w.dns } w)
    (hX : ∀ e, X e w) : Runs ok I (captureDns s) Q X w := by
  refine Runs.bind (reply_runs hq hI (fun r _ => Runs.bind ?_))
  exact Runs.outcome (fun _ => Runs.bind (Runs.get (Runs.pure h))) (fun e _ => hX e)

theorem checkProbe_runs (hq : ∀ r, ok r → Quiet r) (hI : I ⟨.foreign, w, w⟩)
    {Q : Bool → RouteWorld D → Prop} (h : ∀ b, Q b w) (hX : ∀ e, X e w) :
    Runs ok I checkProbe Q X w := by
  refine Runs.bind (reply_runs hq hI (fun r _ => Runs.bind ?_))
  exact Runs.outcome (fun _ => Runs.pure (h _)) (fun e _ => hX e)

theorem readJournal_runs (hq : ∀ r, ok r → Quiet r) (hI : I ⟨.foreign, w, w⟩)
    {Q : RouteJournal D → RouteWorld D → Prop} (h : ∀ j, w.file = some j → Q j w)
    (hX : ∀ e, X e w) : Runs ok I readJournal Q X w := by
  refine Runs.bind (reply_runs hq hI (fun r _ => Runs.bind ?_))
  refine Runs.outcome (fun _ => Runs.bind (Runs.get ?_)) (fun e _ => hX e)
  cases hf : w.file with
  | none => exact Runs.throw (hX _)
  | some j => exact Runs.pure (h j hf)

/-- What `AddAsync(route)` leaves. -/
def routeAdded (r : RouteReply D) (route : RouteEntry) (w : RouteWorld D) : RouteWorld D :=
  if r.applied then { w with table := w.table ++ [route] } else w

theorem addRoute_runs (hq : ∀ r, ok r → Quiet r) (hI : I ⟨.foreign, w, w⟩) {route : RouteEntry}
    {Q : Unit → RouteWorld D → Prop}
    (hA : ∀ r, ok r → I ⟨.add route, w, routeAdded r route w⟩)
    (h : ∀ r, ok r → r.err = none → Q () (routeAdded r route w))
    (hX : ∀ r e, ok r → r.err = some e → X e (routeAdded r route w)) :
    Runs ok I (addRoute route) Q X w := by
  refine Runs.bind (reply_runs hq hI (fun r hr => Runs.bind (Runs.effect (hA r hr) ?_)))
  exact Runs.outcome (h r hr) (fun e => hX r e hr)

/-- What `DeleteAsync(route)` leaves. -/
def routeDeleted (r : RouteReply D) (route : RouteEntry) (w : RouteWorld D) : RouteWorld D :=
  if r.applied then
    { w with table := w.table.filter (fun x => !RoutePlanner.sameIdentity x route) }
  else w

theorem deleteRoute_runs (hq : ∀ r, ok r → Quiet r) (hI : I ⟨.foreign, w, w⟩) {route : RouteEntry}
    {Q : Unit → RouteWorld D → Prop}
    (hD : ∀ r, ok r → I ⟨.delete route, w, routeDeleted r route w⟩)
    (h : ∀ r, ok r → r.err = none → Q () (routeDeleted r route w))
    (hX : ∀ r e, ok r → r.err = some e → X e (routeDeleted r route w)) :
    Runs ok I (deleteRoute route) Q X w := by
  refine Runs.bind (reply_runs hq hI (fun r hr => Runs.bind (Runs.effect (hD r hr) ?_)))
  exact Runs.outcome (h r hr) (fun e => hX r e hr)

/-- A save of the journal `j`: when it returns the file is `j`, when it throws
the file is `j` or what it was. -/
theorem save_runs (hq : ∀ r, ok r → Quiet r) (hI : I ⟨.foreign, w, w⟩) {j : RouteJournal D}
    (hj : w.journal = some j) {Q : Unit → RouteWorld D → Prop}
    (hS : I ⟨.save, w, { w with file := some j }⟩) (hN : I ⟨.save, w, w⟩)
    (h : Q () { w with file := some j }) (hX : ∀ e, X e { w with file := some j })
    (hX' : ∀ e, X e w) : Runs ok I save Q X w := by
  refine Runs.bind (reply_runs hq hI (fun r _ => Runs.bind ?_))
  have hw : { w with file := w.journal <|> w.file } = { w with file := some j } := by
    rw [hj]; rfl
  refine Runs.effectIf (fun _ => ?_) (fun hc => ⟨hN, ?_⟩)
  · rw [hw]
    exact ⟨hS, Runs.outcome (fun _ => h) (fun e _ => hX e)⟩
  · refine Runs.outcome (fun he => ?_) (fun e _ => hX' e)
    simp [he] at hc

/-- `ApplyAsync`: an invariant that any DNS state keeps. -/
theorem applyDns_runs (hq : ∀ r, ok r → Quiet r) {J : RouteWorld D → Prop}
    (hI : I ⟨.foreign, w, w⟩) (hJ : J w)
    (hstep : ∀ w d, J w → I ⟨.dnsApply, w, { w with dns := d }⟩ ∧ J { w with dns := d })
    (hX : ∀ e w, J w → X e w) : Runs ok I applyDns (fun _ => J) X w := by
  refine Runs.bind (reply_runs hq hI (fun r _ => Runs.bind ?_))
  refine (Runs.each_inv (X := X) (J := J) (fun d _ w hw => ?_) hJ).mono (fun _ w hw => ?_) (fun _ _ h => h)
  · exact Runs.effect (hstep w d hw).1 (hstep w d hw).2
  · exact Runs.outcome (fun _ => hw) (fun e _ => hX e w hw)

/-- `RestoreAsync` for a snapshot of the DNS state `d`: an invariant that moving
DNS keeps as long as DNS is not moved away from `d`. -/
theorem restoreDns_runs [DecidableEq D] (hq : ∀ r, ok r → Quiet r) {J : RouteWorld D → Prop}
    {s : RouteSnapshot D} {d : D} (hs : s.dnsState = some d) (hI : I ⟨.foreign, w, w⟩) (hJ : J w)
    (hstep : ∀ w d', J w → (w.dns = d → d' = d) →
      I ⟨.dnsRestore, w, { w with dns := d' }⟩ ∧ J { w with dns := d' })
    (hX : ∀ e w, J w → X e w) :
    Runs ok I (restoreDns s) (fun _ w => J w ∧ w.dns = d) X w := by
  refine Runs.bind (reply_runs hq hI (fun r _ => ?_))
  simp only [hs]
  refine Runs.bind ((Runs.each_inv (X := X) (J := J) (fun d' _ w hw => ?_) hJ).mono
    (fun _ w hw => ?_) (fun _ _ h => h))
  · have hd : w.dns = d → (if w.dns = d then d else d') = d := fun h => by rw [if_pos h]
    exact Runs.effect (hstep w _ hw hd).1 (hstep w _ hw hd).2
  · refine Runs.bind (Runs.outcome (fun _ => ?_) (fun e _ => hX e w hw))
    have := hstep w d hw (fun _ => rfl)
    exact Runs.effect this.1 ⟨this.2, rfl⟩

theorem deleteJournal_runs {Q : Unit → RouteWorld D → Prop}
    (hI : I ⟨.deleteFile, w, { w with file := none }⟩) (h : Q () { w with file := none }) :
    Runs ok I deleteJournal Q X w :=
  Runs.effect hI h

theorem setState_runs {s : GatewayState} {Q : Unit → RouteWorld D → Prop}
    (h : Q () { w with state := s }) : Runs ok I (setState s) Q X w :=
  Runs.modify h

theorem setJournal_runs {j : Option (RouteJournal D)} {Q : Unit → RouteWorld D → Prop}
    (h : Q () { w with journal := j }) : Runs ok I (setJournal j) Q X w :=
  Runs.modify h

theorem theJournal_runs {Q : RouteJournal D → RouteWorld D → Prop} {j : RouteJournal D}
    (hj : w.journal = some j) (h : Q j w) : Runs ok I theJournal Q X w := by
  refine Runs.bind (Runs.get ?_)
  simp only [hj]
  exact Runs.pure h

end Calls

end EasyTierHost.GatewayRouteController
