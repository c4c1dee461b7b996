import EasyTierHost.Network.RouteRecovery
import EasyTierHost.Network.RouteShield

/- An activation followed by any number of endpoint updates. Each of them ends in
   one of two ways: the gateway is active and protects a known endpoint set, or a
   rollback has run and the gateway is closed for good. The moments up to the
   start of a rollback never show a /1 route without the shield of the addresses
   that are to stay. -/
namespace EasyTierHost
open Effects Effects.Prog GatewayRouteController

variable {D : Type} [DecidableEq D]

/-! ## Rollbacks are out of the picture -/

/-- Every moment of a rollback is in the state `RollingBack`. -/
theorem rollbackInternal_state {ok : RouteReply D → Prop} (w : RouteWorld D) :
    Runs ok (fun m => m.after.state = .rollingBack) rollbackInternal (fun _ _ => True) (fun _ _ => True) w := by
  cases hj : w.journal with
  | none =>
    refine Runs.bind (Runs.get ?_)
    simp only [hj]
    exact Runs.pure trivial
  | some j =>
    refine rollbackInternal_removes (stays_moves .rollingBack (fun _ _ h => h)).toRemovalMoves (by simp [hj]) rfl
      (fun es w' h' => ?_) (fun _ _ _ => trivial)
    exact finishRollback_ends (fun _ => ⟨h'.1, trivial⟩) (fun _ => trivial)

omit [DecidableEq D] in
theorem NoRecursion.of_rollingBack {orig : List RouteEntry} {context : GatewayContext}
    {S : IPAddress → Prop} {w : RouteWorld D} (h : w.state = .rollingBack) : NoRecursion orig context S w :=
  fun hf => absurd h hf.1

/-! ## The operations -/

section Operations
variable {orig : List RouteEntry} {context : GatewayContext} {prev endpoints : List IPAddress}
  {since : IPAddress → Prop} {w : RouteWorld D}

theorem activate_inStep (h : Untouched w) :
    Runs Honest (ActivationMoment w.table context) (activate context)
      (fun _ w' => ∃ j front back,
        Protecting w.table context context.endpoints (· ∈ context.endpoints) j front back w')
      (fun _ _ => True) w := by
  have hwait : ActivationMoment w.table context ⟨.foreign, w, w⟩ :=
    NoRecursion.of_forall_not_mem (fun _ _ ho hd => ho hd)
  refine Runs.bind (waitGate_runs (fun _ hr => hr.quiet) hwait ?_ (fun _ => trivial))
  refine Runs.tryCatch ((activateTry_inStep h.state rfl).mono (fun _ w' h' => ?_) (fun e w' _ => ?_))
  · obtain ⟨j, front, h'⟩ := h'
    exact ⟨j, front, [], h'⟩
  · refine Runs.bind (Runs.bind (Runs.get (Runs.ite (fun _ => ?_) (fun _ => Runs.modify (Runs.throw trivial)))))
    exact ((rollbackInternal_state w').mono_moment (fun m hm => NoRecursion.of_rollingBack hm)).mono
      (fun _ _ _ => Runs.throw trivial) (fun _ _ _ => trivial)

theorem updateProtection_inStep {j : RouteJournal D} {front back : List RouteEntry}
    (h : Protecting orig context prev since j front back w) :
    Runs Honest (UpdateMoment orig context prev endpoints) (updateProtection endpoints)
      (fun _ w' => ∃ j' front' back',
        Protecting orig context endpoints (fun ip => since ip ∧ ip ∈ endpoints) j' front' back' w')
      (fun _ _ => True) w := by
  obtain ⟨routes, hp, hroutes⟩ := h.protection
  have hwait : UpdateMoment orig context prev endpoints ⟨.foreign, w, w⟩ := by
    refine NoRecursion.of_protect hp (by simp [h.inStep.journal]) (fun _ hip => hip.1) (fun ip _ hr => ?_)
    show RoutePlanner.protectOne j.snapshot ip ∈ w.table
    rw [h.inStep.table, h.owned]
    cases (hroutes _).mp hr with
    | inl hr =>
      simp [hr]
    | inr hr =>
      simp [hr]
  refine Runs.bind (waitGate_runs (fun _ hr => hr.quiet) hwait ?_ (fun _ => trivial))
  refine Runs.tryCatch ((updateTry_inStep h).mono (fun _ w' h' => h') (fun e w' _ => ?_))
  refine Runs.bind (Runs.bind (Runs.get (Runs.ite (fun _ => ?_) (fun _ => Runs.pure (Runs.throw trivial)))))
  exact ((rollbackInternal_state w').mono_moment (fun m hm => NoRecursion.of_rollingBack hm)).mono
    (fun _ _ _ => Runs.throw trivial) (fun _ _ _ => trivial)

/-- No gateway is active, and unless a rollback failed the table is the original one. -/
structure Closed (orig : List RouteEntry) (w : RouteWorld D) : Prop where
  inactive : w.state ≠ .gatewayActive
  table : Forward w → w.table = orig

/-- An update of a closed gateway does nothing. -/
theorem updateProtection_closed (h : Closed orig w) :
    Runs Honest (UpdateMoment orig context prev endpoints) (updateProtection endpoints)
      (fun _ w' => w' = w) (fun _ w' => w' = w) w := by
  have hwait : UpdateMoment orig context prev endpoints ⟨.foreign, w, w⟩ :=
    fun hf d _ ho hd => absurd (h.table hf ▸ hd) ho
  refine Runs.bind (waitGate_runs (fun _ hr => hr.quiet) hwait ?_ (fun _ => rfl))
  refine Runs.tryCatch (Runs.bind (Runs.get ?_))
  cases w.journal with
  | none => exact Runs.pure rfl
  | some j => exact Runs.ite (fun _ => Runs.pure rfl) (fun hst => absurd (not_not.mp hst) h.inactive)

omit [DecidableEq D] in
theorem Restored.closed {d : D} (h : Restored orig d w) : Closed orig w :=
  ⟨by simp [h.state], fun _ => h.table⟩

omit [DecidableEq D] in
theorem Retained.closed (h : Retained w) : Closed orig w :=
  ⟨by simp [h.state], fun hf => absurd h.state hf.2⟩

/-! ## Runs -/

/-- Between operations: the gateway protects `prev`, or it is closed. -/
def InForce (orig : List RouteEntry) (d : D) (context : GatewayContext) (prev : List IPAddress)
    (since : IPAddress → Prop) (w : RouteWorld D) : Prop :=
  Settled orig d w ∧ ((∃ j front back, Protecting orig context prev since j front back w) ∨ Closed orig w)

/-- One update after another; the endpoints in force are those of the last update
that returned. -/
def updated (p : List IPAddress × RouteWorld D) (u : List IPAddress × (Nat → RouteReply D)) :
    List IPAddress × RouteWorld D :=
  (if (updateProtection u.1 u.2 p.2).result.isOk then u.1 else p.1, (updateProtection u.1 u.2 p.2).world)

omit [DecidableEq D] in
theorem Protecting.mono_since {since' : IPAddress → Prop} {j : RouteJournal D} {front back : List RouteEntry}
    (h : Protecting orig context prev since j front back w) (hs : ∀ ip, since' ip → since ip) :
    Protecting orig context prev since' j front back w := by
  refine ⟨h.inStep, h.owned, h.protection, fun ip hip => h.since ip ?_⟩
  cases hip with
  | inl hip =>
    exact Or.inl (hs ip hip)
  | inr hip =>
    exact Or.inr hip

theorem inForce_activate (h : Untouched w) {s : Nat → RouteReply D} (hs : ∀ n, Honest (s n)) :
    (∀ m ∈ (activate context s w).trace, ActivationMoment w.table context m) ∧
      InForce w.table w.dns context context.endpoints (· ∈ context.endpoints) (activate context s w).world := by
  have hq : ∀ n, Quiet (s n) := fun n => (hs n).quiet
  have hruns : Runs Honest (ActivationMoment w.table context) (activate context) _ _ w := activate_inStep h
  have hsafe : Runs Quiet (InvMoment w.table w.dns) (activate context) _ _ w := activate_runs h.settled
  obtain ⟨hmoments, hend, _⟩ := hruns s hs
  obtain ⟨_, hend', _⟩ := hsafe s hq
  have hsettled := (routeSystem_runs (.activate context) h.settled s hq).2.1.always.1
  refine ⟨hmoments, hsettled, ?_⟩
  cases hok : (activate context s w).result.isOk with
  | true =>
    obtain ⟨_, hprot⟩ := hend.returned hok
    exact Or.inl hprot
  | false =>
    obtain ⟨e, hthrew⟩ := hend'.threw hok
    rcases hthrew with hsame | hback | hfail
    · rw [hsame]
      exact Or.inr ⟨by simp [h.state], fun _ => rfl⟩
    · exact Or.inr hback.2.1.closed
    · exact Or.inr hfail.2.1.closed

omit [DecidableEq D] in
theorem InForce.mono_since {d : D} {since' : IPAddress → Prop} (h : InForce orig d context prev since w)
    (hs : ∀ ip, since' ip → since ip) : InForce orig d context prev since' w := by
  refine ⟨h.1, ?_⟩
  rcases h.2 with ⟨j, front, back, hprot⟩ | hclosed
  · exact Or.inl ⟨j, front, back, hprot.mono_since hs⟩
  · exact Or.inr hclosed

theorem InForce.update {d : D} (h : InForce orig d context prev since w) {s : Nat → RouteReply D}
    (hs : ∀ n, Honest (s n)) :
    (∀ m ∈ (updateProtection endpoints s w).trace, UpdateMoment orig context prev endpoints m) ∧
      InForce orig d context (updated (prev, w) (endpoints, s)).1 (fun ip => since ip ∧ ip ∈ endpoints)
        (updated (prev, w) (endpoints, s)).2 := by
  have hq : ∀ n, Quiet (s n) := fun n => (hs n).quiet
  have hsettled := (routeSystem_runs (.updateProtection endpoints) h.1 s hq).2.1.always.1
  rcases h.2 with ⟨j, front, back, hprot⟩ | hclosed
  · have hruns : Runs Honest (UpdateMoment orig context prev endpoints) (updateProtection endpoints) _ _ w :=
      updateProtection_inStep hprot
    have hsafe : Runs Quiet (InvMoment orig d) (updateProtection endpoints) _ _ w :=
      updateProtection_runs h.1
    obtain ⟨hmoments, hend, _⟩ := hruns s hs
    obtain ⟨_, hend', _⟩ := hsafe s hq
    refine ⟨hmoments, hsettled, ?_⟩
    simp only [updated]
    cases hok : (updateProtection endpoints s w).result.isOk with
    | true =>
      obtain ⟨_, hprot'⟩ := hend.returned hok
      exact Or.inl hprot'
    | false =>
      obtain ⟨e, hthrew⟩ := hend'.threw hok
      rcases hthrew with hsame | hback | hfail
      · rw [hsame]
        exact Or.inl ⟨j, front, back, hprot.mono_since (fun _ hip => hip.1)⟩
      · exact Or.inr hback.2.1.closed
      · exact Or.inr hfail.2.1.closed
  · have hruns : Runs Honest (UpdateMoment orig context prev endpoints) (updateProtection endpoints) _ _ w :=
      updateProtection_closed hclosed
    obtain ⟨hmoments, hend, _⟩ := hruns s hs
    refine ⟨hmoments, hsettled, Or.inr ?_⟩
    simp only [updated]
    rw [hend.always]
    exact hclosed

/-- Any number of updates. -/
theorem InForce.updates {d : D} (h : InForce orig d context prev since w) :
    ∀ (us : List (List IPAddress × (Nat → RouteReply D))), (∀ u ∈ us, ∀ n, Honest (u.2 n)) →
      InForce orig d context (us.foldl updated (prev, w)).1 (fun ip => since ip ∧ ∀ u ∈ us, ip ∈ u.1)
        (us.foldl updated (prev, w)).2 := by
  intro us
  induction us generalizing prev since w with
  | nil => exact fun _ => h.mono_since (fun _ hip => hip.1)
  | cons u us ih =>
    intro hus
    have hstep : InForce orig d context (updated (prev, w) u).1 _ (updated (prev, w) u).2 :=
      (h.update (hus u List.mem_cons_self)).2
    refine (ih hstep (fun v hv => hus v (List.mem_cons_of_mem u hv))).mono_since ?_
    intro ip hip
    exact ⟨⟨hip.1, hip.2 u List.mem_cons_self⟩, fun v hv => hip.2 v (List.mem_cons_of_mem u hv)⟩

/-- What a successful update leaves: table, journal and journal file agree, and
the routes owned are the protection of the endpoints and the split default, each
once. -/
def Exact (orig : List RouteEntry) (context : GatewayContext) (endpoints : List IPAddress)
    (w : RouteWorld D) : Prop :=
  ∃ j routes, w.journal = some j ∧ w.file = some j ∧ w.table = orig ++ j.owned ∧ j.owned.Nodup ∧
    RoutePlanner.protect j.snapshot endpoints = .ok routes ∧
    ∀ r, r ∈ j.owned ↔ r ∈ routes ∨ r ∈ RoutePlanner.default context

omit [DecidableEq D] in
theorem Protecting.exact {j : RouteJournal D} {front back : List RouteEntry}
    (h : Protecting orig context prev since j front back w) : Exact orig context prev w := by
  obtain ⟨routes, hp, hroutes⟩ := h.protection
  refine ⟨j, routes, h.inStep.journal, h.inStep.file, h.inStep.table, h.inStep.nodup, hp, ?_⟩
  intro r
  rw [h.owned, List.mem_append, List.mem_append, hroutes r]
  tauto

end Operations

/-- **No underlay recursion.** Activate from an untouched controller, then update
the endpoints any number of times, with any failures. At every moment up to the
start of a rollback at which a /1 route of the split default is in the table, the
physical gateway and every endpoint of the context (during an update: every
endpoint both in force and new) have their /32 via the physical interface. A /1
route that an activation finds already there is not its own: then it fails, and
nothing is said of it. After an update that returns, the owned routes are exactly
the protection of its endpoints and the split default. -/
theorem no_underlay_recursion (w₀ : RouteWorld D) (h : Untouched w₀) (context : GatewayContext)
    (s₀ : Nat → RouteReply D) (hs₀ : ∀ n, Honest (s₀ n))
    (us : List (List IPAddress × (Nat → RouteReply D))) (hus : ∀ u ∈ us, ∀ n, Honest (u.2 n))
    (endpoints : List IPAddress) (s : Nat → RouteReply D) (hs : ∀ n, Honest (s n)) :
    let a := activate context s₀ w₀
    let p := us.foldl updated (context.endpoints, a.world)
    let r := updateProtection endpoints s p.2
    (∀ m ∈ a.trace, Forward m.after → ∀ d ∈ RoutePlanner.default context,
      a.result.isOk = true ∨ d ∉ w₀.table → d ∈ m.after.table →
      Shielded (· ∈ context.endpoints) m.after) ∧
    (∀ m ∈ r.trace, Forward m.after → ∀ d ∈ RoutePlanner.default context,
      a.result.isOk = true ∨ d ∉ w₀.table → d ∈ m.after.table →
      Shielded (fun ip => ip ∈ p.1 ∧ ip ∈ endpoints) m.after) ∧
    (r.result.isOk = true → r.world.state = .gatewayActive → Exact w₀.table context endpoints r.world) := by
  intro a p r
  have hact : (∀ m ∈ a.trace, ActivationMoment w₀.table context m) ∧
      InForce w₀.table w₀.dns context context.endpoints (· ∈ context.endpoints) a.world := inForce_activate h hs₀
  have hp : InForce w₀.table w₀.dns context p.1 (fun ip => ip ∈ context.endpoints ∧ ∀ u ∈ us, ip ∈ u.1) p.2 :=
    hact.2.updates us hus
  have hr : (∀ m ∈ r.trace, UpdateMoment w₀.table context p.1 endpoints m) ∧
      InForce w₀.table w₀.dns context _ _ (updated (p.1, p.2) (endpoints, s)).2 := hp.update hs
  -- a successful activation owns the split default, so it was not in the table before
  have hown : a.result.isOk = true → ∀ d ∈ RoutePlanner.default context, d ∉ w₀.table := by
    intro hok d hd
    obtain ⟨_, j, front, back, hprot⟩ := ((activate_inStep h : Runs Honest _ (activate context) _ _ w₀)
      s₀ hs₀).2.1.returned hok
    exact RouteInv.not_mem_of_fresh (hprot.inStep.fresh d (by simp [hprot.owned, hd]))
  have hcond : ∀ d ∈ RoutePlanner.default context, a.result.isOk = true ∨ d ∉ w₀.table → d ∉ w₀.table := by
    intro d hd hc
    cases hc with
    | inl hok =>
      exact hown hok d hd
    | inr hc =>
      exact hc
  refine ⟨fun m hm hf d hd hc ht => hact.1 m hm hf d hd (hcond d hd hc) ht,
    fun m hm hf d hd hc ht => hr.1 m hm hf d hd (hcond d hd hc) ht, ?_⟩
  intro hok hst
  have hnew : (updated (p.1, p.2) (endpoints, s)).1 = endpoints := if_pos hok
  have hend := hr.2
  rw [hnew] at hend
  rcases hend.2 with ⟨j, front, back, hprot⟩ | hclosed
  · exact hprot.exact
  · exact absurd hst hclosed.inactive

/-- At home: activate, then move one endpoint. -/
theorem no_underlay_recursion_home :
    (updateProtection [.v4 203 0 113 2, .v4 198 51 100 7] goodScript
      (activate homeContext goodScript homeWorld).world).result.isOk = true ∧
    Exact homeWorld.table homeContext [.v4 203 0 113 2, .v4 198 51 100 7]
      (updateProtection [.v4 203 0 113 2, .v4 198 51 100 7] goodScript
        (activate homeContext goodScript homeWorld).world).world := by
  have hgood : ∀ n, Honest (goodScript n) := fun n => ⟨goodScript_quiet n, fun _ => rfl⟩
  have hall := no_underlay_recursion homeWorld homeWorld_untouched homeContext goodScript hgood []
    (by simp) [.v4 203 0 113 2, .v4 198 51 100 7] goodScript hgood
  simp only [List.foldl_nil] at hall
  have hok : (updateProtection [.v4 203 0 113 2, .v4 198 51 100 7] goodScript
      (activate homeContext goodScript homeWorld).world).result.isOk = true := by decide +kernel
  exact ⟨hok, hall.2.2 hok (by decide +kernel)⟩

end EasyTierHost
