import EasyTierHost.Gateway.GatewayTransaction
import EasyTierHost.Service.GatewayCoordinator

/- gateway-status.json and the gateway server. Only `RunAsync` writes the file, and
   the file outlives the process: what a process finds there after its recovery is
   what the one before it left. -/
namespace EasyTierHost
open Effects Effects.Prog

/-- The coordinator's operations. -/
inductive GatewayRoleOp where
  | recover (platform : String)
  | run (platform : String) (passes : Nat) (physical : RouteSnapshot Unit) (overlay : GatewayAdapter)

open GatewayCoordinator in
/-- The coordinator as a system. A new process has no bootstrapper and no DNS
runtime; the status file stays. -/
def gatewayRoleSystem (F : Type) [DecidableEq F] :
    System GatewayRoleEvent (GatewayReply F) (GatewayRole F) Err GatewayRoleOp where
  exec
    | .recover platform => recover platform
    | .run platform passes physical overlay => run platform passes physical overlay
  restart w := { w with server := w.server.restart }

/-- The file claims a gateway. -/
def GatewayRole.Claims {F : Type} (w : GatewayRole F) : Prop := w.status = some "GatewayReady"

/-- The file claims a gateway only while the bootstrapper is ready or is being
stopped: `StopAsync` is in the state `RollingBack` from its first effect to its
last, and leaves the state `Stopped` or `Faulted` behind. -/
def GatewayRole.Truthful {F : Type} (w : GatewayRole F) : Prop :=
  w.Claims → w.server.state = .ready ∨ w.server.state = .rollingBack

theorem GatewayRole.truthful_of_silent {F : Type} {w : GatewayRole F} (hw : ¬w.Claims) : w.Truthful :=
  fun hc => absurd hc hw

/-- A save of the status file. -/
def SavesStatus {F : Type} (m : Moment GatewayRoleEvent (GatewayRole F)) : Prop :=
  ∃ state, m.event = .saveStatus state

/-- A save of the status file that succeeds. -/
def GatewaySaved {F : Type} (m : Moment GatewayRoleEvent (GatewayRole F)) : Prop :=
  ∀ state, m.event = .saveStatus state → m.after.status = some state

/-! ## The state of the bootstrapper -/

namespace Gateway
open GatewayBootstrapper
variable {F : Type}

/-- A moment in a given state of the instance. -/
def InState (state : GatewayServerState) (m : Moment GatewayEvent (GatewayWorld F)) : Prop :=
  m.before.state = state ∧ m.after.state = state

/-- Any replies, and the instance stays in its state. -/
abbrev Stays (state : GatewayServerState) {α : Type} (x : GatewayM F α) : Prop :=
  Keeps (fun _ => True) (InState state) (fun w => w.state = state) x

theorem call_stays {state : GatewayServerState} {event : GatewayEvent}
    {change : GatewayReply F → GatewayWorld F → GatewayWorld F}
    (h : ∀ r w, (change r w).state = w.state) : Stays state (call event change) := by
  intro w hw
  have hafter : ∀ r, (change r w).state = state := fun r => (h r w).trans hw
  exact call_runs (fun r _ => ⟨hw, hafter r⟩) (fun r _ _ => hafter r) (fun r _ _ _ => hafter r)

theorem theJournal_stays (state : GatewayServerState) :
    Stays state (theJournal : GatewayM F (GatewayJournal F)) := by
  intro w hw
  refine Runs.bind (Runs.get ?_)
  cases w.journal with
  | none => exact Runs.throw hw
  | some j => exact Runs.pure hw

theorem save_stays (state : GatewayServerState) : Stays state (save : GatewayM F Unit) := by
  apply call_stays
  intro r w
  split <;> rfl

theorem stopDns_stays (state : GatewayServerState) : Stays state (stopDns : GatewayM F Unit) := by
  apply call_stays
  intro r w
  split <;> rfl

/-- A step of the platform with its flag cleared behind it. -/
theorem undo_stays {state : GatewayServerState} {x : GatewayPlatformSnapshot F → GatewayM F Unit}
    (hx : ∀ snapshot, Stays state (x snapshot)) (f : GatewayJournal F → GatewayJournal F) :
    Stays state (do
      let j ← theJournal
      x j.snapshot
      amend f
      save : GatewayM F Unit) := by
  intro w hw
  refine Runs.seq (theJournal_stays state w hw) (fun j w₁ h₁ => ?_)
  refine Runs.seq (hx j.snapshot w₁ h₁) (fun _ w₂ h₂ => ?_)
  exact Runs.bind (Runs.modify (save_stays state _ h₂))

theorem undoNat_stays (state : GatewayServerState) : Stays state (undoNat : GatewayM F Unit) := by
  apply undo_stays
  intro snapshot
  apply call_stays
  intro r w
  split <;> rfl

theorem undoForwarding_stays [DecidableEq F] (state : GatewayServerState) :
    Stays state (undoForwarding : GatewayM F Unit) := by
  apply undo_stays
  intro snapshot
  apply call_stays
  intro r w
  split <;> rfl

theorem attempt_stays {state : GatewayServerState} {x : GatewayM F Unit} (hx : Stays state x)
    (c : Bool) : Stays state (attemptIf c x) := by
  intro w hw
  exact Runs.attemptIf (fun _ => hx w hw) (fun _ => hw)

theorem rollbackErrors_stays [DecidableEq F] (state : GatewayServerState) :
    Stays state (rollbackErrors : GatewayM F (List Err)) := by
  intro w hw
  refine Runs.seq (attempt_stays (stopDns_stays state) true w hw) (fun es w₁ h₁ => ?_)
  refine Runs.bind (Runs.get ?_)
  cases w₁.journal with
  | none => exact Runs.pure h₁
  | some j =>
    refine Runs.bind (Runs.bind ?_)
    refine (attempt_stays (undoNat_stays state) _ w₁ h₁).mono (fun es w₂ h₂ => ?_) (fun _ _ h => h)
    refine Runs.seq (theJournal_stays state w₂ h₂) (fun j' w₃ h₃ => ?_)
    refine Runs.seq (attempt_stays (undoForwarding_stays state) _ w₃ h₃) (fun es' w₄ h₄ => ?_)
    exact Runs.pure (Runs.pure h₄)

/-- Every effect of a rollback is made in the state `RollingBack`, and behind the last
one the instance is stopped or has failed. -/
theorem rollbackInternal_rolling [DecidableEq F] (w : GatewayWorld F) :
    Runs (fun _ => True) (InState .rollingBack) (rollbackInternal : GatewayM F Unit)
      (fun _ v => v.state = .stopped) (fun _ v => v.state = .faulted) w := by
  -- none of the steps throws: what they throw is collected
  have hsteps : Runs (fun _ => True) (InState .rollingBack) (rollbackErrors : GatewayM F (List Err))
      (fun _ v => v.state = .rollingBack) (fun _ _ => False) { w with state := .rollingBack } :=
    (((rollbackErrors_stays .rollingBack _ rfl).and (rollbackErrors_carries (X := fun _ _ => False))).mono
      (fun _ _ h => h.1) (fun _ _ h => h.2)).mono_moment (fun _ h => h.1)
  refine Runs.bind (Runs.modify (Runs.bind ?_))
  refine hsteps.mono (fun errors w₁ h₁ => ?_) (fun _ _ h => h.elim)
  refine Runs.bind (Runs.modify (Runs.ite (fun _ => ?_) (fun _ => ?_)))
  · exact Runs.bind (Runs.modify (Runs.throw rfl))
  · refine Runs.bind (Runs.bind (Runs.get (Runs.ite (fun _ => ?_) (fun _ => ?_))))
    · exact Runs.effect ⟨h₁, h₁⟩ (Runs.bind (Runs.modify (Runs.modify rfl)))
    · exact Runs.pure (Runs.bind (Runs.modify (Runs.modify rfl)))

/-- The end of `StartAsync`. -/
theorem prepare_ready (snapshot : GatewayPlatformSnapshot F) (w : GatewayWorld F) :
    Freely (prepare snapshot : GatewayM F Unit) (fun _ v => v.state = .ready) (fun _ _ => True) w := by
  refine Runs.bind (Runs.modify (Runs.seq Runs.trivially (fun _ _ _ => ?_)))
  refine Runs.seq Runs.trivially (fun _ _ _ => ?_)
  refine Runs.bind (Runs.modify (Runs.seq Runs.trivially (fun _ _ _ => ?_)))
  refine Runs.seq Runs.trivially (fun _ _ _ => ?_)
  refine Runs.bind (Runs.modify (Runs.seq Runs.trivially (fun _ _ _ => ?_)))
  refine Runs.seq Runs.trivially (fun _ _ _ => ?_)
  exact Runs.bind (Runs.refuse (fun _ => Runs.modify rfl) (fun _ => trivial))

/-- A `StartAsync` that returns leaves a bootstrapper that is ready. -/
theorem start_ready [DecidableEq F] (physical : RouteSnapshot Unit) (overlay : GatewayAdapter)
    (w : GatewayWorld F) :
    Freely (start physical overlay : GatewayM F Unit) (fun _ v => v.state = .ready)
      (fun _ _ => True) w := by
  refine Runs.seq Runs.trivially (fun _ w₁ _ => Runs.tryCatch ?_)
  have hcatch : ∀ (e : Err) (v : GatewayWorld F),
      Freely (do startCatch; throw e : GatewayM F Unit) (fun _ v => v.state = .ready)
        (fun _ _ => True) v := by
    intro e v
    exact Runs.seq Runs.trivially (fun _ _ _ => Runs.throw trivial)
  refine Runs.bind (Runs.get (Runs.ite (fun hr => Runs.pure hr) (fun _ => ?_)))
  refine Runs.bind (Runs.refuse (fun _ => ?_) (fun _ => hcatch _ _))
  refine Runs.bind (Runs.refuse (fun _ => ?_) (fun _ => hcatch _ _))
  refine Runs.bind (Runs.modify (Runs.bind ?_))
  refine Runs.trivially.mono (fun snapshot w₂ _ => ?_) (fun _ _ _ => hcatch _ _)
  refine Runs.bind (Runs.modify (Runs.bind ?_))
  refine Runs.trivially.mono (fun _ w₃ _ => ?_) (fun _ _ _ => hcatch _ _)
  exact (prepare_ready snapshot w₃).mono (fun _ _ h => h) (fun _ _ _ => hcatch _ _)

end Gateway

/-! ## The file -/

namespace GatewayCoordinator
variable {F : Type}

/-- What every effect of the coordinator is: the file is truthful after it, and
before it too unless it is a save, which finds a truthful file only where that makes
no claim. -/
structure TruthfulMoment (m : Moment GatewayRoleEvent (GatewayRole F)) : Prop where
  after : m.after.Truthful
  before : ¬SavesStatus m → m.before.Truthful
  save : SavesStatus m → m.before.Truthful → ¬m.before.Claims

/-- An effect of the bootstrapper before and after which the file makes no claim. -/
theorem TruthfulMoment.of_silent {event : GatewayEvent} {v v' : GatewayRole F} (hv : ¬v.Claims)
    (hv' : ¬v'.Claims) : TruthfulMoment ⟨.server event, v, v'⟩ where
  after := GatewayRole.truthful_of_silent hv'
  before := fun _ => GatewayRole.truthful_of_silent hv
  save := fun _ _ => hv

/-- An operation of the bootstrapper leaves the file alone. -/
theorem onServer_silent {α : Type} {x : GatewayM F α} {w : GatewayRole F} (hw : ¬w.Claims)
    {Q : α → GatewayWorld F → Prop} {X : Err → GatewayWorld F → Prop} (hx : Freely x Q X w.server) :
    Runs (fun _ => True) TruthfulMoment (onServer x) (fun a v => Q a v.server ∧ ¬v.Claims)
      (fun e v => X e v.server ∧ ¬v.Claims) w :=
  Runs.zoom hx (fun _ _ => .of_silent hw hw) (fun _ _ h => ⟨h, hw⟩) (fun _ _ h => ⟨h, hw⟩)

/-- A save of a state, which goes well, over a file that is truthful only if it makes
no claim. -/
theorem saveStatus_runs {state : String} {thrown : Option Err → Option Err} {w : GatewayRole F}
    (hw : w.Truthful → ¬w.Claims)
    (hI : ∀ v : GatewayRole F, v.server = w.server → v.status = some state → v.Truthful) :
    RunsIf GatewaySaved TruthfulMoment (saveStatus state thrown)
      (fun _ v => v.server = w.server ∧ v.status = some state)
      (fun _ v => v.server = w.server ∧ v.status = some state) w := by
  refine RunsIf.bind (RunsIf.of_runs (Runs.ask (fun r _ => RunsIf.bind ?_)))
  have hserver : (if r.applied ∨ r.err.isNone then { w with status := some state } else w).server =
      w.server := by
    split <;> rfl
  refine RunsIf.effect (fun hs => ?_) (fun hs => RunsIf.of_runs ?_)
  · exact ⟨hI _ hserver (hs state rfl), fun hno => absurd ⟨state, rfl⟩ hno, fun _ => hw⟩
  · exact Runs.outcome (fun _ => ⟨hserver, hs state rfl⟩) (fun _ _ => ⟨hserver, hs state rfl⟩)

/-- The name of a state is never the claim. -/
theorem name_ne_claim (state : GatewayServerState) : some state.name ≠ some "GatewayReady" := by
  cases state <;> decide

/-- Disposing of the DNS runtime leaves the file alone. -/
theorem disposeDns_silent {w : GatewayRole F} (hw : ¬w.Claims) :
    Runs (fun _ => True) TruthfulMoment disposeDns (fun _ v => ¬v.Claims) (fun _ v => ¬v.Claims) w := by
  have hafter : ∀ r : GatewayReply F, ¬GatewayRole.Claims (if r.applied ∨ r.err.isNone then
      { w with server := { w.server with dns := false } } else w) := by
    intro r
    split <;> exact hw
  refine Runs.bind (Runs.ask (fun r _ => Runs.bind (Runs.effect (.of_silent hw (hafter r)) ?_)))
  exact Runs.outcome (fun _ => hafter r) (fun _ _ => hafter r)

/-- The service loop makes no effect. -/
theorem monitor_silent {I : Moment GatewayRoleEvent (GatewayRole F) → Prop} :
    ∀ (passes : Nat) (w : GatewayRole F),
      Runs (fun _ => True) I (monitor passes) (fun _ _ => True) (fun _ _ => True) w
  | 0, _ => Runs.throw trivial
  | passes + 1, w => by
    have hquery : ∀ {α : Type} (value : GatewayReply F → GatewayWorld F → α) (v : GatewayWorld F),
        Runs (fun _ => True) (fun _ => False) (GatewayBootstrapper.query value) (fun _ _ => True)
          (fun _ _ => True) v :=
      fun value v => Gateway.query_runs (fun _ _ => trivial) (fun _ => trivial)
    have hcheck : ∀ v : GatewayWorld F, Runs (fun _ => True) (fun _ => False)
        GatewayBootstrapper.check (fun _ _ => True) (fun _ _ => True) v := by
      intro v
      refine Runs.seq (hquery _ v) (fun _ v₁ _ => ?_)
      refine Runs.bind (Runs.get (Runs.ite (fun _ => ?_) (fun _ => Runs.pure trivial)))
      refine Runs.seq (hquery _ v₁) (fun b v₂ _ => ?_)
      exact Runs.ite (fun _ => hquery _ v₂) (fun _ => Runs.pure trivial)
    refine Runs.bind (Runs.zoom (hquery _ w.server) (fun _ h => h.elim) (fun _ v _ => ?_)
      (fun _ _ _ => trivial))
    refine Runs.bind (Runs.zoom (hcheck v) (fun _ h => h.elim) (fun _ v' _ => ?_)
      (fun _ _ _ => trivial))
    exact Runs.bind (Runs.refuse (fun _ => monitor_silent passes _) (fun _ => trivial))

variable [DecidableEq F]

/-- `RecoverAsync` leaves the file alone. -/
theorem recover_status (platform : String) (w : GatewayRole F) :
    Freely (recover platform) (fun _ v => v.status = w.status) (fun _ v => v.status = w.status) w := by
  have hdispose : ∀ v : GatewayRole F, v.status = w.status →
      Freely disposeDns (fun _ v => v.status = w.status) (fun _ v => v.status = w.status) v := by
    intro v hv
    refine Runs.bind (Runs.ask (fun r _ => Runs.bind (Runs.effect trivial ?_)))
    have hafter : (if r.applied ∨ r.err.isNone then
        { v with server := { v.server with dns := false } } else v).status = w.status := by
      split <;> exact hv
    exact Runs.outcome (fun _ => hafter) (fun _ _ => hafter)
  exact Runs.andFinally (Runs.zoom Runs.trivially (fun _ h => h) (fun _ _ _ => hdispose _ rfl)
    (fun _ _ _ => hdispose _ rfl))

theorem recover_silent (platform : String) {w : GatewayRole F} (hw : ¬w.Claims) :
    Runs (fun _ => True) TruthfulMoment (recover platform) (fun _ v => ¬v.Claims)
      (fun _ v => ¬v.Claims) w :=
  Runs.andFinally ((onServer_silent hw Runs.trivially).mono (fun _ _ h => disposeDns_silent h.2)
    (fun _ _ h => disposeDns_silent h.2))

/-- The finally block: while the bootstrapper is being stopped its state says so, and
then the file is written, by which time a claim in it is no longer true. -/
theorem shutdown_truthful (w : GatewayRole F) :
    RunsIf GatewaySaved TruthfulMoment shutdown (fun _ v => ¬v.Claims) (fun _ v => ¬v.Claims) w := by
  have hsave : ∀ v : GatewayRole F, v.server.state = .stopped ∨ v.server.state = .faulted →
      RunsIf GatewaySaved TruthfulMoment
        (do saveStatus (← get).server.state.name Err.uncancelled : CoordinatorM F Unit)
        (fun _ v => ¬v.Claims) (fun _ v => ¬v.Claims) v := by
    intro v hv
    have hover : v.Truthful → ¬v.Claims := by
      intro ht hc
      cases ht hc with
      | inl hready => rcases hv with hv | hv <;> rw [hv] at hready <;> cases hready
      | inr hrolling => rcases hv with hv | hv <;> rw [hv] at hrolling <;> cases hrolling
    refine RunsIf.bind (RunsIf.of_runs (Runs.get ?_))
    refine (saveStatus_runs hover ?_).mono ?_ ?_
    · intro u _ hu hc
      exact absurd (hu.symm.trans hc) (name_ne_claim _)
    · intro _ u hu hc
      exact name_ne_claim _ (hu.2.symm.trans hc)
    · intro _ u hu hc
      exact name_ne_claim _ (hu.2.symm.trans hc)
  refine RunsIf.andFinally (RunsIf.of_runs ?_)
  refine Runs.zoom (Gateway.rollbackInternal_rolling w.server) (fun m hm => ?_)
    (fun _ _ hv => hsave _ (.inl hv)) (fun _ _ hv => hsave _ (.inr hv))
  exact ⟨fun _ => .inr hm.2, fun _ _ => .inr hm.1, fun ⟨_, hs⟩ => by cases hs⟩

/-- The try block: the claim is made only once the bootstrapper is ready. -/
theorem serve_truthful (passes : Nat) (physical : RouteSnapshot Unit) (overlay : GatewayAdapter)
    {w : GatewayRole F} (hw : ¬w.Claims) :
    RunsIf GatewaySaved TruthfulMoment (serve passes physical overlay) (fun _ _ => True)
      (fun _ _ => True) w := by
  refine RunsIf.bind ((RunsIf.of_runs (onServer_silent hw
    (Gateway.start_ready physical overlay w.server))).mono (fun _ w₁ h₁ => ?_) (fun _ _ _ => trivial))
  have hready : ∀ v : GatewayRole F, v.server = w₁.server → v.status = some "GatewayReady" →
      v.Truthful := by
    intro v hv _ _
    rw [hv]
    exact .inl h₁.1
  refine RunsIf.bind ((saveStatus_runs (fun _ => h₁.2) hready).mono (fun _ w₂ _ => ?_)
    (fun _ _ _ => trivial))
  exact RunsIf.of_runs (monitor_silent passes w₂)

/-- `RunAsync`, entered without the claim in the file. -/
theorem run_truthful (platform : String) (passes : Nat) (physical : RouteSnapshot Unit)
    (overlay : GatewayAdapter) {w : GatewayRole F} (hw : ¬w.Claims) :
    RunsIf GatewaySaved TruthfulMoment (run platform passes physical overlay)
      (fun _ v => ¬v.Claims) (fun _ v => ¬v.Claims) w := by
  have hdispose : ∀ v : GatewayRole F, ¬v.Claims → RunsIf GatewaySaved TruthfulMoment disposeDns
      (fun _ v => ¬v.Claims) (fun _ v => ¬v.Claims) v :=
    fun v hv => RunsIf.of_runs (disposeDns_silent hv)
  refine RunsIf.bind ((RunsIf.of_runs (onServer_silent hw Runs.trivially)).mono (fun _ w₁ h₁ => ?_)
    (fun _ _ h => h.2))
  refine RunsIf.bind ((RunsIf.of_runs (onServer_silent h₁.2 Runs.trivially)).mono (fun _ w₂ h₂ => ?_)
    (fun _ _ h => h.2))
  refine RunsIf.andFinally ((RunsIf.andFinally (?_ : RunsIf _ _ _ _ _ w₂)).mono
    (fun _ v (hv : ¬v.Claims) => hdispose v hv) (fun _ v (hv : ¬v.Claims) => hdispose v hv))
  exact (serve_truthful passes physical overlay h₂.2).mono (fun _ v _ => shutdown_truthful v)
    (fun _ v _ => shutdown_truthful v)

end GatewayCoordinator

/-! ## Runs -/

section Runs
variable {F : Type} [DecidableEq F]

theorem exec_truthful (op : GatewayRoleOp) {w : GatewayRole F} (hw : ¬w.Claims) :
    RunsIf GatewaySaved GatewayCoordinator.TruthfulMoment ((gatewayRoleSystem F).exec op)
      (fun _ v => ¬v.Claims) (fun _ v => ¬v.Claims) w := by
  cases op with
  | recover platform => exact RunsIf.of_runs (GatewayCoordinator.recover_silent platform hw)
  | run platform passes physical overlay =>
    exact GatewayCoordinator.run_truthful platform passes physical overlay hw

/-- One step, whether it ends or dies with the process. -/
theorem step_truthful {w : GatewayRole F} (hw : ¬w.Claims)
    (st : Step (GatewayReply F) GatewayRoleOp)
    (hs : ∀ m ∈ (gatewayRoleSystem F).stepTrace w st, GatewaySaved m) :
    ∀ m ∈ (gatewayRoleSystem F).stepTrace w st, GatewayCoordinator.TruthfulMoment m := by
  cases st with
  | call op s =>
    obtain ⟨ht, -⟩ := exec_truthful op hw s
    have hall := ht ((gatewayRoleSystem F).exec op s w).trace.length
    rw [List.take_length] at hall
    exact hall hs
  | crash op s k => exact (exec_truthful op hw s).1 k hs

/-- The operations of one process, each of which ends: between two of them the file
makes no claim. -/
theorem calls_truthful : ∀ (calls : List (Step (GatewayReply F) GatewayRoleOp)) {w : GatewayRole F},
    ¬w.Claims → (∀ st ∈ calls, st.completes = true) →
      (∀ m ∈ (gatewayRoleSystem F).trace w calls, GatewaySaved m) →
        (∀ m ∈ (gatewayRoleSystem F).trace w calls, GatewayCoordinator.TruthfulMoment m) ∧
          ∀ ended, ended <+: calls → ¬((gatewayRoleSystem F).final w ended).Claims
  | [], w, hw, _, _ => by
    refine ⟨fun _ hm => absurd hm List.not_mem_nil, fun ended he => ?_⟩
    rw [List.prefix_nil.mp he]
    exact hw
  | .crash _ _ _ :: _, _, _, hc, _ => absurd (hc _ List.mem_cons_self) (by simp [Step.completes])
  | .call op s :: calls, w, hw, hc, hs => by
    have hfirst : ∀ m ∈ (gatewayRoleSystem F).stepTrace w (.call op s), GatewaySaved m :=
      fun m hm => hs m (List.mem_append_left _ hm)
    have hend : ¬((gatewayRoleSystem F).stepWorld w (.call op s)).Claims :=
      ((exec_truthful op hw s).2 hfirst).always
    obtain ⟨hrest, hended⟩ := calls_truthful calls hend
      (fun st hst => hc st (List.mem_cons_of_mem _ hst))
      (fun m hm => hs m (List.mem_append_right _ hm))
    refine ⟨fun m hm => ?_, fun ended he => ?_⟩
    · cases List.mem_append.mp hm with
      | inl hm => exact step_truthful hw (.call op s) hfirst m hm
      | inr hm => exact hrest m hm
    · rcases List.prefix_cons_iff.mp he with rfl | ⟨rest, rfl, hrest'⟩
      · exact hw
      · exact hended rest hrest'

/-- After any run, a process recovers, goes through any operations that end, and then
through one that may die with it. From its recovery on the file claims a gateway only
while there is one, at every moment of the operations and between them, exactly when
the file makes no claim as the recovery begins and no save of it finds it claiming. -/
theorem gateway_status_truthful_iff (w : GatewayRole F)
    (before : List (Step (GatewayReply F) GatewayRoleOp)) (platform : String)
    (s : Nat → GatewayReply F) (calls : List (Step (GatewayReply F) GatewayRoleOp))
    (hcalls : ∀ st ∈ calls, st.completes = true) (last : Step (GatewayReply F) GatewayRoleOp)
    (hsaves : ∀ m ∈ (gatewayRoleSystem F).trace
      ((gatewayRoleSystem F).final w (before ++ [.call (.recover platform) s])) (calls ++ [last]),
      GatewaySaved m) :
    (let recovered := (gatewayRoleSystem F).final w (before ++ [.call (.recover platform) s]);
      (∀ ended, ended <+: calls → ¬((gatewayRoleSystem F).final recovered ended).Claims) ∧
        ∀ m ∈ (gatewayRoleSystem F).trace recovered (calls ++ [last]),
          m.before.Truthful ∧ m.after.Truthful) ↔
      (¬((gatewayRoleSystem F).final w before).Claims ∧
        ∀ m ∈ (gatewayRoleSystem F).trace
          ((gatewayRoleSystem F).final w (before ++ [.call (.recover platform) s])) (calls ++ [last]),
          SavesStatus m → ¬m.before.Claims) := by
  have hstatus : ((gatewayRoleSystem F).final w (before ++ [.call (.recover platform) s])).status =
      ((gatewayRoleSystem F).final w before).status := by
    rw [System.final_append]
    exact (GatewayCoordinator.recover_status platform _ s (fun _ => trivial)).2.1.always
  have hclaims : ((gatewayRoleSystem F).final w (before ++ [.call (.recover platform) s])).Claims ↔
      ((gatewayRoleSystem F).final w before).Claims := by
    unfold GatewayRole.Claims
    rw [hstatus]
  -- what holds of every effect once the file makes no claim at the start
  have hmoments : ¬((gatewayRoleSystem F).final w before).Claims →
      (∀ ended, ended <+: calls → ¬((gatewayRoleSystem F).final ((gatewayRoleSystem F).final w
        (before ++ [.call (.recover platform) s])) ended).Claims) ∧
      ∀ m ∈ (gatewayRoleSystem F).trace ((gatewayRoleSystem F).final w
        (before ++ [.call (.recover platform) s])) (calls ++ [last]),
        GatewayCoordinator.TruthfulMoment m := by
    intro hw
    rw [System.trace_append] at hsaves ⊢
    obtain ⟨hfirst, hended⟩ := calls_truthful calls (fun hc => hw (hclaims.mp hc)) hcalls
      (fun m hm => hsaves m (List.mem_append_left _ hm))
    have hlast := step_truthful (hended calls (List.prefix_refl calls)) last (fun m hm =>
      hsaves m (List.mem_append_right _ (List.mem_append_left _ hm)))
    refine ⟨hended, fun m hm => ?_⟩
    cases List.mem_append.mp hm with
    | inl hm => exact hfirst m hm
    | inr hm =>
      apply hlast m
      simpa [System.trace] using hm
  constructor
  · rintro ⟨hended, htruth⟩
    have hw : ¬((gatewayRoleSystem F).final w before).Claims :=
      fun hc => hended [] List.nil_prefix (hclaims.mpr hc)
    exact ⟨hw, fun m hm hsave => ((hmoments hw).2 m hm).save hsave (htruth m hm).1⟩
  · rintro ⟨hw, hsave⟩
    obtain ⟨hended, hall⟩ := hmoments hw
    refine ⟨hended, fun m hm => ⟨?_, (hall m hm).after⟩⟩
    by_cases hs : SavesStatus m
    · exact GatewayRole.truthful_of_silent (hsave m hm hs)
    · exact (hall m hm).before hs

end Runs

/-! ## A server -/

namespace Gateway

def serverRole : GatewayRole Bool := ⟨serverWorld, none⟩

def serverRecover : Step (GatewayReply Bool) GatewayRoleOp := .call (.recover "linux") smoothScript

def serverRun : GatewayRoleOp := .run "linux" 2 serverPhysical serverOverlay

instance (m : Moment GatewayRoleEvent (GatewayRole Bool)) : Decidable (GatewaySaved m) :=
  match h : m.event with
  | .saveStatus state =>
    decidable_of_iff (m.after.status = some state)
      ⟨fun hs st hst => by rw [h] at hst; cases hst; exact hs, fun hm => hm state h⟩
  | .server _ => .isTrue (fun state hs => by rw [h] at hs; cases hs)

instance (w : GatewayRole Bool) : Decidable w.Claims := inferInstanceAs (Decidable (_ = _))

instance (m : Moment GatewayRoleEvent (GatewayRole Bool)) : Decidable (SavesStatus m) :=
  match h : m.event with
  | .saveStatus state => .isTrue ⟨state, h⟩
  | .server _ => .isFalse (fun ⟨state, hs⟩ => by rw [h] at hs; cases hs)

/-- The first process of a server: it recovers, its gateway comes up, and it dies in
service. -/
theorem gateway_status_truthful_first :
    ((gatewayRoleSystem Bool).final serverRole
        [serverRecover, .crash serverRun smoothScript 7]).status = some "GatewayReady" ∧
      ∀ m ∈ (gatewayRoleSystem Bool).trace ((gatewayRoleSystem Bool).final serverRole [serverRecover])
        [.crash serverRun smoothScript 7], m.before.Truthful ∧ m.after.Truthful := by
  have hsaves : ∀ m ∈ (gatewayRoleSystem Bool).trace ((gatewayRoleSystem Bool).final serverRole
      ([] ++ [serverRecover])) ([] ++ [.crash serverRun smoothScript 7]), GatewaySaved m := by
    decide +kernel
  have hsilent : ∀ m ∈ (gatewayRoleSystem Bool).trace ((gatewayRoleSystem Bool).final serverRole
      ([] ++ [serverRecover])) ([] ++ [.crash serverRun smoothScript 7]),
      SavesStatus m → ¬m.before.Claims := by
    decide +kernel
  have h := (gateway_status_truthful_iff serverRole [] "linux" smoothScript []
    (fun _ hst => absurd hst List.not_mem_nil) (.crash serverRun smoothScript 7) hsaves).mpr
    ⟨by decide, hsilent⟩
  exact ⟨by decide +kernel, h.2⟩

/-- A process dies while its gateway is up. The next one recovers, and with no
gateway at all the file still claims one. -/
theorem gateway_status_stale :
    (∀ m ∈ (gatewayRoleSystem Bool).trace serverRole
        [serverRecover, .crash serverRun smoothScript 7, serverRecover], GatewaySaved m) ∧
      ((gatewayRoleSystem Bool).exec (.recover "linux") smoothScript
        ((gatewayRoleSystem Bool).final serverRole
          [serverRecover, .crash serverRun smoothScript 7])).result.isOk = true ∧
      ((gatewayRoleSystem Bool).final serverRole
        [serverRecover, .crash serverRun smoothScript 7, serverRecover]).Claims ∧
      ((gatewayRoleSystem Bool).final serverRole
        [serverRecover, .crash serverRun smoothScript 7, serverRecover]).server.state = .stopped := by
  refine ⟨?_, ?_, ?_, ?_⟩
  · decide +kernel
  · decide +kernel
  · decide +kernel
  · decide +kernel

end Gateway

end EasyTierHost
