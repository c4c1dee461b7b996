import EasyTierHost.Service.ClientInternetCoordinator

/- client-gateway-status.json and the route controller. The coordinator writes the
   file around operations that may throw, and other programs take it at its word.
   A run is any sequence of `RecoverAsync` and `RunAsync`, with processes that die
   at any moment. -/
namespace EasyTierHost
open Effects Effects.Prog

/-- The coordinator's operations. -/
inductive ClientOp (D : Type) where
  | recover
  | run (launchPhysical : RouteSnapshot D) (context : GatewayContext) (passes : List (List IPAddress))

open ClientInternetCoordinator in
/-- The coordinator as a system. A new process has a new controller; the status file
stays. -/
def clientSystem (D : Type) [DecidableEq D] :
    System ClientRoleEvent (RouteReply D) (ClientRole D) Err (ClientOp D) where
  exec
    | .recover => recover
    | .run launchPhysical context passes => run launchPhysical context passes
  restart w := { w with routes := w.routes.restart }

/-- The file claims a takeover only where there is one. -/
def ClientRole.Truthful {D : Type} (w : ClientRole D) : Prop :=
  w.status = some "GatewayActive" → w.routes.state = .gatewayActive

/-- A save of the status file that succeeds. -/
def ClientSaved {D : Type} (m : Moment ClientRoleEvent (ClientRole D)) : Prop :=
  ∀ state, m.event = .saveStatus state → m.after.status = some state

namespace ClientInternetCoordinator
variable {D : Type}

/-! ## The parts of a run -/

/-- The checks of `RunAsync` in front of its first save. -/
def accept : CoordinatorM D Unit := do
  let bound ← consult
  refuse (!bound) (.host "ETH301" "Core underlay binding does not match the captured physical IPv4")

/-- `RunAsync` from its first save up to the try block. -/
def announce : CoordinatorM D Unit := do
  saveStatus "Starting" id
  let ready ← consult
  refuse (!ready) (.host "ETH201" "Client TUN readiness timed out")

/-- `RunAsync` up to its try block. -/
def enter : CoordinatorM D Unit := do
  accept
  announce

theorem run_eq [DecidableEq D] (launchPhysical : RouteSnapshot D) (context : GatewayContext)
    (passes : List (List IPAddress)) :
    run launchPhysical context passes =
      (do enter; andFinally (serve launchPhysical context passes) shutdown) := by
  unfold run enter accept announce
  simp only [bind, andThen_assoc, raise_andThen]

/-! ## What the parts do to the file -/

/-- The world a save leaves is the one after its only effect on the file. -/
theorem saveStatus_moment (state : String) (thrown : Option Err → Option Err)
    (s : Nat → RouteReply D) (w : ClientRole D) :
    ∃ m ∈ (saveStatus state thrown s w).trace, m.event = .saveStatus state ∧
      (saveStatus state thrown s w).world = m.after ∧ m.after.routes.state = w.routes.state := by
  let w₁ : ClientRole D :=
    { w with routes := { w.routes with table := (s 0).foreign.foldl Edit.apply w.routes.table } }
  let w₂ : ClientRole D :=
    if (s 0).applied ∨ (s 0).err.isNone then { w₁ with status := some state } else w₁
  have hstate : w₂.routes.state = w.routes.state := by
    simp only [w₂]
    split <;> rfl
  have hrun : saveStatus state thrown s w =
      ((outcome (thrown (s 0).err) : CoordinatorM D Unit) (fun n => s (n + 1)) w₂).after
        [⟨.routes .foreign, w, w₁⟩, ⟨.saveStatus state, w₁, w₂⟩] := rfl
  refine ⟨⟨.saveStatus state, w₁, w₂⟩, ?_, rfl, ?_, hstate⟩
  · rw [hrun]
    simp [Ran.after]
  · rw [hrun]
    cases thrown (s 0).err <;> rfl

/-- A save that succeeds leaves its state in the file, and the controller alone. -/
theorem saveStatus_world {state : String} {thrown : Option Err → Option Err}
    {s : Nat → RouteReply D} {w : ClientRole D}
    (h : ∀ m ∈ (saveStatus state thrown s w).trace, ClientSaved m) :
    (saveStatus state thrown s w).world.status = some state ∧
      (saveStatus state thrown s w).world.routes.state = w.routes.state := by
  obtain ⟨m, hm, he, hw, hs⟩ := saveStatus_moment state thrown s w
  rw [hw]
  exact ⟨h m hm state he, hs⟩

theorem accept_status (s : Nat → RouteReply D) (w : ClientRole D) :
    (accept s w).world.status = w.status := by
  unfold accept
  cases hc : (consult s w).result with
  | error e =>
    rw [(bind_threw _ hc).1]
    rfl
  | ok bound =>
    rw [(bind_returned _ hc).1]
    cases bound <;> rfl

theorem announce_status {s : Nat → RouteReply D} {w : ClientRole D}
    (h : ∀ m ∈ (announce s w).trace, ClientSaved m) :
    (announce s w).world.status = some "Starting" := by
  have hsave := saveStatus_world (fun m hm => h m (mem_trace_first _ hm))
  unfold announce
  cases hr : (saveStatus "Starting" id s w).result with
  | error e =>
    rw [(bind_threw _ hr).1]
    exact hsave.1
  | ok u =>
    rw [(bind_returned _ hr).1]
    cases hc : (consult (saveStatus "Starting" id s w).rest (saveStatus "Starting" id s w).world).result with
    | error e =>
      rw [(bind_threw _ hc).1]
      exact hsave.1
    | ok ready =>
      rw [(bind_returned _ hc).1]
      cases ready <;> exact hsave.1

theorem GatewayState.name_active {state : GatewayState} (h : state.name = "GatewayActive") :
    state = .gatewayActive := by
  cases state <;> first | rfl | exact absurd h (by decide)

/-- The file after an operation of the controller that returned and a save of its
state. -/
theorem truthful_of_saved {x : RouteM D Unit} {thrown : Option Err → Option Err}
    {s : Nat → RouteReply D} {w : ClientRole D} (hx : (x s w.routes).result = .ok ())
    (h : ∀ m ∈ ((do onRoutes x; saveStatus (← get).routes.state.name thrown) s w).trace,
      ClientSaved m) :
    ((do onRoutes x; saveStatus (← get).routes.state.name thrown) s w).world.Truthful := by
  have hr : (onRoutes x s w).result = .ok () := hx
  have hsave := @saveStatus_world D (onRoutes x s w).world.routes.state.name thrown
    (onRoutes x s w).rest (onRoutes x s w).world (fun m hm => h m (mem_trace_second hr hm))
  intro hactive
  rw [(bind_returned _ hr).1] at hactive ⊢
  have hname : (onRoutes x s w).world.routes.state.name = "GatewayActive" :=
    Option.some.inj (hsave.1.symm.trans hactive)
  exact hsave.2.trans (GatewayState.name_active hname)

/-- And after one that threw: the file is as it was. -/
theorem status_of_threw {x : RouteM D Unit} {thrown : Option Err → Option Err} {e : Err}
    {s : Nat → RouteReply D} {w : ClientRole D} (hx : (x s w.routes).result = .error e) :
    ((do onRoutes x; saveStatus (← get).routes.state.name thrown) s w).world.status = w.status := by
  have hr : (onRoutes x s w).result = .error e := hx
  rw [(bind_threw _ hr).1]
  rfl

/-- Up to the try block: refused with the file as it was, or announced. -/
theorem enter_status {s : Nat → RouteReply D} {w : ClientRole D}
    (h : ∀ m ∈ (enter s w).trace, ClientSaved m) :
    ((∃ e, (accept s w).result = .error e ∧ (enter s w).result = .error e) ∧
        (enter s w).world.status = w.status) ∨
      (enter s w).world.status = some "Starting" := by
  cases ha : (accept s w).result with
  | error e =>
    obtain ⟨hw, hr⟩ := bind_threw (fun _ => announce) ha
    refine .inl ⟨⟨e, rfl, hr⟩, ?_⟩
    rw [enter, hw]
    exact accept_status s w
  | ok u =>
    right
    rw [enter, (bind_returned (fun _ => announce) ha).1]
    exact announce_status (fun m hm => h m (mem_trace_second ha hm))

/-! ## Operations that meet the condition -/

variable [DecidableEq D]

/-- The recovery of the routes does not fail where the file holds an old claim. -/
def RecoverSound (s : Nat → RouteReply D) (w : ClientRole D) : Prop :=
  w.status = some "GatewayActive" → (GatewayRouteController.recover s w.routes).result = .ok ()

/-- `RunAsync` is not refused at its first checks where the file holds an old claim,
and the rollback in its finally block does not fail after an activation that
returned. -/
structure RunSound (launchPhysical : RouteSnapshot D) (context : GatewayContext)
    (passes : List (List IPAddress)) (s : Nat → RouteReply D) (w : ClientRole D) : Prop where
  accepted : w.status = some "GatewayActive" → (accept s w).result = .ok ()
  rolledBack : (enter s w).result = .ok () →
    (GatewayRouteController.activate context (enter s w).rest (enter s w).world.routes).result = .ok () →
      let served := serve launchPhysical context passes (enter s w).rest (enter s w).world
      (GatewayRouteController.rollbackInternal served.rest served.world.routes).result = .ok ()

theorem recover_truthful {s : Nat → RouteReply D} {w : ClientRole D} (hc : RecoverSound s w)
    (h : ∀ m ∈ (recover s w).trace, ClientSaved m) : (recover s w).world.Truthful := by
  cases hr : (GatewayRouteController.recover s w.routes).result with
  | ok u => exact truthful_of_saved hr h
  | error e =>
    intro hactive
    have hstatus : (recover s w).world.status = w.status := status_of_threw hr
    have hok := hc (hstatus.symm.trans hactive)
    rw [hr] at hok
    cases hok

/-- Where the activation threw, the try block left the file alone. -/
theorem serve_status {launchPhysical : RouteSnapshot D} {context : GatewayContext}
    {passes : List (List IPAddress)} {s : Nat → RouteReply D} {w : ClientRole D} {e : Err}
    (ha : (GatewayRouteController.activate context s w.routes).result = .error e) :
    (serve launchPhysical context passes s w).world.status = w.status := by
  have hr : (onRoutes (GatewayRouteController.activate context) s w).result = .error e := ha
  unfold serve
  rw [(bind_threw _ hr).1]
  rfl

/-- The try block with its finally block, entered with the file announcing the
start. -/
theorem served_truthful {launchPhysical : RouteSnapshot D} {context : GatewayContext}
    {passes : List (List IPAddress)} {s : Nat → RouteReply D} {w : ClientRole D}
    (hstarting : w.status = some "Starting")
    (hrolled : (GatewayRouteController.activate context s w.routes).result = .ok () →
      (GatewayRouteController.rollbackInternal (serve launchPhysical context passes s w).rest
        (serve launchPhysical context passes s w).world.routes).result = .ok ())
    (h : ∀ m ∈ (andFinally (serve launchPhysical context passes) shutdown s w).trace, ClientSaved m) :
    (andFinally (serve launchPhysical context passes) shutdown s w).world.Truthful := by
  rw [(andFinally_world _ _ _ _).1]
  rw [(andFinally_world _ _ _ _).2] at h
  cases hb : (GatewayRouteController.rollbackInternal (serve launchPhysical context passes s w).rest
      (serve launchPhysical context passes s w).world.routes).result with
  | ok v =>
    apply truthful_of_saved hb
    intro m hm
    exact h m (List.mem_append_right _ hm)
  | error e =>
    intro hactive
    cases ha : (GatewayRouteController.activate context s w.routes).result with
    | ok v =>
      have hok := hb.symm.trans (hrolled ha)
      cases hok
    | error e' =>
      have hshut := @status_of_threw D GatewayRouteController.rollbackInternal Err.uncancelled e _ _ hb
      have hserve := @serve_status D _ launchPhysical context passes s w e' ha
      have hall := hactive.symm.trans (hshut.trans (hserve.trans hstarting))
      exact absurd hall (by decide)

theorem run_truthful {launchPhysical : RouteSnapshot D} {context : GatewayContext}
    {passes : List (List IPAddress)} {s : Nat → RouteReply D} {w : ClientRole D}
    (hc : RunSound launchPhysical context passes s w)
    (h : ∀ m ∈ (run launchPhysical context passes s w).trace, ClientSaved m) :
    (run launchPhysical context passes s w).world.Truthful := by
  rw [run_eq] at h ⊢
  have henter := enter_status (fun m hm => h m (mem_trace_first _ hm))
  cases he : (enter s w).result with
  | error e =>
    rw [(bind_threw _ he).1]
    intro hactive
    rcases henter with ⟨⟨e', ha, -⟩, hsame⟩ | hstarting
    · -- refused: the old claim would have to be there before
      have hok := hc.accepted (hsame.symm.trans hactive)
      rw [ha] at hok
      cases hok
    · rw [hstarting] at hactive
      exact absurd hactive (by decide)
  | ok u =>
    have hstarting : (enter s w).world.status = some "Starting" := by
      rcases henter with ⟨⟨e', -, hr⟩, -⟩ | hstarting
      · rw [he] at hr
        cases hr
      · exact hstarting
    rw [(bind_returned _ he).1]
    exact served_truthful hstarting (hc.rolledBack he) (fun m hm => h m (mem_trace_second he hm))

end ClientInternetCoordinator

/-! ## Runs -/

section Runs
variable {D : Type} [DecidableEq D]

/-- The condition on one step. An operation that dies with its process has not
ended, and nothing is asked of it. -/
def ClientStepSound (w : ClientRole D) : Step (RouteReply D) (ClientOp D) → Prop
  | .call .recover s => ClientInternetCoordinator.RecoverSound s w
  | .call (.run launchPhysical context passes) s =>
    ClientInternetCoordinator.RunSound launchPhysical context passes s w
  | .crash _ _ _ => True

/-- Every step of a run meets the condition in the world it is taken in. -/
def ClientRunSound : ClientRole D → List (Step (RouteReply D) (ClientOp D)) → Prop
  | _, [] => True
  | w, st :: rest => ClientStepSound w st ∧ ClientRunSound ((clientSystem D).stepWorld w st) rest

theorem ClientRunSound.step {st : Step (RouteReply D) (ClientOp D)}
    {after : List (Step (RouteReply D) (ClientOp D))} :
    ∀ (before : List (Step (RouteReply D) (ClientOp D))) {w : ClientRole D},
      ClientRunSound w (before ++ st :: after) →
        ClientStepSound ((clientSystem D).final w before) st
  | [], _, h => h.1
  | _ :: before, _, h => ClientRunSound.step before h.2

/-- An operation that ended leaves the file truthful. -/
theorem call_truthful {w : ClientRole D} {op : ClientOp D} {s : Nat → RouteReply D}
    (hc : ClientStepSound w (.call op s))
    (h : ∀ m ∈ (clientSystem D).stepTrace w (.call op s), ClientSaved m) :
    ((clientSystem D).stepWorld w (.call op s)).Truthful := by
  cases op with
  | recover => exact ClientInternetCoordinator.recover_truthful hc h
  | run launchPhysical context passes => exact ClientInternetCoordinator.run_truthful hc h

/-- In every run with crashes and failures whose steps meet the condition, the file
is truthful whenever `RecoverAsync` or `RunAsync` has ended. -/
theorem client_status_truthful (w : ClientRole D) (steps : List (Step (RouteReply D) (ClientOp D)))
    (hsaves : ∀ m ∈ (clientSystem D).trace w steps, ClientSaved m) (hsound : ClientRunSound w steps)
    (before after : List (Step (RouteReply D) (ClientOp D))) (op : ClientOp D)
    (s : Nat → RouteReply D) (hsplit : steps = before ++ .call op s :: after) :
    ((clientSystem D).final w (before ++ [.call op s])).Truthful := by
  subst hsplit
  rw [System.final_append]
  apply call_truthful (ClientRunSound.step before hsound)
  intro m hm
  apply hsaves m
  rw [System.trace_append, System.trace]
  exact List.mem_append_right _ (List.mem_append_left _ hm)

end Runs

/-! ## A client at home -/

def homeRole : ClientRole Bool := ⟨homeWorld, none⟩

/-- The first `n` calls succeed and every later one throws. -/
def failingFrom (n : Nat) : Nat → RouteReply Bool := fun k =>
  if k < n then goodReply else { goodReply with err := some (.io "The route could not be deleted") }

/-- A recovery, then a run of the coordinator in which the calls succeed up to the
`n`-th. -/
def homeSteps (n : Nat) : List (Step (RouteReply Bool) (ClientOp Bool)) :=
  [.call .recover goodScript, .call (.run goodReply.snapshot homeContext []) (failingFrom n)]

instance (m : Moment ClientRoleEvent (ClientRole Bool)) : Decidable (ClientSaved m) :=
  match h : m.event with
  | .saveStatus state =>
    decidable_of_iff (m.after.status = some state)
      ⟨fun hs st hst => by rw [h] at hst; cases hst; exact hs, fun hm => hm state h⟩
  | .routes _ => .isTrue (fun state hs => by rw [h] at hs; cases hs)

theorem ok_of_isOk {r : Except Err Unit} (h : r.isOk = true) : r = .ok () := by
  cases r with
  | ok u => rfl
  | error e => cases h

/-- With every call successful the routes are rolled back and the file says so. -/
theorem client_status_truthful_home :
    ((clientSystem Bool).final homeRole (homeSteps 100)).Truthful ∧
      ((clientSystem Bool).final homeRole (homeSteps 100)).status = some "PhysicalOnly" := by
  have hsaves : ∀ m ∈ (clientSystem Bool).trace homeRole (homeSteps 100), ClientSaved m := by
    decide +kernel
  have hsound : ClientRunSound homeRole (homeSteps 100) := by
    refine ⟨fun h => ?_, ⟨fun h => ?_, fun _ _ => ?_⟩, trivial⟩
    · exact absurd h (by decide)
    · exact absurd h (by decide +kernel)
    · exact ok_of_isOk (by decide +kernel)
  refine ⟨?_, by decide +kernel⟩
  exact client_status_truthful homeRole (homeSteps 100) hsaves hsound
    [.call .recover goodScript] [] _ _ rfl

/-- After an activation, a rollback whose calls fail leaves the claim in the file:
all saves have succeeded, `RunAsync` has ended, and the controller is in the fault
state. -/
theorem client_status_stale :
    (∀ m ∈ (clientSystem Bool).trace homeRole (homeSteps 40), ClientSaved m) ∧
      ((clientSystem Bool).final homeRole (homeSteps 40)).status = some "GatewayActive" ∧
      ((clientSystem Bool).final homeRole (homeSteps 40)).routes.state = .faulted ∧
      ¬((clientSystem Bool).final homeRole (homeSteps 40)).Truthful := by
  have hstatus : ((clientSystem Bool).final homeRole (homeSteps 40)).status = some "GatewayActive" := by
    decide +kernel
  have hstate : ((clientSystem Bool).final homeRole (homeSteps 40)).routes.state = .faulted := by
    decide +kernel
  refine ⟨by decide +kernel, hstatus, hstate, ?_⟩
  intro h
  have hactive := h hstatus
  rw [hstate] at hactive
  cases hactive

end EasyTierHost
