import EasyTierHost.Service.ClientInternetCoordinator
import EasyTierHost.Service.GatewayCoordinator

/- Program.RunAsync and NetworkRecovery.StopRoleAsync: the supervisor of Core and
   of the role task. The supervisor is a sequential program; the role tasks run
   beside it. A role task is a run of its coordinator, started on the files as
   they are and then taken one effect at a time: whenever the supervisor waits,
   the environment says which tasks have moved on (`schedule`), and awaiting a
   task lets it finish. The coordinators are the only writers of their files, so a
   task computed from the files at its start is right as long as no two tasks
   overlap and the supervisor keeps its own recoveries apart from them; that
   neither happens is part of what is proved.

   The environment also cancels `ct` whenever it likes, decides how Core exits,
   which task `Task.WhenAny` reports and what every call throws. Cancelling the
   iteration's token runs no callback that throws: none is registered.

   The loop has no bound. `RunAsync` with `n` is its first `n` iterations;
   a run that returns `false` is one that has not ended by then. -/
namespace EasyTierHost
open Effects Effects.Prog

/-- A role task: what it has yet to do to the machine, one state for each effect,
and how it ends. -/
inductive RoleTask (D F : Type) where
  | client (remaining : List (ClientRole D)) (result : Except Err Unit)
  | gateway (remaining : List (GatewayRole F)) (result : Except Err Unit)

namespace RoleTask
variable {D F : Type}

def steps : RoleTask D F → Nat
  | client remaining _ => remaining.length
  | gateway remaining _ => remaining.length

def result : RoleTask D F → Except Err Unit
  | client _ result => result
  | gateway _ result => result

/-- `Task.IsCompleted`. -/
def finished (t : RoleTask D F) : Bool := t.steps == 0

end RoleTask

/-- The `State` in status.json. -/
inductive HostStatus where
  | gatewayStarting | clientGatewayStarting | overlayOnly | recoveryRequired | stopped
  deriving DecidableEq, Repr

/-- How far a run has come: before its loop, in it, or past the last finally
block, with a call of that block failing or not. -/
inductive HostPhase where
  | setup | loop | failed | closed
  deriving DecidableEq, Repr

/-- What the supervisor and its role tasks share. `roles` has every role task ever
started, the latest first; `roleTask` says whether it is this iteration's. `phase`
is a history variable. -/
structure HostWorld (D F : Type) where
  client : ClientRole D
  gateway : GatewayRole F
  ct : Bool
  iteration : Bool
  roleTask : Bool
  roles : List (RoleTask D F)
  failures : List Int
  status : Option HostStatus
  phase : HostPhase

inductive HostEvent where
  | role (index : Nat)
  | recoverRoutes
  | recoverGateway
  | startCore
  | stopCore
  | startRole
  | saveStatus (status : HostStatus)
  | deleteConfig
  deriving DecidableEq, Repr

/-- What a role task or a recovery meets on its way. -/
structure RolePlan (D F : Type) where
  routeScript : Nat → RouteReply D
  gatewayScript : Nat → GatewayReply F
  launchPhysical : RouteSnapshot D
  context : GatewayContext
  endpoints : List (List IPAddress)
  physical : RouteSnapshot Unit
  overlay : GatewayAdapter
  passes : Nat

/-- The environment's reply to the supervisor. -/
structure HostReply (D F : Type) where
  cancel : Bool
  schedule : List Nat
  applied : Bool
  err : Option Err
  now : Int
  exitCode : Int
  roleFirst : Bool
  plan : RolePlan D F

abbrev HostM (D F : Type) := Prog HostEvent (HostReply D F) (HostWorld D F) Err

namespace HostWorld
variable {D F : Type}

/-- The host's token, and with it the iteration's, may be cancelled. -/
def observe (cancel : Bool) (w : HostWorld D F) : HostWorld D F :=
  { w with ct := w.ct || cancel, iteration := w.iteration || w.ct || cancel }

/-- The next effect of a role task, if it has one. -/
def roleStep (index : Nat) (w : HostWorld D F) : HostWorld D F :=
  match w.roles[index]? with
  | some (.client (v :: rest) result) => { w with client := v, roles := w.roles.set index (.client rest result) }
  | some (.gateway (v :: rest) result) => { w with gateway := v, roles := w.roles.set index (.gateway rest result) }
  | _ => w

/-- `File.Exists` of either journal. -/
def pending (w : HostWorld D F) : Bool := w.client.routes.file.isSome || w.gateway.server.file.isSome

end HostWorld

namespace Program
variable {D F : Type}

/-! ## Calls -/

/-- Whenever the supervisor waits, the rest of the world goes on. -/
def tick : HostM D F (HostReply D F) := do
  let r ← ask
  modify (HostWorld.observe r.cancel)
  each (fun i => effect (.role i) (HostWorld.roleStep i)) r.schedule
  return r

/-- A call that may throw and changes nothing here. -/
def attend : HostM D F Unit := do
  let r ← tick
  outcome r.err

/-- `clientInternet.RecoverAsync`. -/
def recoverClient [DecidableEq D] : HostM D F Unit := do
  let r ← tick
  let run := ClientInternetCoordinator.recover r.plan.routeScript (← get).client
  effect .recoverRoutes (fun w => { w with client := run.world })
  ofExcept run.result

/-- `gateway.RecoverAsync`. -/
def recoverGateway [DecidableEq F] (platform : String) : HostM D F Unit := do
  let r ← tick
  let run := GatewayCoordinator.recover platform r.plan.gatewayScript (← get).gateway
  effect .recoverGateway (fun w => { w with gateway := run.world })
  ofExcept run.result

/-- `manager.StartAsync`. -/
def startCore : HostM D F Unit := do
  let r ← tick
  effect .startCore id
  outcome r.err

/-- `manager.StopAsync`. -/
def stopCore : HostM D F Unit := do
  let r ← tick
  effect .stopCore id
  outcome (Err.uncancelled r.err)

/-- `ConfigurationStore.SaveAtomicAsync` of status.json. -/
def saveStatus (status : HostStatus) : HostM D F Unit := do
  let r ← tick
  effect (.saveStatus status) (fun w => if r.applied ∨ r.err.isNone then { w with status := some status } else w)
  outcome r.err

/-! ## The role task -/

/-- The task of a run: the states after its effects and the one it ends in. -/
def clientTask (run : Ran ClientRoleEvent (RouteReply D) (ClientRole D) Err Unit) : RoleTask D F :=
  .client (run.trace.map Moment.after ++ [run.world]) run.result

def gatewayTask (run : Ran GatewayRoleEvent (GatewayReply F) (GatewayRole F) Err Unit) : RoleTask D F :=
  .gateway (run.trace.map Moment.after ++ [run.world]) run.result

/-- `roleTask = gateway.RunAsync(..)` or `clientInternet.RunAsync(..)`. -/
def startRole [DecidableEq D] [DecidableEq F] (p : NetworkProfile) (platform : String) : HostM D F Unit := do
  let r ← tick
  if p.role = .gateway then
    effect .startRole (fun w =>
      { w with
        roleTask := true
        roles := gatewayTask (GatewayCoordinator.run platform r.plan.passes r.plan.physical r.plan.overlay
          r.plan.gatewayScript w.gateway) :: w.roles })
  else if p.role = .client ∧ p.enableInternetGateway then
    effect .startRole (fun w =>
      { w with
        roleTask := true
        roles := clientTask (ClientInternetCoordinator.run r.plan.launchPhysical r.plan.context r.plan.endpoints
          r.plan.routeScript w.client) :: w.roles })

/-- `await roleTask`. -/
def awaitRole : HostM D F Unit := do
  let _ ← tick
  match (← get).roles with
  | [] => throw .nullReference
  | task :: _ =>
    each (fun _ => effect (.role 0) (HostWorld.roleStep 0)) (List.range task.steps)
    ofExcept task.result

/-- `catch (OperationCanceledException) when (iteration.IsCancellationRequested) { }`. -/
def ignoreCancelled (x : HostM D F Unit) : HostM D F Unit :=
  tryCatch x (fun e => do if e.isCancelled ∧ (← get).iteration then return else throw e)

/-- `lifetime.CancelAsync`. -/
def cancelIteration : HostM D F Unit := do
  modify (fun w => { w with iteration := true })
  let _ ← tick

/-- `NetworkRecovery.StopRoleAsync`. -/
def stopRole : HostM D F Unit :=
  andFinally (do
    cancelIteration
    if (← get).roleTask then ignoreCancelled awaitRole) stopCore

/-! ## One iteration -/

/-- `await exitTask`. -/
def awaitExit : HostM D F Int := do
  let r ← tick
  outcome r.err
  return r.exitCode

/-- The state name that status.json gets once Core runs. -/
def startingStatus (p : NetworkProfile) : HostStatus :=
  if p.role = .gateway then .gatewayStarting
  else if p.role = .client ∧ p.enableInternetGateway then .clientGatewayStarting
  else .overlayOnly

/-- From `Task.WhenAny` to the end of the try block. -/
def awaitEither : HostM D F Int := do
  let r ← tick
  if r.roleFirst then
    awaitRole
    throw (.host "ETH201" "Role coordinator stopped unexpectedly")
  else
    let code ← awaitExit
    cancelIteration
    ignoreCancelled awaitRole
    return code

/-- The try block of an iteration. -/
def launch [DecidableEq D] [DecidableEq F] (p : NetworkProfile) (platform : String) : HostM D F Int := do
  recoverClient
  if p.role = .client ∧ p.enableInternetGateway then attend
  startCore
  saveStatus (startingStatus p)
  startRole p platform
  if (← get).roleTask then awaitEither else awaitExit

/-- The catch block: report the exception, unless the host is being stopped. -/
def caught (e : Err) : HostM D F Int := do
  let _ ← tick
  if (← get).ct then throw e else return (-1)

/-- Two minutes in ticks of a hundred nanoseconds. -/
def window : Int := 1200000000

/-- `failures` after a failure at `now`. -/
def enqueue (now : Int) (failures : List Int) : List Int :=
  (failures ++ [now]).dropWhile (fun t => now - t > window)

/-- Count the failure; too many of them are fatal. -/
def recordFailure : HostM D F Unit := do
  let r ← tick
  modify (fun w => { w with failures := enqueue r.now w.failures })
  if (← get).failures.length > 5 then
    let _ ← tick
    throw (.host "ETH101" "Repeated core failures: Degraded")

/-- The body of the loop. -/
def iteration [DecidableEq D] [DecidableEq F] (p : NetworkProfile) (platform : String) : HostM D F Unit := do
  modify (fun w => { w with iteration := w.ct, roleTask := false })
  let _ ← andFinally (tryCatch (launch p platform) caught) stopRole
  recordFailure
  attend

/-! ## The whole run -/

/-- The loop, for `n` iterations at most. -/
def iterate [DecidableEq D] [DecidableEq F] (p : NetworkProfile) (platform : String) : Nat → HostM D F Bool
  | 0 => return false
  | n + 1 => do
    if (← get).ct then return true
    else
      iteration p platform
      iterate p platform n

/-- The last finally block. -/
def close : HostM D F Unit :=
  tryCatch (do
    stopCore
    let r ← tick
    effect .deleteConfig id
    outcome r.err
    saveStatus (if (← get).pending then .recoveryRequired else .stopped)
    modify (fun w => { w with phase := .closed }))
  (fun e => do
    modify (fun w => { w with phase := .failed })
    throw e)

/-- `RunAsync`: recover, write core.toml, then supervise. -/
def runAsync [DecidableEq D] [DecidableEq F] (p : NetworkProfile) (platform : String) (n : Nat) :
    HostM D F Bool := do
  attend
  recoverClient
  recoverGateway platform
  attend
  modify (fun w => { w with phase := .loop })
  -- the manager's own `DisposeAsync` stops Core once more
  finallyIfEnded (finallyIfEnded (iterate p platform n) close) stopCore

end Program

end EasyTierHost
