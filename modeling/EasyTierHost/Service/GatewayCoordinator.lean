import EasyTierHost.Gateway.GatewayBootstrapper

/- GatewayCoordinator.cs: the role task of a gateway server. It waits for the
   TUN, captures the physical network, runs a `GatewayBootstrapper` of its own and
   keeps gateway-status.json. What it reads from Core, from the adapters and from
   the route API changes nothing here; any of it may throw, and a health check may
   say no.

   The service loop has no way out but an exception. `passes` bounds how often it
   goes round: when they are used up, the delay at its head is cancelled. Every
   run of the task that ends is a run for some `passes`.

   A call without a cancellation token does not throw `OperationCanceledException`,
   and with nobody else at the gate such a call does not wait. -/
namespace EasyTierHost
open Effects Effects.Prog

/-- The gateway of the machine, and the `State` in gateway-status.json. -/
structure GatewayRole (F : Type) where
  server : GatewayWorld F
  status : Option String
  deriving DecidableEq

inductive GatewayRoleEvent where
  | server (event : GatewayEvent)
  | saveStatus (state : String)
  deriving DecidableEq, Repr

/-- `GatewayServerState.ToString`. -/
def GatewayServerState.name : GatewayServerState → String
  | stopped => "Stopped"
  | preparing => "Preparing"
  | dnsStarting => "DnsStarting"
  | ready => "Ready"
  | rollingBack => "RollingBack"
  | faulted => "Faulted"

namespace GatewayCoordinator
variable {F : Type}

abbrev CoordinatorM (F : Type) := Prog GatewayRoleEvent (GatewayReply F) (GatewayRole F) Err

/-- The bootstrapper's part of the world. -/
def onServer {α : Type} (x : GatewayM F α) : CoordinatorM F α :=
  x.zoom GatewayRole.server (fun v w => { w with server := v }) .server

/-- Calls that read and may throw. -/
def consult : CoordinatorM F Unit := onServer (GatewayBootstrapper.query (fun _ _ => ()))

/-- `ConfigurationStore.SaveAtomicAsync` of gateway-status.json. -/
def saveStatus (state : String) (thrown : Option Err → Option Err) : CoordinatorM F Unit := do
  let r ← ask
  effect (.saveStatus state) (fun w => if r.applied ∨ r.err.isNone then { w with status := some state } else w)
  outcome (thrown r.err)

/-- `dns.DisposeAsync`. -/
def disposeDns : CoordinatorM F Unit := do
  let r ← ask
  effect (.server .dnsStop) (fun w =>
    if r.applied ∨ r.err.isNone then { w with server := { w.server with dns := false } } else w)
  outcome (Err.uncancelled r.err)

/-- `RecoverAsync`, with a bootstrapper and a DNS runtime of its own. -/
def recover [DecidableEq F] (platform : String) : CoordinatorM F Unit :=
  andFinally (onServer (do
    modify (GatewayWorld.renew platform)
    GatewayBootstrapper.recover)) disposeDns

/-- The service loop. -/
def monitor : Nat → CoordinatorM F Unit
  | 0 => throw .cancelled
  | passes + 1 => do
    consult
    let healthy ← onServer GatewayBootstrapper.check
    refuse (healthy = false) (.host "ETH202" "Gateway health check failed")
    monitor passes

/-- The try block of `RunAsync`. -/
def serve [DecidableEq F] (passes : Nat) (physical : RouteSnapshot Unit) (overlay : GatewayAdapter) :
    CoordinatorM F Unit := do
  onServer (GatewayBootstrapper.start physical overlay)
  saveStatus "GatewayReady" id
  monitor passes

/-- The finally block of `RunAsync`. -/
def shutdown [DecidableEq F] : CoordinatorM F Unit :=
  andFinally (onServer GatewayBootstrapper.rollbackInternal) (do
    saveStatus (← get).server.state.name Err.uncancelled)

/-- `RunAsync`. -/
def run [DecidableEq F] (platform : String) (passes : Nat) (physical : RouteSnapshot Unit)
    (overlay : GatewayAdapter) : CoordinatorM F Unit := do
  -- the TUN is up, Core and its peers answer, the physical network is captured
  consult
  onServer (modify (GatewayWorld.renew platform))
  andFinally (andFinally (serve passes physical overlay) shutdown) disposeDns

end GatewayCoordinator

end EasyTierHost
