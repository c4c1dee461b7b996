import EasyTierHost.Network.RouteController

/- ClientInternetCoordinator.cs: the role task of a client that takes its default
   route through the overlay. It drives the one `GatewayRouteController` of the
   process and keeps client-gateway-status.json. As for the gateway's coordinator,
   what it reads from Core and the adapters changes nothing here, the loop ends at
   the latest when its passes are used up, and a call without a cancellation token
   is not cancelled and does not wait at the gate.

   One pass of the loop gets the set of endpoints that the peers report, with
   their grace period, from the outside. -/
namespace EasyTierHost
open Effects Effects.Prog

/-- The routes of the machine, and the `State` in client-gateway-status.json. -/
structure ClientRole (D : Type) where
  routes : RouteWorld D
  status : Option String
  deriving DecidableEq

inductive ClientRoleEvent where
  | routes (event : RouteEvent)
  | saveStatus (state : String)
  deriving DecidableEq, Repr

/-- `GatewayState.ToString`. -/
def GatewayState.name : GatewayState → String
  | physicalOnly => "PhysicalOnly"
  | capturing => "Capturing"
  | underlayProtected => "UnderlayProtected"
  | probing => "Probing"
  | gatewayActive => "GatewayActive"
  | rollingBack => "RollingBack"
  | faulted => "Faulted"

namespace ClientInternetCoordinator
variable {D : Type}

abbrev CoordinatorM (D : Type) := Prog ClientRoleEvent (RouteReply D) (ClientRole D) Err

/-- The route controller's part of the world. -/
def onRoutes {α : Type} (x : RouteM D α) : CoordinatorM D α :=
  x.zoom ClientRole.routes (fun v w => { w with routes := v }) .routes

/-- Calls that read and may throw; the environment may say no. -/
def consult : CoordinatorM D Bool := onRoutes GatewayRouteController.checkProbe

/-- `ConfigurationStore.SaveAtomicAsync` of client-gateway-status.json. -/
def saveStatus (state : String) (thrown : Option Err → Option Err) : CoordinatorM D Unit := do
  let r ← onRoutes GatewayRouteController.reply
  effect (.saveStatus state) (fun w => if r.applied ∨ r.err.isNone then { w with status := some state } else w)
  outcome (thrown r.err)

/-- `RecoverAsync`. -/
def recover [DecidableEq D] : CoordinatorM D Unit := do
  onRoutes GatewayRouteController.recover
  saveStatus (← get).routes.state.name id

/-- `SamePhysical`. -/
def samePhysical (left right : RouteSnapshot D) : Bool :=
  left.physicalInterfaceIndex == right.physicalInterfaceIndex && left.physicalIpv4 == right.physicalIpv4 &&
    left.physicalGateway == right.physicalGateway

/-- The service loop, one list of protected endpoints for each pass. -/
def monitor [DecidableEq D] (launchPhysical : RouteSnapshot D) : List (List IPAddress) → CoordinatorM D Unit
  | [] => throw .cancelled
  | protectedEndpoints :: passes => do
    let bound ← consult
    refuse (!bound) (.host "ETH301" "Core underlay binding changed")
    let currentPhysical ← onRoutes GatewayRouteController.captureRoutes
    if !samePhysical currentPhysical launchPhysical then
      onRoutes GatewayRouteController.rollbackInternal
      throw (.host "ETH301" "Physical network changed; gateway routes rolled back for Core restart")
    else
      let sameOverlay ← consult
      if !sameOverlay then
        onRoutes GatewayRouteController.rollbackInternal
        throw (.host "ETH201" "Overlay interface changed; gateway routes rolled back")
      else
        -- Core still is the instance that was started and no peer has the same address
        let sameCore ← consult
        refuse (!sameCore) (.host "ETH201" "Client Core instance changed")
        onRoutes (GatewayRouteController.updateProtection protectedEndpoints)
        onRoutes GatewayRouteController.reconcile
        refuse ((← get).routes.state ≠ .gatewayActive)
          (.host "ETH301" "Gateway route ownership changed; network rolled back")
        let healthy ← consult
        refuse (!healthy) (.host "ETH203" "Active Internet gateway health probe failed")
        monitor launchPhysical passes

/-- The try block of `RunAsync`. -/
def serve [DecidableEq D] (launchPhysical : RouteSnapshot D) (context : GatewayContext)
    (passes : List (List IPAddress)) : CoordinatorM D Unit := do
  onRoutes (GatewayRouteController.activate context)
  saveStatus "GatewayActive" id
  monitor launchPhysical passes

/-- The finally block of `RunAsync`. -/
def shutdown [DecidableEq D] : CoordinatorM D Unit := do
  onRoutes GatewayRouteController.rollbackInternal
  saveStatus (← get).routes.state.name Err.uncancelled

/-- `RunAsync`. -/
def run [DecidableEq D] (launchPhysical : RouteSnapshot D) (context : GatewayContext)
    (passes : List (List IPAddress)) : CoordinatorM D Unit := do
  let bound ← consult
  refuse (!bound) (.host "ETH301" "Core underlay binding does not match the captured physical IPv4")
  saveStatus "Starting" id
  -- the TUN is up, Core and its peers answer
  let ready ← consult
  refuse (!ready) (.host "ETH201" "Client TUN readiness timed out")
  andFinally (serve launchPhysical context passes) shutdown

end ClientInternetCoordinator

end EasyTierHost
