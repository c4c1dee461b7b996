import EasyTierHost.Network.UnderlayRouteProtector
import EasyTierHost.Service.ClientStatus

/- The endpoint protector in the loop of ClientInternetCoordinator.cs. Every pass takes
   the endpoints the peers report, lets the protector add those that are still within
   the grace period, and hands the result to `UpdateProtectionAsync`. The clock is read
   once in a pass, by the protector. -/
namespace EasyTierHost
open Effects Effects.Prog

/-- What one pass learns: the time, and the endpoints of each peer. -/
structure PeerReport where
  now : Int
  peers : List (List IPAddress)

namespace ClientInternetCoordinator
variable {D : Type}

/-! ## The loop with its clock -/

/-- `ActiveEndpoints`. -/
def activeEndpoints (seedPhysicalIp : Option String) (peers : List (List IPAddress)) : List IPAddress :=
  let result := ((seedPhysicalIp.bind IPAddress.tryParse).toList ++ peers.flatten).eraseDups
  result.filter isPhysicalUnicast

/-- A report as the protector sees it. -/
def sighting (seedPhysicalIp : Option String) (report : PeerReport) : Sighting IPAddress Int :=
  ⟨report.now, activeEndpoints seedPhysicalIp report.peers⟩

/-- `endpointProtector.Update(ActiveEndpoints(profile, peers))`. -/
def protectReported (seedPhysicalIp : Option String) (p : UnderlayRouteProtector) (report : PeerReport) :
    UnderlayRouteProtector :=
  p.update (activeEndpoints seedPhysicalIp report.peers) report.now

/-- A pass of the loop up to the endpoint update. -/
def beforeUpdate [DecidableEq D] (launchPhysical : RouteSnapshot D) : CoordinatorM D Unit := do
  let bound ← consult
  refuse (!bound) (.host "ETH301" "Core underlay binding changed")
  let currentPhysical ← onRoutes GatewayRouteController.captureRoutes
  if !samePhysical currentPhysical launchPhysical then
    onRoutes GatewayRouteController.rollbackInternal
    throw (.host "ETH301" "Physical network changed; gateway routes rolled back for Core restart")
  else
    let sameOverlay ← consult
    if !sameOverlay then
      onRoutes GatewayRouteController.rollbackInternal
      throw (.host "ETH201" "Overlay interface changed; gateway routes rolled back")
    else
      let sameCore ← consult
      refuse (!sameCore) (.host "ETH201" "Client Core instance changed")

/-- The rest of a pass. -/
def afterUpdate [DecidableEq D] : CoordinatorM D Unit := do
  onRoutes GatewayRouteController.reconcile
  refuse ((← get).routes.state ≠ .gatewayActive)
    (.host "ETH301" "Gateway route ownership changed; network rolled back")
  let healthy ← consult
  refuse (!healthy) (.host "ETH203" "Active Internet gateway health probe failed")

/-- The service loop, one report for each pass. -/
def watch [DecidableEq D] (launchPhysical : RouteSnapshot D) (seedPhysicalIp : Option String) :
    UnderlayRouteProtector → List PeerReport → CoordinatorM D Unit
  | _, [] => throw .cancelled
  | p, report :: reports => do
    beforeUpdate launchPhysical
    let p := protectReported seedPhysicalIp p report
    onRoutes (GatewayRouteController.updateProtection p.current)
    afterUpdate
    watch launchPhysical seedPhysicalIp p reports

/-- The endpoints each pass protects. -/
def passes (seedPhysicalIp : Option String) : UnderlayRouteProtector → List PeerReport → List (List IPAddress)
  | _, [] => []
  | p, report :: reports =>
    (protectReported seedPhysicalIp p report).current ::
      passes seedPhysicalIp (protectReported seedPhysicalIp p report) reports

theorem monitor_cons [DecidableEq D] (launchPhysical : RouteSnapshot D) (protectedEndpoints : List IPAddress)
    (rest : List (List IPAddress)) :
    monitor launchPhysical (protectedEndpoints :: rest) = (do
      beforeUpdate launchPhysical
      onRoutes (GatewayRouteController.updateProtection protectedEndpoints)
      afterUpdate
      monitor launchPhysical rest) := by
  rw [monitor]
  unfold beforeUpdate afterUpdate
  simp only [bind, andThen_assoc, ite_andThen, raise_andThen, throw, throwThe, MonadExceptOf.throw]

/-- The loop with the protector inside is the loop over the endpoints it returns. -/
theorem watch_eq_monitor [DecidableEq D] (launchPhysical : RouteSnapshot D) (seedPhysicalIp : Option String) :
    ∀ (reports : List PeerReport) (p : UnderlayRouteProtector),
      watch launchPhysical seedPhysicalIp p reports = monitor launchPhysical (passes seedPhysicalIp p reports)
  | [], _ => rfl
  | report :: reports, p => by
    simp only [watch, passes, monitor_cons, watch_eq_monitor launchPhysical seedPhysicalIp reports]

/-- What `FindAdapter` found, as far as the route controller is told. -/
structure Overlay where
  interfaceIndex : Int
  ip : String

/-- The protector after the first report. -/
def firstProtector (seedPhysicalIp : Option String) (first : PeerReport) : UnderlayRouteProtector :=
  protectReported seedPhysicalIp (UnderlayRouteProtector.create (fromSeconds 120)) first

/-- The context of the activation: the first report is protected by it. -/
def firstContext (seedPhysicalIp : Option String) (overlay : Overlay) (verified : Bool) (first : PeerReport) :
    GatewayContext :=
  ⟨overlay.interfaceIndex, overlay.ip, (firstProtector seedPhysicalIp first).current, verified⟩

/-- `RunAsync` on a sequence of reports. -/
def runReported [DecidableEq D] (launchPhysical : RouteSnapshot D) (seedPhysicalIp : Option String)
    (overlay : Overlay) (verified : Bool) (first : PeerReport) (reports : List PeerReport) : CoordinatorM D Unit := do
  enter
  andFinally (do
    onRoutes (GatewayRouteController.activate (firstContext seedPhysicalIp overlay verified first))
    saveStatus "GatewayActive" id
    watch launchPhysical seedPhysicalIp (firstProtector seedPhysicalIp first) reports) shutdown

theorem runReported_eq_run [DecidableEq D] (launchPhysical : RouteSnapshot D) (seedPhysicalIp : Option String)
    (overlay : Overlay) (verified : Bool) (first : PeerReport) (reports : List PeerReport) :
    runReported launchPhysical seedPhysicalIp overlay verified first reports =
      run launchPhysical (firstContext seedPhysicalIp overlay verified first)
        (passes seedPhysicalIp (firstProtector seedPhysicalIp first) reports) := by
  rw [run_eq, runReported, watch_eq_monitor]
  rfl

/-! ## Up to one update -/

/-- The loop up to the return of `UpdateProtectionAsync` in the pass of `last`. -/
def upTo [DecidableEq D] (launchPhysical : RouteSnapshot D) (seedPhysicalIp : Option String) (last : PeerReport) :
    UnderlayRouteProtector → List PeerReport → CoordinatorM D Unit
  | p, [] => do
    beforeUpdate launchPhysical
    onRoutes (GatewayRouteController.updateProtection (protectReported seedPhysicalIp p last).current)
  | p, report :: reports => do
    beforeUpdate launchPhysical
    let p := protectReported seedPhysicalIp p report
    onRoutes (GatewayRouteController.updateProtection p.current)
    afterUpdate
    upTo launchPhysical seedPhysicalIp last p reports

/-- The try block of `RunAsync` up to that point. -/
def serveUpTo [DecidableEq D] (launchPhysical : RouteSnapshot D) (seedPhysicalIp : Option String)
    (overlay : Overlay) (verified : Bool) (first : PeerReport) (reports : List PeerReport) (last : PeerReport) :
    CoordinatorM D Unit := do
  onRoutes (GatewayRouteController.activate (firstContext seedPhysicalIp overlay verified first))
  saveStatus "GatewayActive" id
  upTo launchPhysical seedPhysicalIp last (firstProtector seedPhysicalIp first) reports

/-- `RunAsync` up to that point. -/
def throughUpdate [DecidableEq D] (launchPhysical : RouteSnapshot D) (seedPhysicalIp : Option String)
    (overlay : Overlay) (verified : Bool) (first : PeerReport) (reports : List PeerReport) (last : PeerReport) :
    CoordinatorM D Unit := do
  enter
  serveUpTo launchPhysical seedPhysicalIp overlay verified first reports last

/-- The loop goes on from there. -/
theorem watch_append [DecidableEq D] (launchPhysical : RouteSnapshot D) (seedPhysicalIp : Option String)
    (last : PeerReport) (later : List PeerReport) : ∀ (reports : List PeerReport) (p : UnderlayRouteProtector),
    watch launchPhysical seedPhysicalIp p (reports ++ last :: later) = (do
      upTo launchPhysical seedPhysicalIp last p reports
      afterUpdate
      watch launchPhysical seedPhysicalIp
        (protectReported seedPhysicalIp (reports.foldl (protectReported seedPhysicalIp) p) last) later)
  | [], p => by
    simp only [List.nil_append, watch, upTo, List.foldl_nil, bind, andThen_assoc, raise_andThen]
  | report :: reports, p => by
    simp only [List.cons_append, watch, upTo, List.foldl_cons, watch_append launchPhysical seedPhysicalIp last later,
      bind, andThen_assoc, raise_andThen]

/-- Every run on reports that include `last` passes through that point. -/
theorem runReported_append [DecidableEq D] (launchPhysical : RouteSnapshot D) (seedPhysicalIp : Option String)
    (overlay : Overlay) (verified : Bool) (first : PeerReport) (reports : List PeerReport) (last : PeerReport)
    (later : List PeerReport) :
    runReported launchPhysical seedPhysicalIp overlay verified first (reports ++ last :: later) = (do
      enter
      andFinally (do
        serveUpTo launchPhysical seedPhysicalIp overlay verified first reports last
        afterUpdate
        watch launchPhysical seedPhysicalIp (protectReported seedPhysicalIp (reports.foldl
          (protectReported seedPhysicalIp) (firstProtector seedPhysicalIp first)) last) later) shutdown) := by
  rw [runReported, watch_append]
  simp only [serveUpTo, bind, andThen_assoc, raise_andThen]

/-! ## What the controller remembers throughout -/

section Active
variable {ok : RouteReply D → Prop}

/-- The route controller's part of the world is as in every reachable state. -/
def RoutesActive (w : ClientRole D) : Prop := ActiveJournal w.routes

theorem onRoutes_active {α : Type} {x : RouteM D α} (hx : Keeps ok (fun _ => True) ActiveJournal x) :
    Keeps ok (fun _ => True) RoutesActive (onRoutes x) :=
  fun w h => Runs.zoom (hx w.routes h) (fun _ _ => trivial) (fun _ _ h' => h') (fun _ _ h' => h')

theorem consult_active : Keeps ok (fun _ => True) RoutesActive (consult : CoordinatorM D Bool) := by
  refine onRoutes_active (fun w h => Runs.bind (reply_aside (fun r w' _ hj hst => Runs.bind ?_)))
  exact Runs.outcome (fun _ => Runs.pure (h.of_same hj hst)) (fun _ _ => h.of_same hj hst)

theorem saveStatus_active (state : String) (thrown : Option Err → Option Err) :
    Keeps ok (fun _ => True) RoutesActive (saveStatus state thrown : CoordinatorM D Unit) := by
  intro w h
  have hreply : Keeps ok (fun _ => True) ActiveJournal (GatewayRouteController.reply : RouteM D _) :=
    fun w h => reply_aside (fun _ _ _ hj hst => h.of_same hj hst)
  refine Runs.seq (onRoutes_active hreply w h) (fun r w' h' => Runs.bind (Runs.effect trivial ?_))
  have hsaved : RoutesActive (if r.applied ∨ r.err.isNone then { w' with status := some state } else w') := by
    split
    · exact h'
    · exact h'
  exact Runs.outcome (fun _ => hsaved) (fun _ _ => hsaved)

theorem enter_active : Keeps ok (fun _ => True) RoutesActive (enter : CoordinatorM D Unit) := by
  intro w h
  refine Runs.bind (Runs.seq (consult_active w h) (fun bound w₁ h₁ => Runs.refuse (fun _ => ?_)
    (fun _ => h₁)))
  refine Runs.seq (saveStatus_active "Starting" id w₁ h₁) (fun _ w₂ h₂ => Runs.bind ?_)
  exact (consult_active w₂ h₂).mono (fun _ w₃ h₃ => Runs.refuse (fun _ => h₃) (fun _ => h₃)) (fun _ _ h' => h')

variable [DecidableEq D]

theorem beforeUpdate_active (launchPhysical : RouteSnapshot D) :
    Keeps ok (fun _ => True) RoutesActive (beforeUpdate launchPhysical) := by
  intro w h
  have hrolls : ∀ (e : Err) (w' : ClientRole D), RoutesActive w' → Runs ok (fun _ => True)
      (onRoutes GatewayRouteController.rollbackInternal >>= fun _ => throw e : CoordinatorM D Unit)
      (fun _ => RoutesActive) (fun _ => RoutesActive) w' := by
    intro e w' h'
    have hroll : Keeps ok (fun _ => True) ActiveJournal (GatewayRouteController.rollbackInternal : RouteM D Unit) :=
      fun w h => rollbackInternal_active h
    exact Runs.seq (onRoutes_active hroll w' h') (fun _ _ h => Runs.throw h)
  have hcapture : Keeps ok (fun _ => True) ActiveJournal (GatewayRouteController.captureRoutes : RouteM D _) :=
    fun w h => Runs.bind (reply_aside (fun r w' _ hj hst =>
      Runs.bind (Runs.outcome (fun _ => Runs.pure (h.of_same hj hst)) (fun _ _ => h.of_same hj hst))))
  refine Runs.seq (consult_active w h) (fun bound w₁ h₁ => Runs.bind (Runs.refuse (fun _ => Runs.bind ?_)
    (fun _ => h₁)))
  refine (onRoutes_active hcapture w₁ h₁).mono (fun physical w₂ h₂ => ?_) (fun _ _ h' => h')
  refine Runs.ite (fun _ => hrolls _ w₂ h₂) (fun _ => Runs.bind ?_)
  refine (consult_active w₂ h₂).mono (fun sameOverlay w₃ h₃ => ?_) (fun _ _ h' => h')
  refine Runs.ite (fun _ => hrolls _ w₃ h₃) (fun _ => Runs.bind ?_)
  exact (consult_active w₃ h₃).mono (fun _ w₄ h₄ => Runs.refuse (fun _ => h₄) (fun _ => h₄)) (fun _ _ h' => h')

theorem afterUpdate_active : Keeps ok (fun _ => True) RoutesActive (afterUpdate : CoordinatorM D Unit) := by
  intro w h
  have hreconcile : Keeps ok (fun _ => True) ActiveJournal (GatewayRouteController.reconcile : RouteM D Unit) :=
    routeSystem_active .reconcile
  refine Runs.seq (onRoutes_active hreconcile w h) (fun _ w₁ h₁ => Runs.bind (Runs.get (Runs.bind ?_)))
  refine Runs.refuse (fun _ => Runs.bind ?_) (fun _ => h₁)
  exact (consult_active w₁ h₁).mono (fun _ w₂ h₂ => Runs.refuse (fun _ => h₂) (fun _ => h₂)) (fun _ _ h' => h')

/-- The pass of `last` leaves an active gateway guarding what the protector then has. -/
theorem upTo_guards (launchPhysical : RouteSnapshot D) (seedPhysicalIp : Option String) (last : PeerReport) :
    ∀ (reports : List PeerReport) (p : UnderlayRouteProtector) (w : ClientRole D), RoutesActive w →
      Runs ok (fun _ => True) (upTo launchPhysical seedPhysicalIp last p reports)
        (fun _ w' => w'.routes.state = .gatewayActive → Guards (protectReported seedPhysicalIp
          (reports.foldl (protectReported seedPhysicalIp) p) last).current w'.routes) (fun _ _ => True) w
  | [], p, w, h => by
    refine Runs.bind ((beforeUpdate_active launchPhysical w h).mono (fun _ w₁ h₁ => ?_) (fun _ _ _ => trivial))
    exact Runs.zoom (updateProtection_guards h₁) (fun _ _ => trivial) (fun _ _ h' => h') (fun _ _ h' => h')
  | report :: reports, p, w, h => by
    have hupdate : ∀ endpoints, Keeps ok (fun _ => True) ActiveJournal
        (GatewayRouteController.updateProtection endpoints : RouteM D Unit) :=
      fun endpoints => routeSystem_active (.updateProtection endpoints)
    refine Runs.bind ((beforeUpdate_active launchPhysical w h).mono (fun _ w₁ h₁ => Runs.bind ?_) (fun _ _ _ => trivial))
    refine (onRoutes_active (hupdate _) w₁ h₁).mono (fun _ w₂ h₂ => Runs.bind ?_) (fun _ _ _ => trivial)
    refine (afterUpdate_active w₂ h₂).mono (fun _ w₃ h₃ => ?_) (fun _ _ _ => trivial)
    exact upTo_guards launchPhysical seedPhysicalIp last reports (protectReported seedPhysicalIp p report) w₃ h₃

end Active

/-! ## End to end -/

/-- The reports as the protector sees them. -/
def history (seedPhysicalIp : Option String) (reports : List PeerReport) : List (Sighting IPAddress Int) :=
  reports.map (sighting seedPhysicalIp)

theorem protector_eq_after (seedPhysicalIp : Option String) (first : PeerReport) (reports : List PeerReport)
    (last : PeerReport) :
    protectReported seedPhysicalIp (reports.foldl (protectReported seedPhysicalIp)
      (firstProtector seedPhysicalIp first)) last =
      UnderlayRouteProtector.after (fromSeconds 120) (history seedPhysicalIp (first :: reports ++ [last])) := by
  simp only [UnderlayRouteProtector.after, history, List.foldl_map, List.cons_append, List.foldl_cons,
    List.foldl_append, List.foldl_nil]
  rfl

/-- The last report of the address is less than 120 seconds old. -/
def Recent (seedPhysicalIp : Option String) (reports : List PeerReport) (now : Int) (ip : IPAddress) : Prop :=
  ∃ t, Recency.latest ip (history seedPhysicalIp reports) = some t ∧ now - t < fromSeconds 120

/-- With a clock that does not go back, the protector has the recent addresses. -/
theorem mem_current_iff_recent {seedPhysicalIp : Option String} {first : PeerReport} {reports : List PeerReport}
    {last : PeerReport} (hclock : (first :: reports ++ [last]).Pairwise (fun a b => a.now ≤ b.now)) (ip : IPAddress) :
    ip ∈ (UnderlayRouteProtector.after (fromSeconds 120)
      (history seedPhysicalIp (first :: reports ++ [last]))).current ↔
      Recent seedPhysicalIp (first :: reports ++ [last]) last.now ip := by
  have hmap : history seedPhysicalIp (first :: reports ++ [last]) =
      history seedPhysicalIp (first :: reports) ++ [sighting seedPhysicalIp last] := by
    rw [history, List.map_append, List.map_singleton]
    rfl
  have hclock' : (history seedPhysicalIp (first :: reports) ++ [sighting seedPhysicalIp last]).Pairwise
      (fun a b => a.now ≤ b.now) := by
    rw [← hmap, history, List.pairwise_map]
    exact hclock
  rw [Recent, hmap]
  exact UnderlayRouteProtector.mem_current_after hclock' ip

/-- From a reachable controller to the return of `UpdateProtectionAsync`. -/
theorem throughUpdate_guards [DecidableEq D] {launchPhysical : RouteSnapshot D} {seedPhysicalIp : Option String}
    {overlay : Overlay} {verified : Bool} {first : PeerReport} {reports : List PeerReport} {last : PeerReport}
    {w : ClientRole D} (h : RoutesActive w) :
    Runs (fun _ => True) (fun _ => True)
      (throughUpdate launchPhysical seedPhysicalIp overlay verified first reports last)
      (fun _ w' => w'.routes.state = .gatewayActive → Guards (UnderlayRouteProtector.after (fromSeconds 120)
        (history seedPhysicalIp (first :: reports ++ [last]))).current w'.routes) (fun _ _ => True) w := by
  have hactivate : Keeps (fun _ => True) (fun _ => True) ActiveJournal
      (GatewayRouteController.activate (firstContext seedPhysicalIp overlay verified first) : RouteM D Unit) :=
    routeSystem_active (.activate _)
  rw [← protector_eq_after]
  refine Runs.bind ((enter_active w h).mono (fun _ w₁ h₁ => Runs.bind ?_) (fun _ _ _ => trivial))
  refine (onRoutes_active hactivate w₁ h₁).mono (fun _ w₂ h₂ => Runs.bind ?_) (fun _ _ _ => trivial)
  refine (saveStatus_active "GatewayActive" id w₂ h₂).mono (fun _ w₃ h₃ => ?_) (fun _ _ _ => trivial)
  exact upTo_guards launchPhysical seedPhysicalIp last reports (firstProtector seedPhysicalIp first) w₃ h₃

/-- **Endpoint grace period, end to end.** A client coordinator on any reachable route
controller, whatever its peers report, whatever fails and whatever other programs edit,
as long as the clock does not go back. When `UpdateProtectionAsync` returns in the pass
of the report `last` with the gateway active, the owned /32 destinations are those of the
physical gateway and of every address whose last report, the one of the activation
included, is less than 120 seconds old; and of no other address. -/
theorem endpoint_grace_period [DecidableEq D] (w₀ : RouteWorld D) (hstart : w₀.state = .physicalOnly)
    (steps : List (Step (RouteReply D) RouteOp)) (status : Option String) (launchPhysical : RouteSnapshot D)
    (seedPhysicalIp : Option String) (overlay : Overlay) (verified : Bool) (first : PeerReport)
    (reports : List PeerReport) (last : PeerReport)
    (hclock : (first :: reports ++ [last]).Pairwise (fun a b => a.now ≤ b.now)) (script : Nat → RouteReply D)
    (hreturned : (throughUpdate launchPhysical seedPhysicalIp overlay verified first reports last script
      ⟨(routeSystem D).final w₀ steps, status⟩).result.isOk = true)
    (hactive : (throughUpdate launchPhysical seedPhysicalIp overlay verified first reports last script
      ⟨(routeSystem D).final w₀ steps, status⟩).world.routes.state = .gatewayActive) :
    ∃ j gateway,
      (throughUpdate launchPhysical seedPhysicalIp overlay verified first reports last script
        ⟨(routeSystem D).final w₀ steps, status⟩).world.routes.journal = some j ∧
      IPAddress.tryParse j.snapshot.physicalGateway = some gateway ∧
      (∀ destination, destination ∈ j.hostDestinations ↔
        ∃ ip, (ip = gateway ∨ Recent seedPhysicalIp (first :: reports ++ [last]) last.now ip) ∧
          destination = ip.text ++ "/32") ∧
      ∀ a b c d, (IPAddress.v4 a b c d).text ++ "/32" ∈ j.hostDestinations ↔
        .v4 a b c d = gateway ∨ Recent seedPhysicalIp (first :: reports ++ [last]) last.now (.v4 a b c d) := by
  have hroutes : RoutesActive (⟨(routeSystem D).final w₀ steps, status⟩ : ClientRole D) :=
    activeJournal_run steps w₀ hstart
  have hruns : Runs (fun _ => True) _ (throughUpdate launchPhysical seedPhysicalIp overlay verified first reports
    last) _ _ ⟨(routeSystem D).final w₀ steps, status⟩ := throughUpdate_guards hroutes
  obtain ⟨_, hend, _⟩ := hruns script (fun _ => trivial)
  obtain ⟨_, hguards⟩ := hend.returned hreturned
  obtain ⟨j, gateway, hj, hg, hall, hv4⟩ := (hguards hactive).destinations
  simp only [mem_current_iff_recent hclock] at hall hv4
  exact ⟨j, gateway, hj, hg, hall, hv4⟩

/-- At home one peer is reported at the activation and then no more; the seed is named by
the profile in every pass. -/
def firstReport : PeerReport := ⟨0, [[.v4 192 0 2 10]]⟩

def homeReports : List PeerReport := [⟨fromSeconds 119, []⟩]

def lastReport : PeerReport := ⟨fromSeconds 120, []⟩

/-- After 120 seconds the peer is no longer protected, and the seed still is. -/
theorem endpoint_grace_period_home :
    ∃ j, (throughUpdate goodReply.snapshot (some "203.0.113.2") ⟨20, "10.10.0.11"⟩ true firstReport homeReports
        lastReport goodScript ⟨homeWorld, none⟩).world.routes.journal = some j ∧
      "203.0.113.2/32" ∈ j.hostDestinations ∧
      ¬Recent (some "203.0.113.2") (firstReport :: homeReports ++ [lastReport]) lastReport.now (.v4 192 0 2 10) := by
  have hall := endpoint_grace_period homeWorld rfl [] none goodReply.snapshot (some "203.0.113.2")
    ⟨20, "10.10.0.11"⟩ true firstReport homeReports lastReport
    (by simp [firstReport, homeReports, lastReport, fromSeconds]) goodScript
  rw [show (routeSystem Bool).final homeWorld [] = homeWorld from rfl] at hall
  obtain ⟨j, _, hj, _, _, hv4⟩ := hall (by decide +kernel) (by decide +kernel)
  have hseed : Recency.latest (.v4 203 0 113 2)
      (history (some "203.0.113.2") (firstReport :: homeReports ++ [lastReport])) = some lastReport.now := by
    decide +kernel
  have hpeer : Recency.latest (.v4 192 0 2 10)
      (history (some "203.0.113.2") (firstReport :: homeReports ++ [lastReport])) = some 0 := by
    decide +kernel
  refine ⟨j, hj, ?_, ?_⟩
  · have hmem := (hv4 203 0 113 2).mpr (Or.inr ⟨_, hseed, by simp [fromSeconds]⟩)
    rw [show (IPAddress.v4 203 0 113 2).text ++ "/32" = "203.0.113.2/32" by decide] at hmem
    exact hmem
  · intro h
    obtain ⟨t, ht, hlt⟩ := h
    rw [hpeer] at ht
    cases ht
    simp [lastReport] at hlt

end ClientInternetCoordinator

end EasyTierHost
