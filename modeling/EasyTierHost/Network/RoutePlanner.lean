import EasyTierHost.Abstractions.Models

/- RoutePlanner.cs: which routes a client gateway transaction installs. The
   protection routes pin the underlay to the physical interface, the probe
   routes send two test targets through the overlay gateway, and the split
   default covers the whole address space with two /1 routes, leaving every
   original default route where it is. -/
namespace EasyTierHost

namespace RoutePlanner
variable {D : Type}

/-- `RoutePlanner.SameIdentity`. -/
def sameIdentity (a b : RouteEntry) : Bool :=
  a.destination == b.destination && a.nextHop == b.nextHop &&
    a.interfaceIndex == b.interfaceIndex && a.metric == b.metric

@[simp] theorem sameIdentity_iff {a b : RouteEntry} : sameIdentity a b = true ↔ a = b := by
  cases a; cases b
  simp [sameIdentity, and_assoc]

theorem not_sameIdentity (route : RouteEntry) :
    (fun x => !sameIdentity x route) = fun x => decide (x ≠ route) := by
  funext x
  rw [Bool.eq_iff_iff]
  simp [Bool.eq_false_iff]

/-- The routes of `l` that `l'` does not have. -/
theorem mem_filter_not_any {l l' : List RouteEntry} {r : RouteEntry} :
    r ∈ l.filter (fun route => !l'.any (fun current => sameIdentity current route)) ↔ r ∈ l ∧ r ∉ l' := by
  rw [List.mem_filter, Bool.not_eq_true', Bool.eq_false_iff, ne_eq, List.any_eq_true]
  simp only [sameIdentity_iff, exists_eq_right]

/-- The route that pins one address to the physical interface. -/
def protectOne (snapshot : RouteSnapshot D) (ip : IPAddress) : RouteEntry :=
  ⟨ip.text ++ "/32",
    if ip.text == snapshot.physicalGateway then "0.0.0.0" else snapshot.physicalGateway,
    snapshot.physicalInterfaceIndex, 1⟩

/-- The endpoints and the physical gateway, each once. -/
def protectedAddresses (snapshot : RouteSnapshot D) (endpoints : List IPAddress) :
    Except Err (List IPAddress) :=
  match IPAddress.tryParse snapshot.physicalGateway with
  | some gateway => .ok (endpoints ++ [gateway]).eraseDups
  | none => .error .format

/-- `RoutePlanner.Protect`: the first address that is not physical unicast is
refused. -/
def protect (snapshot : RouteSnapshot D) (endpoints : List IPAddress) :
    Except Err (List RouteEntry) := do
  let ips ← protectedAddresses snapshot endpoints
  ips.mapM (fun ip =>
    if isPhysicalUnicast ip then .ok (protectOne snapshot ip)
    else .error (.host "ETH003" "Invalid underlay endpoint"))

/-- `RoutePlanner.Probe`. -/
def probe (context : GatewayContext) : List RouteEntry :=
  [⟨"1.1.1.1/32", OverlayAddressPlan.gateway, context.overlayInterfaceIndex, 1⟩,
   ⟨"8.8.8.8/32", OverlayAddressPlan.gateway, context.overlayInterfaceIndex, 1⟩]

/-- `RoutePlanner.Default`: the split default. -/
def default (context : GatewayContext) : List RouteEntry :=
  [⟨"0.0.0.0/1", OverlayAddressPlan.gateway, context.overlayInterfaceIndex, 1⟩,
   ⟨"128.0.0.0/1", OverlayAddressPlan.gateway, context.overlayInterfaceIndex, 1⟩]

/-- `Destination.EndsWith("/32", Ordinal)`. -/
def isHostRoute (r : RouteEntry) : Bool := "/32".toList.isSuffixOf r.destination.toList

/-! ## What the planned routes are -/

/-- A checked map that succeeds is a map over checked elements. -/
theorem mapM_ok {α β ε : Type} {c : α → Bool} {f : α → β} {e : ε} :
    ∀ {l : List α} {bs : List β}, l.mapM (fun a => if c a then Except.ok (f a) else .error e) = .ok bs →
      bs = l.map f ∧ ∀ a ∈ l, c a = true
  | [], bs, h => by
    simp only [List.mapM_nil, pure, Except.pure, Except.ok.injEq] at h
    simp [← h]
  | a :: l, bs, h => by
    rw [List.mapM_cons] at h
    by_cases hc : c a = true
    · simp only [hc, if_true] at h
      cases hl : l.mapM (fun a => if c a then Except.ok (f a) else .error e) with
      | error e' => rw [hl] at h; simp [bind, Except.bind] at h
      | ok bs' =>
        rw [hl] at h
        simp only [bind, Except.bind, pure, Except.pure, Except.ok.injEq] at h
        obtain ⟨hmap, hall⟩ := mapM_ok hl
        refine ⟨by rw [← h, hmap, List.map_cons], ?_⟩
        intro x hx
        rcases List.mem_cons.mp hx with rfl | hx
        · exact hc
        · exact hall x hx
    · simp only [hc] at h
      simp [bind, Except.bind] at h

/-- A protection that is planned has passed the check for every endpoint and for the
physical gateway. -/
theorem protect_ok {snapshot : RouteSnapshot D} {endpoints : List IPAddress} {routes : List RouteEntry}
    (h : protect snapshot endpoints = .ok routes) :
    ∃ gateway, IPAddress.tryParse snapshot.physicalGateway = some gateway ∧
      routes = (endpoints ++ [gateway]).eraseDups.map (protectOne snapshot) ∧
      ∀ ip ∈ endpoints ++ [gateway], isPhysicalUnicast ip = true := by
  unfold protect protectedAddresses at h
  cases hg : IPAddress.tryParse snapshot.physicalGateway with
  | none =>
    rw [hg] at h
    simp [bind, Except.bind] at h
  | some gateway =>
    rw [hg] at h
    simp only [bind, Except.bind] at h
    obtain ⟨hmap, hall⟩ := mapM_ok h
    exact ⟨gateway, rfl, hmap, fun ip hip => hall ip (List.mem_eraseDups.mpr hip)⟩

/-- The protection routes are those of the endpoints and of the physical gateway. -/
theorem mem_protect {snapshot : RouteSnapshot D} {endpoints : List IPAddress} {routes : List RouteEntry}
    (h : protect snapshot endpoints = .ok routes) :
    ∃ gateway, IPAddress.tryParse snapshot.physicalGateway = some gateway ∧
      ∀ r, r ∈ routes ↔ ∃ ip, (ip ∈ endpoints ∨ ip = gateway) ∧ r = protectOne snapshot ip := by
  obtain ⟨gateway, hg, hmap, -⟩ := protect_ok h
  refine ⟨gateway, hg, fun r => ?_⟩
  rw [hmap, List.mem_map]
  simp only [List.mem_eraseDups, List.mem_append, List.mem_singleton, eq_comm]

/-- What is protected is a physical unicast address. -/
theorem isPhysicalUnicast_of_protect {snapshot : RouteSnapshot D} {endpoints : List IPAddress}
    {routes : List RouteEntry} (h : protect snapshot endpoints = .ok routes) {ip : IPAddress}
    (hip : ip ∈ endpoints ∨ IPAddress.tryParse snapshot.physicalGateway = some ip) : isPhysicalUnicast ip = true := by
  obtain ⟨gateway, hg, -, hall⟩ := protect_ok h
  refine hall ip ?_
  cases hip with
  | inl hip =>
    exact List.mem_append_left _ hip
  | inr hip =>
    rw [hg] at hip
    cases hip
    exact List.mem_append_right _ (List.mem_singleton_self ip)

theorem isHostRoute_protectOne (snapshot : RouteSnapshot D) (ip : IPAddress) :
    isHostRoute (protectOne snapshot ip) = true := by
  unfold isHostRoute protectOne
  rw [List.isSuffixOf_iff_suffix, String.toList_append]
  exact List.suffix_append _ _

theorem isHostRoute_default {context : GatewayContext} {d : RouteEntry} (h : d ∈ default context) :
    isHostRoute d = false := by
  simp only [default, List.mem_cons, List.not_mem_nil, or_false] at h
  rcases h with rfl | rfl
  · show "/32".toList.isSuffixOf "0.0.0.0/1".toList = false
    decide
  · show "/32".toList.isSuffixOf "128.0.0.0/1".toList = false
    decide

/-- No protection route is a default. -/
theorem not_mem_protect_default {snapshot : RouteSnapshot D} {endpoints : List IPAddress}
    {routes : List RouteEntry} {context : GatewayContext} (h : protect snapshot endpoints = .ok routes)
    {d : RouteEntry} (hd : d ∈ default context) : d ∉ routes := by
  intro hr
  obtain ⟨_, _, hmem⟩ := mem_protect h
  obtain ⟨ip, _, rfl⟩ := (hmem d).mp hr
  have hhost := isHostRoute_protectOne snapshot ip
  rw [isHostRoute_default hd] at hhost
  exact Bool.noConfusion hhost

/-- A probe route goes through the overlay interface, a protection route does not. -/
theorem not_mem_probe_protect {snapshot : RouteSnapshot D} {endpoints : List IPAddress}
    {routes : List RouteEntry} {context : GatewayContext} (h : protect snapshot endpoints = .ok routes)
    (hindex : snapshot.physicalInterfaceIndex ≠ context.overlayInterfaceIndex)
    {r : RouteEntry} (hr : r ∈ routes) : r ∉ probe context := by
  intro hprobe
  obtain ⟨_, _, hmem⟩ := mem_protect h
  obtain ⟨ip, _, rfl⟩ := (hmem r).mp hr
  simp only [probe, List.mem_cons, List.not_mem_nil, or_false] at hprobe
  cases hprobe with
  | inl he =>
    exact hindex (congrArg RouteEntry.interfaceIndex he)
  | inr he =>
    exact hindex (congrArg RouteEntry.interfaceIndex he)

/-- Without the probe routes, the protection routes and the defaults are left. -/
theorem filter_probe {routes : List RouteEntry} {context : GatewayContext}
    (h : ∀ r ∈ routes, r ∉ probe context) :
    (routes ++ probe context ++ default context).filter (· ∉ probe context) =
      routes ++ default context := by
  have hroutes : routes.filter (· ∉ probe context) = routes :=
    List.filter_eq_self.mpr (fun r hr => by simpa using h r hr)
  have hnone : (probe context).filter (· ∉ probe context) = [] :=
    List.filter_eq_nil_iff.mpr (fun r hr => by simpa using hr)
  have hsplit : ∀ d ∈ default context, d ∉ probe context := by
    simp [default, probe]
  have hdefault : (default context).filter (· ∉ probe context) = default context :=
    List.filter_eq_self.mpr (fun r hr => by simpa using hsplit r hr)
  rw [List.filter_append, List.filter_append, hroutes, hnone, hdefault, List.append_nil]

end RoutePlanner

end EasyTierHost
