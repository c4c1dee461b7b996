import EasyTierHost.Effects.System
import EasyTierHost.Network.RoutePlanner

/- GatewayRouteController.cs as programs over a world that holds the route
   table, the DNS configuration, the journal file and the controller's memory.

   The environment answers every call. A reply says whether the call threw and
   whether it took effect before that, and carries what the call returns; the
   edits other programs made to the route table before the call are in it too.
   So an `AddAsync` may fail before or after the route is in, a `DeleteAsync` may
   silently do nothing, a save may throw with the file replaced or not, and any
   call may be cancelled. What is fixed, because the interfaces promise it:
   `AddAsync(r)` adds `r` and removes nothing, `DeleteAsync(r)` removes routes
   with `r`'s identity only, `SaveAtomicAsync` replaces the file wholly or not at
   all and has replaced it when it returns, the journal reads back as it was
   written, and `File.Delete` succeeds.

   DNS goes through arbitrary intermediate states in `ApplyAsync`. `RestoreAsync`
   writes captured values only: it ends at the captured state when it returns,
   and where DNS is already as captured it never moves it.

   Every public operation holds the semaphore, so a run is a sequence of
   operations; waiting for it is the only step that can fail outside the try
   blocks. -/
namespace EasyTierHost
open Effects Effects.Prog

/-- `RouteJournal`. -/
structure RouteJournal (D : Type) where
  snapshot : RouteSnapshot D
  owned : List RouteEntry
  dnsMayHaveChanged : Bool
  deriving DecidableEq, Repr

/-- The table, DNS and the journal file, and the controller's two fields.
`rollbacks` is a history variable the controller never reads: for each rollback
that got through its cleanup steps, how many errors it collected. -/
structure RouteWorld (D : Type) where
  table : List RouteEntry
  dns : D
  file : Option (RouteJournal D)
  journal : Option (RouteJournal D)
  state : GatewayState
  rollbacks : List Nat
  deriving DecidableEq

/-- What another program does to the route table. -/
inductive Edit where
  | add (r : RouteEntry)
  | remove (r : RouteEntry)
  deriving DecidableEq, Repr

def Edit.apply (table : List RouteEntry) : Edit → List RouteEntry
  | add r => table ++ [r]
  | remove r => table.filter (· ≠ r)

/-- Whose effect a moment is, and which. -/
inductive RouteEvent where
  | foreign
  | add (r : RouteEntry)
  | delete (r : RouteEntry)
  | save
  | deleteFile
  | dnsApply
  | dnsRestore
  deriving DecidableEq, Repr

/-- The environment's reply to one call. -/
structure RouteReply (D : Type) where
  foreign : List Edit
  applied : Bool
  err : Option Err
  snapshot : RouteSnapshot D
  healthy : Bool
  dnsPath : List D

abbrev RouteM (D : Type) := Prog RouteEvent (RouteReply D) (RouteWorld D) Err

namespace GatewayRouteController
variable {D : Type}

/-! ## The calls -/

/-- Every call begins with what the other programs did meanwhile. -/
def reply : RouteM D (RouteReply D) := do
  let r ← ask
  effect .foreign (fun w => { w with table := r.foreign.foldl Edit.apply w.table })
  pure r

/-- `gate.WaitAsync`. -/
def waitGate : RouteM D Unit := do
  let r ← reply
  outcome r.err

/-- `api.ListAsync`. -/
def listRoutes : RouteM D (List RouteEntry) := do
  let r ← reply
  outcome r.err
  return (← get).table

/-- `api.AddAsync`. -/
def addRoute (route : RouteEntry) : RouteM D Unit := do
  let r ← reply
  effect (.add route) (fun w => if r.applied then { w with table := w.table ++ [route] } else w)
  outcome r.err

/-- `api.DeleteAsync`. -/
def deleteRoute (route : RouteEntry) : RouteM D Unit := do
  let r ← reply
  effect (.delete route) (fun w =>
    if r.applied then
      { w with table := w.table.filter (fun x => !RoutePlanner.sameIdentity x route) }
    else w)
  outcome r.err

/-- `api.CaptureAsync`. -/
def captureRoutes : RouteM D (RouteSnapshot D) := do
  let r ← reply
  outcome r.err
  return r.snapshot

/-- `dns.CaptureAsync`: the snapshot with the present DNS state in it. -/
def captureDns (snapshot : RouteSnapshot D) : RouteM D (RouteSnapshot D) := do
  let r ← reply
  outcome r.err
  return { snapshot with dnsState := some (← get).dns }

/-- `dns.ApplyAsync`. -/
def applyDns : RouteM D Unit := do
  let r ← reply
  each (fun d => effect .dnsApply (fun w => { w with dns := d })) r.dnsPath
  outcome r.err

/-- `dns.RestoreAsync`. -/
def restoreDns [DecidableEq D] (snapshot : RouteSnapshot D) : RouteM D Unit := do
  let r ← reply
  match snapshot.dnsState with
  | none => throw (.host "ETH302" "Missing resolved DNS snapshot")
  | some captured =>
    each (fun d => effect .dnsRestore (fun w =>
      { w with dns := if w.dns = captured then captured else d })) r.dnsPath
    outcome r.err
    effect .dnsRestore (fun w => { w with dns := captured })

/-- `probe.CheckAsync`. -/
def checkProbe : RouteM D Bool := do
  let r ← reply
  outcome r.err
  return r.healthy

/-- `SaveAsync`: write the journal in memory to the file. -/
def save : RouteM D Unit := do
  let r ← reply
  effect .save (fun w =>
    if r.applied || r.err.isNone then { w with file := w.journal <|> w.file } else w)
  outcome r.err

/-- Read the journal file back. -/
def readJournal : RouteM D (RouteJournal D) := do
  let r ← reply
  outcome r.err
  match (← get).file with
  | some j => return j
  | none => throw (.io "Invalid route journal")

/-- `File.Delete(journalPath)`. -/
def deleteJournal : RouteM D Unit := effect .deleteFile (fun w => { w with file := none })

/-! ## The controller's memory -/

def setState (s : GatewayState) : RouteM D Unit := modify (fun w => { w with state := s })

def setJournal (j : Option (RouteJournal D)) : RouteM D Unit := modify (fun w => { w with journal := j })

/-- `journal!`. -/
def theJournal : RouteM D (RouteJournal D) := do
  match (← get).journal with
  | some j => return j
  | none => throw .nullReference

/-! ## Owned routes -/

/-- `AddOwnedAsync`: refuse a destination that is already there, then journal,
then add. -/
def addOwned (route : RouteEntry) : RouteM D Unit := do
  let current ← listRoutes
  refuse (current.any (fun r => r.destination == route.destination))
    (.host "ETH301" ("Pre-existing route conflicts with " ++ route.destination))
  let j ← theJournal
  setJournal (some { j with owned := j.owned ++ [route] })
  save
  addRoute route

/-- Delete the route if it is listed. -/
def deleteListed (route : RouteEntry) : RouteM D Unit := do
  let current ← listRoutes
  if current.any (fun r => RoutePlanner.sameIdentity r route) then deleteRoute route

/-- Look again, and only when the route is gone strike its entry. -/
def strikeGone (route : RouteEntry) : RouteM D Unit := do
  let current ← listRoutes
  refuse (current.any (fun r => RoutePlanner.sameIdentity r route))
    (.io "Owned route remains after deletion; preserve recovery journal")
  let j ← theJournal
  setJournal (some { j with owned := j.owned.filter (fun r => !RoutePlanner.sameIdentity r route) })
  save

/-- `RemoveOwnedAsync`. -/
def removeOwned (route : RouteEntry) : RouteM D Unit := do
  let j ← theJournal
  if j.owned.any (fun r => RoutePlanner.sameIdentity r route) then
    deleteListed route
    strikeGone route

/-! ## Rollback -/

/-- Restore DNS, then clear the flag in memory and on disk. -/
def undoDns [DecidableEq D] : RouteM D Unit := do
  let j ← theJournal
  restoreDns j.snapshot
  setJournal (some { j with dnsMayHaveChanged := false })
  save

/-- Undo DNS if it may have changed, and add what that threw to the errors. -/
def undoChangedDns [DecidableEq D] (errors : List Err) : RouteM D (List Err) := do
  let j ← theJournal
  let dnsErrors ← attemptIf j.dnsMayHaveChanged undoDns
  return errors ++ dnsErrors

/-- The cleanup steps of `RollbackInternalAsync` and what they threw. -/
def rollbackErrors [DecidableEq D] (j : RouteJournal D) : RouteM D (List Err) := do
  let routeErrors ← collect removeOwned j.owned.reverse
  undoChangedDns (routeErrors.map Prod.snd)

/-- The end of `RollbackInternalAsync`: keep the journal if anything failed. -/
def finishRollback (errors : List Err) : RouteM D Unit := do
  modify (fun w => { w with rollbacks := w.rollbacks ++ [errors.length] })
  if errors.length > 0 then
    setState .faulted
    throw (.aggregate "ETH302: rollback incomplete; journal retained" errors)
  else
    deleteJournal
    setJournal none
    setState .physicalOnly

/-- `RollbackInternalAsync`. -/
def rollbackInternal [DecidableEq D] : RouteM D Unit := do
  match (← get).journal with
  | none => return
  | some j =>
    setState .rollingBack
    let errors ← rollbackErrors j
    finishRollback errors

/-! ## The operations -/

/-- The checks of `ActivateAsync` that look at the context alone. -/
def acceptContext (context : GatewayContext) : Except Err Unit :=
  match IPAddress.tryParse context.overlayIp with
  | none => .error .format
  | some ip =>
    if !OverlayAddressPlan.isClient ip then
      .error (.host "ETH102" "Client address outside DHCP pool")
    else if !context.underlayProtectionVerified then
      .error (.host "ETH301" "Complete underlay socket protection must be verified before gateway activation")
    else if context.overlayInterfaceIndex ≤ 0 ∨ context.endpoints.length = 0 then
      .error (.host "ETH301" "Missing overlay interface or underlay endpoints")
    else .ok ()

/-- Whether a probe target is also an endpoint. -/
def probeConflict (context : GatewayContext) : Bool :=
  context.endpoints.any (fun ip =>
    (RoutePlanner.probe context).any (fun r => r.destination == ip.text ++ "/32"))

/-- `ActivateAsync` once the journal is on disk: protect the underlay, probe,
switch DNS, commit the split default and drop the probe routes. -/
def install (context : GatewayContext) (snapshot : RouteSnapshot D) : RouteM D Unit := do
  let protection ← ofExcept (RoutePlanner.protect snapshot context.endpoints)
  each addOwned protection
  setState .underlayProtected
  refuse (probeConflict context) (.host "ETH301" "Probe target conflicts with underlay endpoint")
  each addOwned (RoutePlanner.probe context)
  setState .probing
  let healthy ← checkProbe
  refuse (!healthy) (.host "ETH203" "Gateway probe failed")
  let j ← theJournal
  setJournal (some { j with dnsMayHaveChanged := true })
  save
  applyDns
  each addOwned (RoutePlanner.default context)
  each removeOwned (RoutePlanner.probe context)
  setState .gatewayActive

/-- The try block of `ActivateAsync`. -/
def activateTry (context : GatewayContext) : RouteM D Unit := do
  let w ← get
  if w.state = .gatewayActive then return
  else
    refuse (w.journal.isSome || w.file.isSome)
      (.invalidOperation "Recover previous route transaction first")
    ofExcept (acceptContext context)
    setState .capturing
    let snapshot ← captureRoutes
    refuse (snapshot.physicalInterfaceIndex = context.overlayInterfaceIndex)
      (.host "ETH301" "Physical and overlay interfaces must differ")
    let snapshot ← captureDns snapshot
    setJournal (some ⟨snapshot, [], false⟩)
    save
    install context snapshot

/-- The catch block of `ActivateAsync`, up to its rethrow. -/
def activateCatch [DecidableEq D] : RouteM D Unit := do
  if (← get).journal.isSome then rollbackInternal else setState .physicalOnly

/-- `ActivateAsync`. -/
def activate [DecidableEq D] (context : GatewayContext) : RouteM D Unit := do
  waitGate
  tryCatch (activateTry context) (fun e => do activateCatch; throw e)

/-- The try block of `UpdateProtectionAsync`. -/
def updateTry (endpoints : List IPAddress) : RouteM D Unit := do
  let w ← get
  match w.journal with
  | none => return
  | some j =>
    if w.state ≠ .gatewayActive then return
    else
      let desired ← ofExcept (RoutePlanner.protect j.snapshot endpoints)
      refuse (desired.any (fun r => r.destination == "1.1.1.1/32" || r.destination == "8.8.8.8/32"))
        (.host "ETH301" "Underlay endpoint conflicts with Internet probe target")
      let ownedProtection := j.owned.filter RoutePlanner.isHostRoute
      each addOwned (desired.filter (fun route =>
        !ownedProtection.any (fun current => RoutePlanner.sameIdentity current route)))
      each removeOwned (ownedProtection.filter (fun route =>
        !desired.any (fun current => RoutePlanner.sameIdentity current route)))

/-- The catch block of `UpdateProtectionAsync`, up to its rethrow. -/
def updateCatch [DecidableEq D] : RouteM D Unit := do
  if (← get).journal.isSome then rollbackInternal

/-- `UpdateProtectionAsync`. -/
def updateProtection [DecidableEq D] (endpoints : List IPAddress) : RouteM D Unit := do
  waitGate
  tryCatch (updateTry endpoints) (fun e => do updateCatch; throw e)

/-- `RollbackAsync`. -/
def rollback [DecidableEq D] : RouteM D Unit := do
  waitGate
  rollbackInternal

/-- `RecoverAsync`. -/
def recover [DecidableEq D] : RouteM D Unit := do
  waitGate
  if (← get).file.isSome then
    let j ← readJournal
    setJournal (some j)
    rollbackInternal

/-- `ReconcileAsync`. -/
def reconcile [DecidableEq D] : RouteM D Unit := do
  waitGate
  let w ← get
  match w.journal with
  | none => return
  | some j =>
    if w.state ≠ .gatewayActive then return
    else
      let physical ← captureRoutes
      if physical.physicalInterfaceIndex ≠ j.snapshot.physicalInterfaceIndex ∨
          physical.physicalGateway ≠ j.snapshot.physicalGateway ∨
          physical.physicalIpv4 ≠ j.snapshot.physicalIpv4 then
        rollbackInternal
      else
        let actual ← listRoutes
        if j.owned.any (fun owned => !actual.any (fun r => RoutePlanner.sameIdentity r owned)) then
          rollbackInternal

end GatewayRouteController

/-- The controller's public operations. -/
inductive RouteOp where
  | recover
  | activate (context : GatewayContext)
  | updateProtection (endpoints : List IPAddress)
  | reconcile
  | rollback

/-- What a fresh controller on the same journal path finds. -/
def RouteWorld.restart {D : Type} (w : RouteWorld D) : RouteWorld D :=
  { w with journal := none, state := .physicalOnly }

open GatewayRouteController in
/-- The controller as a system: its operations, and a process restart. -/
def routeSystem (D : Type) [DecidableEq D] :
    System RouteEvent (RouteReply D) (RouteWorld D) Err RouteOp where
  exec
    | .recover => recover
    | .activate context => activate context
    | .updateProtection endpoints => updateProtection endpoints
    | .reconcile => reconcile
    | .rollback => rollback
  restart := RouteWorld.restart

/-! ## A machine at home

One default route, a client context with two endpoints, and replies that all
succeed. -/

def homeWorld : RouteWorld Bool :=
  ⟨[⟨"0.0.0.0/0", "192.168.1.1", 2, 50⟩], false, none, none, .physicalOnly, []⟩

def homeContext : GatewayContext :=
  ⟨20, "10.10.0.11", [.v4 192 0 2 10, .v4 203 0 113 2], true⟩

def goodReply : RouteReply Bool :=
  ⟨[], true, none, ⟨"Ethernet", 2, "192.168.1.9", "192.168.1.1", none⟩, true, [true]⟩

def goodScript : Nat → RouteReply Bool := fun _ => goodReply

end EasyTierHost
