import EasyTierHost.Abstractions.Models
import EasyTierHost.Effects.System

/- GatewayBootstrapper.cs: the gateway server's transaction over forwarding, NAT
   and the DNS forwarder. As in the route controller the environment answers
   every call, and a call may throw before, after or half-way through its change:
   forwarding then has any value, a NAT object that was half created counts as
   present. `CaptureAsync` reports the present forwarding state,
   `RestoreForwardingAsync` and `RemoveNatAsync` never undo what is not theirs and
   never move forwarding away from the captured state, and a platform undoes only
   what a snapshot of its own kind describes. Whether they have undone the change
   when they return is the reply's to say (`undone`). `SaveAtomicAsync`, the journal's round trip and `File.Delete` are as
   for the route journal.

   The DNS forwarder lives in the process and dies with it. -/
namespace EasyTierHost
open Effects Effects.Prog

/-- `GatewayAdapter`. -/
structure GatewayAdapter where
  index : Int
  name : String
  identity : String
  address : String
  deriving DecidableEq, Repr

/-- `GatewayPlatformSnapshot`: what undoing needs to know. `F` is the forwarding
configuration of the platform. -/
structure GatewayPlatformSnapshot (F : Type) where
  resourceName : String
  platform : String
  forwarding : F
  deriving DecidableEq, Repr

/-- `GatewayJournal`. -/
structure GatewayJournal (F : Type) where
  snapshot : GatewayPlatformSnapshot F
  forwardingMayHaveChanged : Bool
  natMayExist : Bool
  deriving DecidableEq, Repr

/-- `GatewayServerState`. -/
inductive GatewayServerState where
  | stopped | preparing | dnsStarting | ready | rollingBack | faulted
  deriving DecidableEq, Repr

/-- The platform (`nat` has the names of the NAT objects that exist), the DNS
forwarder, the journal file and the fields of the instance at hand. `rollbacks` is
a history variable: the number of errors each rollback collected. -/
structure GatewayWorld (F : Type) where
  forwarding : F
  nat : List String
  dns : Bool
  file : Option (GatewayJournal F)
  platform : String
  journal : Option (GatewayJournal F)
  state : GatewayServerState
  rollbacks : List Nat
  deriving DecidableEq

inductive GatewayEvent where
  | enableForwarding
  | restoreForwarding
  | createNat
  | removeNat
  | dnsStart
  | dnsStop
  | save
  | deleteFile
  deriving DecidableEq, Repr

/-- The environment's reply to one call; of a call that undoes a change, whether it did. -/
structure GatewayReply (F : Type) where
  applied : Bool
  undone : Bool
  err : Option Err
  resourceName : String
  forwarding : F
  healthy : Bool

abbrev GatewayM (F : Type) := Prog GatewayEvent (GatewayReply F) (GatewayWorld F) Err

namespace GatewayBootstrapper
variable {F : Type}

/-! ## The calls -/

/-- A call that changes the world as its reply says, and then throws or returns. -/
def call (event : GatewayEvent) (change : GatewayReply F → GatewayWorld F → GatewayWorld F) :
    GatewayM F Unit := do
  let r ← ask
  effect event (change r)
  outcome r.err

/-- A call that changes nothing. -/
def query {α : Type} (value : GatewayReply F → GatewayWorld F → α) : GatewayM F α := do
  let r ← ask
  outcome r.err
  return value r (← get)

/-- `gate.WaitAsync`. -/
def waitGate : GatewayM F Unit := query (fun _ _ => ())

/-- `platform.CaptureAsync`. -/
def capture : GatewayM F (GatewayPlatformSnapshot F) :=
  query (fun r w => ⟨r.resourceName, w.platform, w.forwarding⟩)

/-- `platform.VerifyAsync` and `dns.CheckAsync`. -/
def verify : GatewayM F Bool := query (fun r _ => r.healthy)

/-- `platform.EnableForwardingAsync`. -/
def enableForwarding : GatewayM F Unit :=
  call .enableForwarding (fun r w => { w with forwarding := r.forwarding })

/-- `platform.RestoreForwardingAsync`. -/
def restoreForwarding [DecidableEq F] (snapshot : GatewayPlatformSnapshot F) : GatewayM F Unit :=
  call .restoreForwarding (fun r w =>
    if snapshot.platform = w.platform then
      { w with
        forwarding :=
          if r.undone ∨ w.forwarding = snapshot.forwarding then snapshot.forwarding else r.forwarding }
    else w)

/-- `platform.CreateNatAsync`. -/
def createNat (snapshot : GatewayPlatformSnapshot F) : GatewayM F Unit :=
  call .createNat (fun r w => if r.applied then { w with nat := snapshot.resourceName :: w.nat } else w)

/-- `platform.RemoveNatAsync`. -/
def removeNat (snapshot : GatewayPlatformSnapshot F) : GatewayM F Unit :=
  call .removeNat (fun r w =>
    if snapshot.platform = w.platform ∧ r.undone then
      { w with nat := w.nat.filter (· ≠ snapshot.resourceName) }
    else w)

/-- `dns.StartAsync`. -/
def startDns : GatewayM F Unit :=
  call .dnsStart (fun r w => { w with dns := r.applied || r.err.isNone })

/-- `dns.StopAsync`. -/
def stopDns : GatewayM F Unit :=
  call .dnsStop (fun r w => if r.applied ∨ r.err.isNone then { w with dns := false } else w)

/-- `SaveAsync`. -/
def save : GatewayM F Unit :=
  call .save (fun r w => if r.applied ∨ r.err.isNone then { w with file := w.journal <|> w.file } else w)

/-- Read the journal file back. -/
def readJournal : GatewayM F (GatewayJournal F) := do
  match (← query (fun _ w => w.file)) with
  | some j => return j
  | none => throw (.host "ETH302" "Invalid gateway journal")

/-- `if (File.Exists(journalPath)) File.Delete(journalPath)`. -/
def deleteJournal : GatewayM F Unit := do
  if (← get).file.isSome then effect .deleteFile (fun w => { w with file := none })

/-! ## The instance's memory -/

def setState (s : GatewayServerState) : GatewayM F Unit := modify (fun w => { w with state := s })

def setJournal (j : Option (GatewayJournal F)) : GatewayM F Unit := modify (fun w => { w with journal := j })

/-- `journal = journal with { ... }`. -/
def amend (f : GatewayJournal F → GatewayJournal F) : GatewayM F Unit :=
  modify (fun w => { w with journal := w.journal.map f })

/-- `journal!`. -/
def theJournal : GatewayM F (GatewayJournal F) := do
  match (← get).journal with
  | some j => return j
  | none => throw .nullReference

/-- `Step`: an exception that is neither the host's own nor a cancellation is
reported under the step's name. -/
def step {α : Type} (name : String) (action : GatewayM F α) : GatewayM F α :=
  tryCatch action (fun e => throw (match e with
    | .host code message => .host code message
    | .cancelled => .cancelled
    | _ => .host "ETH202" (name ++ " failed")))

/-! ## Rollback -/

/-- Remove NAT, then clear the flag in memory and on disk. -/
def undoNat : GatewayM F Unit := do
  let j ← theJournal
  removeNat j.snapshot
  amend (fun j => { j with natMayExist := false })
  save

/-- Restore forwarding, then clear the flag in memory and on disk. -/
def undoForwarding [DecidableEq F] : GatewayM F Unit := do
  let j ← theJournal
  restoreForwarding j.snapshot
  amend (fun j => { j with forwardingMayHaveChanged := false })
  save

/-- The cleanup steps for the platform. -/
def undoPlatform [DecidableEq F] (j : GatewayJournal F) : GatewayM F (List Err) := do
  let natErrors ← attemptIf j.natMayExist undoNat
  let j ← theJournal
  let forwardingErrors ← attemptIf j.forwardingMayHaveChanged undoForwarding
  return natErrors ++ forwardingErrors

/-- The cleanup steps of `RollbackInternalAsync` and what they threw. -/
def rollbackErrors [DecidableEq F] : GatewayM F (List Err) := do
  let dnsErrors ← attemptIf true stopDns
  match (← get).journal with
  | none => return dnsErrors
  | some j =>
    let platformErrors ← undoPlatform j
    return dnsErrors ++ platformErrors

/-- The end of `RollbackInternalAsync`. -/
def finishRollback (errors : List Err) : GatewayM F Unit := do
  modify (fun w => { w with rollbacks := w.rollbacks ++ [errors.length] })
  if errors.length > 0 then
    setState .faulted
    throw (.aggregate "ETH302: gateway rollback incomplete; journal retained" errors)
  else
    deleteJournal
    setJournal none
    setState .stopped

/-- `RollbackInternalAsync`. Unlike its counterpart in the route controller it goes
on without a journal in memory. -/
def rollbackInternal [DecidableEq F] : GatewayM F Unit := do
  setState .rollingBack
  let errors ← rollbackErrors
  finishRollback errors

/-! ## The operations -/

/-- `platform.VerifyAsync(..) && dns.CheckAsync(..)`. -/
def healthy : GatewayM F Bool := do
  let verified ← verify
  if verified then verify else return false

/-- `StartAsync` once the journal is on disk. -/
def prepare (snapshot : GatewayPlatformSnapshot F) : GatewayM F Unit := do
  amend (fun j => { j with forwardingMayHaveChanged := true })
  save
  step "forwarding" enableForwarding
  amend (fun j => { j with natMayExist := true })
  save
  step "WinNAT" (createNat snapshot)
  setState .dnsStarting
  step "gateway DNS" startDns
  let ok ← step "gateway verify" healthy
  refuse (!ok) (.host "ETH202" "Gateway NAT/forwarding/DNS health check failed")
  setState .ready

/-- The try block of `StartAsync`. -/
def startTry (physical : RouteSnapshot Unit) (overlay : GatewayAdapter) : GatewayM F Unit := do
  let w ← get
  if w.state = .ready then return
  else
    refuse (w.journal.isSome || w.file.isSome) (.host "ETH302" "Recover gateway journal before activation")
    refuse (overlay.address ≠ OverlayAddressPlan.gateway ∨ overlay.index ≤ 0 ∨
        overlay.index = physical.physicalInterfaceIndex)
      (.host "ETH201" "Gateway TUN must be ready on a separate interface")
    setState .preparing
    let snapshot ← step "gateway capture" capture
    setJournal (some ⟨snapshot, false, false⟩)
    save
    prepare snapshot

/-- The catch block of `StartAsync`, up to its rethrow. -/
def startCatch [DecidableEq F] : GatewayM F Unit := do
  if (← get).journal.isSome then rollbackInternal else setState .stopped

/-- `StartAsync`. -/
def start [DecidableEq F] (physical : RouteSnapshot Unit) (overlay : GatewayAdapter) : GatewayM F Unit := do
  waitGate
  tryCatch (startTry physical overlay) (fun e => do startCatch; throw e)

/-- `CheckAsync`. -/
def check : GatewayM F Bool := do
  waitGate
  let w ← get
  if w.state = .ready ∧ w.journal.isSome then healthy else return false

/-- `StopAsync`. -/
def stop [DecidableEq F] : GatewayM F Unit := do
  waitGate
  rollbackInternal

/-- `RecoverAsync`. -/
def recover [DecidableEq F] : GatewayM F Unit := do
  waitGate
  if (← get).file.isSome then
    let j ← readJournal
    setJournal (some j)
    refuse (j.snapshot.platform ≠ (← get).platform)
      (.host "ETH302" "Gateway journal belongs to another operating system")
    rollbackInternal

end GatewayBootstrapper

/-- The public operations, and the construction of another instance on the same
journal path. -/
inductive GatewayOp where
  | recover
  | start (physical : RouteSnapshot Unit) (overlay : GatewayAdapter)
  | check
  | stop
  | renew (platform : String)

/-- A new instance in the same process. -/
def GatewayWorld.renew {F : Type} (platform : String) (w : GatewayWorld F) : GatewayWorld F :=
  { w with platform := platform, journal := none, state := .stopped }

/-- What a new process finds: the DNS forwarder is gone too. -/
def GatewayWorld.restart {F : Type} (w : GatewayWorld F) : GatewayWorld F :=
  { w with dns := false, journal := none, state := .stopped }

open GatewayBootstrapper in
/-- The bootstrapper as a system. -/
def gatewaySystem (F : Type) [DecidableEq F] :
    System GatewayEvent (GatewayReply F) (GatewayWorld F) Err GatewayOp where
  exec
    | .recover => recover
    | .start physical overlay => start physical overlay
    | .check => do
      let _ ← check
      pure ()
    | .stop => stop
    | .renew platform => modify (GatewayWorld.renew platform)
  restart := GatewayWorld.restart

end EasyTierHost
