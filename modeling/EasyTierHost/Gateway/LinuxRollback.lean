import EasyTierHost.Gateway.LinuxNatManager

/- `RollbackInternalAsync` of GatewayBootstrapper.cs over the platform of
   LinuxNatManager.cs, command by command. It clears `NatMayExist`, and in the end deletes
   the journal, on the word of `RemoveNatAsync`; so it is as honest as the removal is. That
   it is the rollback of the bootstrapper's model is shown in LinuxMimics. -/
namespace EasyTierHost
open Effects Effects.Prog LinuxNatManager

/-- The machine, the DNS forwarder, the journal file and the bootstrapper's fields. -/
structure LinuxGateway where
  platform : LinuxPlatform
  dns : Bool
  file : Option (GatewayJournal LinuxRecord)
  journal : Option (GatewayJournal LinuxRecord)
  state : GatewayServerState
  deriving DecidableEq

namespace LinuxGateway

/-- A call to the platform. -/
def onPlatform {α : Type} (x : LinuxM LinuxPlatform α) : LinuxM LinuxGateway α :=
  x.zoom LinuxGateway.platform (fun p w => { w with platform := p }) id

/-- A call that returns or throws; one that throws may have had its effect. -/
def call (event : LinuxEvent) (f : LinuxGateway → LinuxGateway) : LinuxM LinuxGateway Unit := do
  let r ← ask
  match r.outcome with
  | .exited _ => effect event f
  | .threw e =>
    effect event (fun w => if r.applied then f w else w)
    throw e

/-- `dns.StopAsync`. -/
def stopDns : LinuxM LinuxGateway Unit := call .dnsStop (fun w => { w with dns := false })

/-- `SaveAsync`. -/
def save : LinuxM LinuxGateway Unit := call .save (fun w => { w with file := w.journal <|> w.file })

/-- `journal!`. -/
def theJournal : LinuxM LinuxGateway (GatewayJournal LinuxRecord) := do
  match (← get).journal with
  | some j => return j
  | none => throw .nullReference

/-- `journal = journal with { ... }`. -/
def amend (f : GatewayJournal LinuxRecord → GatewayJournal LinuxRecord) : LinuxM LinuxGateway Unit :=
  modify (fun w => { w with journal := w.journal.map f })

def undoNat (nft : Nft) : LinuxM LinuxGateway Unit := do
  let j ← theJournal
  onPlatform (removeNat nft j.snapshot)
  amend (fun j => { j with natMayExist := false })
  save

def undoForwarding : LinuxM LinuxGateway Unit := do
  let j ← theJournal
  onPlatform (restoreForwarding j.snapshot)
  amend (fun j => { j with forwardingMayHaveChanged := false })
  save

/-- The rest of the rollback, after what the DNS forwarder and NAT threw. -/
def finish (errors : List Err) : LinuxM LinuxGateway Unit := do
  if errors.length > 0 then
    modify (fun w => { w with state := .faulted })
    throw (.aggregate "ETH302: gateway rollback incomplete; journal retained" errors)
  else
    if (← get).file.isSome then effect .deleteFile (fun w => { w with file := none })
    modify (fun w => { w with journal := none, state := .stopped })

def afterNat (errors : List Err) : LinuxM LinuxGateway Unit := do
  let j ← theJournal
  let forwardingErrors ← attemptIf j.forwardingMayHaveChanged undoForwarding
  finish (errors ++ forwardingErrors)

/-- `RollbackInternalAsync`. -/
def rollbackInternal (nft : Nft) : LinuxM LinuxGateway Unit := do
  modify (fun w => { w with state := .rollingBack })
  let dnsErrors ← attemptIf true stopDns
  match (← get).journal with
  | none => finish dnsErrors
  | some j =>
    let natErrors ← attemptIf j.natMayExist (undoNat nft)
    afterNat (dnsErrors ++ natErrors)

/-! ## What each part leaves -/

section
variable {w : LinuxGateway}

theorem call_runs {event : LinuxEvent} {f : LinuxGateway → LinuxGateway} {Q : Unit → LinuxGateway → Prop}
    {X : Err → LinuxGateway → Prop} (hQ : Q () (f w)) (hX : ∀ w', w' = w ∨ w' = f w → ∀ e, X e w') :
    Freely (call event f) Q X w := by
  refine Runs.bind (Runs.ask (fun r _ => ?_))
  cases r.outcome with
  | exited code => exact Runs.effect trivial hQ
  | threw e =>
    refine Runs.bind (Runs.effect trivial (Runs.throw ?_))
    cases r.applied with
    | true => exact hX _ (.inr rfl) e
    | false => exact hX _ (.inl rfl) e

theorem theJournal_runs {Q : GatewayJournal LinuxRecord → LinuxGateway → Prop}
    {X : Err → LinuxGateway → Prop} (hQ : ∀ j, w.journal = some j → Q j w)
    (hX : w.journal = none → X .nullReference w) : Freely theJournal Q X w := by
  refine Runs.bind (Runs.get ?_)
  cases hj : w.journal with
  | none => exact Runs.throw (hX hj)
  | some j => exact Runs.pure (hQ j hj)

/-- Restoring forwarding is not about NAT. -/
theorem restoreForwarding_nat (s : LinuxSnapshot) {p : LinuxPlatform} :
    Freely (restoreForwarding s) (fun _ p' => p'.nat = p.nat) (fun _ p' => p'.nat = p.nat) p := by
  have hchange : ∀ p', p' = p ∨ p' = { p with forwarding := false } → p'.nat = p.nat := by
    intro p' hcase
    rcases hcase with rfl | rfl
    · rfl
    · rfl
  refine Runs.ite (fun _ => ?_) (fun _ => Runs.pure rfl)
  refine Runs.bind (runAsync_runs ?_ (fun p' hp' => ⟨fun code hcode => ?_, fun _ => hchange p' hp'⟩))
  · refine Runs.bind (Runs.refuse (fun _ => ?_) (fun _ => rfl))
    refine Runs.bind (queryAsync_runs (fun code => ?_) (fun _ => rfl))
    refine Runs.bind (Runs.refuse (fun _ => ?_) (fun _ => rfl))
    exact Runs.bind (Runs.get (Runs.refuse (fun _ => rfl) (fun _ => rfl)))
  · exact Runs.bind (Runs.refuse (fun h => absurd hcode h) (fun _ => hchange p' hp'))

/-- The journal says that NAT may exist, in memory and, unless it is as it was found, on
disk. -/
def Recorded (found : Option (GatewayJournal LinuxRecord)) (w : LinuxGateway) : Prop :=
  (∃ j, w.journal = some j ∧ j.natMayExist = true) ∧
    (w.file = found ∨ ∃ j, w.file = some j ∧ j.natMayExist = true)

/-- What outlasts the restoring of forwarding. -/
structure Lasts (J : LinuxGateway → Prop) : Prop where
  platform : ∀ w p, J w → p.nat = w.platform.nat → J { w with platform := p }
  amend : ∀ w, J w → J { w with journal := w.journal.map (fun j => { j with forwardingMayHaveChanged := false }) }
  save : ∀ w, J w → J { w with file := w.journal <|> w.file }
  state : ∀ w s, J w → J { w with state := s }

theorem lasts_nat (nat : LinuxNat) : Lasts (fun w => w.platform.nat = nat) where
  platform _ _ h hp := hp.trans h
  amend _ h := h
  save _ h := h
  state _ _ h := h

theorem lasts_recorded (found : Option (GatewayJournal LinuxRecord)) : Lasts (Recorded found) where
  platform _ _ h _ := h
  amend w h := by
    obtain ⟨⟨j, hj, hnat⟩, hfile⟩ := h
    refine ⟨⟨{ j with forwardingMayHaveChanged := false }, ?_, hnat⟩, hfile⟩
    simp only [hj, Option.map_some]
  save w h := by
    obtain ⟨⟨j, hj, hnat⟩, -⟩ := h
    refine ⟨⟨j, hj, hnat⟩, .inr ⟨j, ?_, hnat⟩⟩
    simp only [hj]
    rfl
  state _ _ h := h

variable {J : LinuxGateway → Prop}

theorem save_keeps (hJ : Lasts J) (hw : J w) : Freely save (fun _ => J) (fun _ => J) w := by
  refine call_runs (hJ.save w hw) (fun w' hw' _ => ?_)
  rcases hw' with rfl | rfl
  · exact hw
  · exact hJ.save w hw

theorem undoForwarding_keeps (hJ : Lasts J) (hw : J w) : Freely undoForwarding (fun _ => J) (fun _ => J) w := by
  refine Runs.bind (theJournal_runs (fun j _ => ?_) (fun _ => hw))
  refine Runs.bind (Runs.zoom (restoreForwarding_nat j.snapshot) (fun _ _ => trivial)
    (fun _ p hp => ?_) (fun _ p hp => hJ.platform w p hw hp))
  refine Runs.bind (Runs.modify ?_)
  exact save_keeps hJ (hJ.amend _ (hJ.platform w p hw hp))

/-- After a failure the rollback ends with what it had. -/
theorem afterNat_failed (hJ : Lasts J) (hw : J w) {errors : List Err} (he : errors ≠ []) :
    Freely (afterNat errors) (fun _ => J) (fun _ => J) w := by
  refine Runs.bind (theJournal_runs (fun j _ => ?_) (fun _ => hw))
  refine Runs.bind (Runs.attemptIf (fun _ => (undoForwarding_keeps hJ hw).mono (fun _ w hw => ?_)
    (fun e w hw => ?_)) (fun _ => ?_))
  all_goals
    refine Runs.ite (fun _ => Runs.bind (Runs.modify (Runs.throw (hJ.state _ _ hw)))) (fun h => ?_)
    have hpos : 0 < errors.length := List.length_pos_of_ne_nil he
    rw [List.length_append] at h
    omega

/-- However it ends, the rollback leaves NAT as the removal left it. -/
theorem afterNat_nat {nat : LinuxNat} (hw : w.platform.nat = nat) (errors : List Err) :
    Freely (afterNat errors) (fun _ w' => w'.platform.nat = nat) (fun _ w' => w'.platform.nat = nat) w := by
  have hfinish : ∀ (errors : List Err) (w : LinuxGateway), w.platform.nat = nat →
      Freely (finish errors) (fun _ w' => w'.platform.nat = nat) (fun _ w' => w'.platform.nat = nat) w := by
    intro errors w hw
    refine Runs.ite (fun _ => Runs.bind (Runs.modify (Runs.throw hw))) (fun _ => ?_)
    refine Runs.bind (Runs.get (Runs.ite (fun _ => ?_) (fun _ => Runs.modify hw)))
    exact Runs.bind (Runs.effect trivial (Runs.modify hw))
  refine Runs.bind (theJournal_runs (fun j _ => ?_) (fun _ => hw))
  exact Runs.bind (Runs.attemptIf (fun _ => (undoForwarding_keeps (lasts_nat nat) hw).mono
    (fun _ w hw => hfinish _ w hw) (fun e w hw => hfinish _ w hw)) (fun _ => hfinish _ w hw))

/-! ## The rollback as a whole -/

/-- A script with one more reply in front. -/
def prepend (r : LinuxReply) (script : Nat → LinuxReply) : Nat → LinuxReply
  | 0 => r
  | n + 1 => script n

/-- Stopping the DNS forwarder uses one reply and touches nothing else. -/
theorem stopDns_eq (stop : LinuxReply) (script : Nat → LinuxReply) :
    ∃ errors t dns, attemptIf true stopDns (prepend stop script) w
      = ⟨t, .ok errors, { w with dns := dns }, script⟩ := by
  obtain ⟨outcome, applied⟩ := stop
  cases outcome with
  | exited code => exact ⟨[], _, false, rfl⟩
  | threw e =>
    cases applied with
    | true => exact ⟨[e], _, false, rfl⟩
    | false => exact ⟨[e], _, w.dns, rfl⟩

theorem theJournal_eq {j : GatewayJournal LinuxRecord} (hj : w.journal = some j)
    (script : Nat → LinuxReply) : theJournal script w = ⟨[], .ok j, w, script⟩ := by
  change Ran.after [] ((match w.journal with
    | some j => (pure j : LinuxM LinuxGateway _)
    | none => throw Err.nullReference) script w) = _
  rw [hj]
  rfl

/-- What follows the removal, by its outcome. -/
theorem undoNat_andThen (nft : Nft) (rest : List Err → LinuxM LinuxGateway Unit) :
    attemptIf true (undoNat nft) >>= rest = theJournal.andThen (fun j =>
      (onPlatform (removeNat nft j.snapshot)).andThen
        (fun _ => (amend (fun j => { j with natMayExist := false }) >>= fun _ => save).andThen
          (fun _ => rest []) (fun e => rest [e]))
        (fun e => rest [e])) (fun e => rest [e]) := by
  change ((theJournal.andThen (fun j => (onPlatform (removeNat nft j.snapshot)).andThen
    (fun _ => amend (fun j => { j with natMayExist := false }) >>= fun _ => save) raise) raise).andThen
      (fun _ => ret []) (fun e => ret [e])).andThen rest raise = _
  simp only [andThen_assoc, ret_andThen, raise_andThen]

theorem undoNat_world (nft : Nft) {j : GatewayJournal LinuxRecord} (hj : w.journal = some j)
    (rest : List Err → LinuxM LinuxGateway Unit) (script : Nat → LinuxReply) :
    let removed := removeNat nft j.snapshot script w.platform
    ((attemptIf true (undoNat nft) >>= rest) script w).world
      = (match removed.result with
        | .ok _ => ((amend (fun j => { j with natMayExist := false }) >>= fun _ => save).andThen
            (fun _ => rest []) (fun e => rest [e]) removed.rest { w with platform := removed.world }).world
        | .error e => (rest [e] removed.rest { w with platform := removed.world }).world) := by
  intro removed
  rw [undoNat_andThen, andThen, theJournal_eq hj]
  have hzoom : onPlatform (removeNat nft j.snapshot) script w
      = ⟨removed.trace.map (fun m => ⟨m.event, { w with platform := m.before },
          { w with platform := m.after }⟩), removed.result, { w with platform := removed.world },
        removed.rest⟩ := rfl
  change ((onPlatform (removeNat nft j.snapshot)).andThen _ _ script w).world = _
  rw [andThen, hzoom]
  cases removed.result <;> rfl

theorem rollbackInternal_eq (nft : Nft) {j : GatewayJournal LinuxRecord} (hj : w.journal = some j)
    (hnat : j.natMayExist = true) (stop : LinuxReply) (script : Nat → LinuxReply) :
    ∃ errors dns, (rollbackInternal nft (prepend stop script) w).world
      = ((attemptIf true (undoNat nft) >>= fun natErrors => afterNat (errors ++ natErrors)) script
          { w with dns := dns, state := .rollingBack }).world := by
  obtain ⟨errors, t, dns, hstop⟩ := stopDns_eq (w := { w with state := .rollingBack }) stop script
  refine ⟨errors, dns, ?_⟩
  change (Ran.after [] (Prog.andThen (attemptIf true stopDns) _ raise (prepend stop script)
    { w with state := .rollingBack })).world = _
  rw [Prog.andThen, hstop]
  change (Ran.after [] (Ran.after t (Ran.after [] ((match w.journal with
    | none => finish errors
    | some j => attemptIf j.natMayExist (undoNat nft) >>= fun natErrors => afterNat (errors ++ natErrors))
      script { w with dns := dns, state := .rollingBack })))).world = _
  rw [hj]
  change ((attemptIf j.natMayExist (undoNat nft) >>= fun natErrors => afterNat (errors ++ natErrors))
      script { w with dns := dns, journal := some j, state := .rollingBack }).world = _
  rw [hnat]

/-- Where the removal is honest, a rollback either leaves the journal saying that NAT may
exist, or NAT is gone. -/
theorem rollbackInternal_honest (nft : Nft) {j : GatewayJournal LinuxRecord} (hj : w.journal = some j)
    (hnat : j.natMayExist = true) (stop : LinuxReply) (script : Nat → LinuxReply)
    (honest : (removeNat nft j.snapshot script w.platform).result.isOk = true →
      NatGone j.snapshot (removeNat nft j.snapshot script w.platform).world.nat) :
    Recorded w.file (rollbackInternal nft (prepend stop script) w).world ∨
      NatGone j.snapshot (rollbackInternal nft (prepend stop script) w).world.platform.nat := by
  obtain ⟨errors, dns, hrollback⟩ := rollbackInternal_eq nft hj hnat stop script
  have hworld := undoNat_world (w := { w with dns := dns, state := .rollingBack }) nft hj
    (fun natErrors => afterNat (errors ++ natErrors)) script
  rw [hrollback, hworld]
  cases hr : (removeNat nft j.snapshot script w.platform).result with
  | error e =>
    -- the flag stays up, and the error keeps the file
    left
    have hrecorded : Recorded w.file { w with
        dns := dns, state := .rollingBack,
        platform := (removeNat nft j.snapshot script w.platform).world } :=
      ⟨⟨j, hj, hnat⟩, .inl rfl⟩
    have hends := afterNat_failed (lasts_recorded w.file) hrecorded (by simp : errors ++ [e] ≠ [])
      (removeNat nft j.snapshot script w.platform).rest (fun _ => trivial)
    exact hends.2.1.always
  | ok u =>
    right
    have hgone := honest (by rw [hr]; rfl)
    have hkept : Freely ((amend (fun j => { j with natMayExist := false }) >>= fun _ => save).andThen
        (fun _ => afterNat (errors ++ [])) (fun e => afterNat (errors ++ [e])))
        (fun _ w' => w'.platform.nat = (removeNat nft j.snapshot script w.platform).world.nat)
        (fun _ w' => w'.platform.nat = (removeNat nft j.snapshot script w.platform).world.nat)
        { w with dns := dns, state := .rollingBack,
                 platform := (removeNat nft j.snapshot script w.platform).world } := by
      refine Runs.andThen (Runs.bind (Runs.modify ?_))
      refine (save_keeps (lasts_nat _) rfl).mono (fun _ w hw => ?_) (fun e w hw => ?_)
      · exact afterNat_nat hw _
      · exact afterNat_nat hw _
    have hends := hkept (removeNat nft j.snapshot script w.platform).rest (fun _ => trivial)
    rw [hends.2.1.always]
    exact hgone

end

/-- A removal returns only where what the snapshot owns is gone, a rollback on its word
keeps the journal unless NAT is gone, and no table without the owner's comment is removed:
exactly where the replies of iptables tell whether the rule is there. -/
theorem linux_nat_removal_honest_iff (nft : Nft) (hn : Faithful nft) (w : LinuxGateway)
    (j : GatewayJournal LinuxRecord) (hj : w.journal = some j) (hnat : j.natMayExist = true)
    (script : Nat → LinuxReply) :
    (((removeNat nft j.snapshot script w.platform).result.isOk = true →
        NatGone j.snapshot (removeNat nft j.snapshot script w.platform).world.nat) ∧
      (∀ stop, Recorded w.file (rollbackInternal nft (prepend stop script) w).world ∨
        NatGone j.snapshot (rollbackInternal nft (prepend stop script) w).world.platform.nat) ∧
      OnlyOwned j.snapshot w.platform.nat (removeNat nft j.snapshot script w.platform).world.nat) ↔
    Informed j.snapshot w.platform.nat (script 0) (script 1) := by
  have hhonest := removeNat_honest_iff (s := j.snapshot) (w := w.platform) hn script
  constructor
  · intro h
    exact hhonest.1 h.1
  · intro h
    have honest := hhonest.2 h
    exact ⟨honest, fun stop => rollbackInternal_honest nft hj hnat stop script honest,
      removeNat_onlyOwned hn script⟩

/-! ## A gateway with a rule of its own -/

/-- A table as nft prints it, without what nobody reads. -/
def tableElement (t : NftTable) : Json :=
  .object [("table", .object ([("family", .string t.family), ("name", .string t.name)] ++
    t.comment.toList.map (fun c => ("comment", .string c))))]

/-- nft, which prints its version and the tables. -/
def plainNft : Nft where
  listTables ts := .object [("nftables", .array (.object [("metainfo", .object [])] :: ts.map tableElement))]
  listTable t := .object [("nftables", .array [.object [("metainfo", .object [])], tableElement t])]

theorem tells_tableElement (t : NftTable) : Tells t (tableElement t) := by
  refine ⟨_, rfl, ?_, ?_, ?_⟩ <;> (cases t.comment <;> rfl)

theorem reports_tables (ts : List NftTable) :
    Reports (.object [("nftables", .array (.object [("metainfo", .object [])] :: ts.map tableElement))]) ts := by
  refine ⟨_, rfl, ?_, ?_⟩
  · intro e he
    rcases List.mem_cons.mp he with rfl | he
    · exact .inl rfl
    · obtain ⟨t, ht, rfl⟩ := List.mem_map.mp he
      exact .inr ⟨t, ht, tells_tableElement t⟩
  · intro t ht
    exact ⟨tableElement t, List.mem_cons_of_mem _ (List.mem_map_of_mem ht), tells_tableElement t⟩

theorem plainNft_faithful : Faithful plainNft where
  tables := reports_tables
  table t := reports_tables [t]

def ruleSnapshot : LinuxSnapshot := ⟨"ipt_5f", "linux", ⟨"5f", "eth0", true⟩⟩

def ruleJournal : GatewayJournal LinuxRecord := ⟨ruleSnapshot, false, true⟩

def ruleGateway : LinuxGateway where
  platform := ⟨⟨[ownedRule ruleSnapshot], [], List.nodup_nil⟩, true⟩
  dns := true
  file := some ruleJournal
  journal := some ruleJournal
  state := .ready

/-- Commands that succeed. -/
def smooth : Nat → LinuxReply := fun _ => ⟨.exited 0, true⟩

theorem ruleGateway_removed :
    (removeNat plainNft ruleSnapshot smooth ruleGateway.platform).result.isOk = true ∧
      NatGone ruleSnapshot (removeNat plainNft ruleSnapshot smooth ruleGateway.platform).world.nat := by
  have hok : (removeNat plainNft ruleSnapshot smooth ruleGateway.platform).result.isOk = true := by
    decide +kernel
  have hinformed : Informed ruleSnapshot ruleGateway.platform.nat (smooth 0) (smooth 1) := by
    intro _ _ _
    decide +kernel
  exact ⟨hok, ((linux_nat_removal_honest_iff plainNft plainNft_faithful ruleGateway ruleJournal rfl rfl
    smooth).2 hinformed).1 hok⟩

/-- iptables that cannot get its lock exits with 4, whatever it is asked. -/
def locked : Nat → LinuxReply := fun _ => ⟨.exited 4, false⟩

/-- The rule is there, the removal returns, and the rollback deletes the journal. -/
theorem linux_nat_removal_lock :
    (removeNat plainNft ruleSnapshot locked ruleGateway.platform).result.isOk = true ∧
      ¬ NatGone ruleSnapshot (removeNat plainNft ruleSnapshot locked ruleGateway.platform).world.nat ∧
      (rollbackInternal plainNft locked ruleGateway).world.file = none ∧
      ¬ NatGone ruleSnapshot (rollbackInternal plainNft locked ruleGateway).world.platform.nat := by
  refine ⟨by decide +kernel, ?_, by decide +kernel, ?_⟩
  · rw [NatGone, if_pos (by decide +kernel)]
    decide +kernel
  · rw [NatGone, if_pos (by decide +kernel)]
    decide +kernel

end LinuxGateway

end EasyTierHost
