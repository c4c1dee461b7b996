import EasyTierHost.Effects.Mimics
import EasyTierHost.Gateway.GatewaySafety
import EasyTierHost.Gateway.LinuxRollback

/- The rollback over LinuxNatManager.cs is the rollback of the bootstrapper's model: step
   by step the model, told what the platform's calls came to, does what it does, with the
   same errors, the same journal and the same file. Where the removal is honest the
   platform keeps the promise the model asks of it, so what is proved of the model's
   rollback holds on Linux. -/
namespace EasyTierHost
namespace LinuxGateway
open Effects Effects.Prog LinuxNatManager Gateway

/-! ## What the platform's calls leave -/

section
variable {nft : Nft} {s : LinuxSnapshot} {p : LinuxPlatform}

/-- A removal deletes the rule, or the table, or nothing. -/
def Reduced (s : LinuxSnapshot) (p p' : LinuxPlatform) : Prop :=
  p' = p ∨ p' = { p with nat := p.nat.deleteRule (ownedRule s) } ∨
    p' = { p with nat := p.nat.deleteTable s.resourceName }

theorem tableExists_looks : Freely (tableExists nft s) (fun _ p' => p' = p) (fun _ p' => p' = p) p := by
  refine Runs.bind (queryAsync_runs (fun code => ?_) (fun _ => rfl))
  refine Runs.bind (Runs.refuse (fun _ => ?_) (fun _ => rfl))
  exact Runs.bind (Runs.get (Runs.ofExcept (fun _ _ => rfl) (fun _ _ => rfl)))

theorem owned_looks : Freely (owned nft s) (fun _ p' => p' = p) (fun _ p' => p' = p) p := by
  refine Runs.bind (Runs.ofExcept (fun table _ => ?_) (fun _ _ => rfl))
  refine Runs.bind (queryAsync_runs (fun code => ?_) (fun _ => rfl))
  refine Runs.bind (Runs.refuse (fun _ => ?_) (fun _ => rfl))
  refine Runs.bind (Runs.get ?_)
  cases p.nat.tables.find? (fun t => t.family == "ip" && t.name == table) with
  | none => exact Runs.throw rfl
  | some t => exact Runs.ofExcept (fun _ _ => rfl) (fun _ _ => rfl)

theorem removeNat_reduces : Freely (removeNat nft s) (fun _ => Reduced s p) (fun _ => Reduced s p) p := by
  have hself : Reduced s p p := .inl rfl
  have hdone : ∀ {event : LinuxEvent} {change : LinuxPlatform → LinuxPlatform} {executable : String},
      Reduced s p (change p) → Freely (runAsync event change >>= exitZero executable) (fun _ => Reduced s p)
        (fun _ => Reduced s p) p := by
    intro event change executable hchange
    refine Runs.bind (runAsync_runs (Runs.refuse (fun _ => hchange) (fun _ => hchange)) (fun p' hp' => ?_))
    have hp' : Reduced s p p' := by
      rcases hp' with rfl | rfl
      · exact hself
      · exact hchange
    exact ⟨fun _ _ => Runs.refuse (fun _ => hp') (fun _ => hp'), fun _ => hp'⟩
  rw [removeNat]
  refine Runs.ite (fun _ => ?_) (fun _ => ?_)
  · refine Runs.bind (iptablesRuleExists_runs (fun there => ?_) (fun _ => hself))
    refine Runs.ite (fun _ => ?_) (fun _ => Runs.pure hself)
    refine Runs.bind (Runs.ofExcept (fun arguments harguments => ?_) (fun _ _ => hself))
    by_cases hn : Named s
    · rw [iptablesRuleArguments_named hn (.inr (.inr rfl)), Except.ok.injEq] at harguments
      subst harguments
      exact hdone (.inr (.inl rfl))
    · obtain ⟨e, he, -⟩ := iptablesRuleArguments_unnamed hn "-D"
      rw [he] at harguments
      cases harguments
  · refine Runs.bind (tableExists_looks.mono (fun there p' hp' => ?_) (fun _ p' hp' => .inl hp'))
    subst hp'
    refine Runs.ite (fun _ => ?_) (fun _ => Runs.pure hself)
    refine Runs.bind (owned_looks.mono (fun mine p' hp' => ?_) (fun _ p' hp' => .inl hp'))
    subst hp'
    refine Runs.bind (Runs.refuse (fun _ => ?_) (fun _ => hself))
    refine Runs.bind (Runs.ofExcept (fun table htable => ?_) (fun _ _ => hself))
    obtain rfl := name_ok htable
    exact hdone (.inr (.inr rfl))

/-- What is gone stays gone. -/
theorem Reduced.gone {p' : LinuxPlatform} (h : Reduced s p p') (hgone : NatGone s p.nat) : NatGone s p'.nat := by
  rw [NatGone] at hgone ⊢
  rcases h with rfl | rfl | rfl
  · exact hgone
  · split
    · next hs =>
      rw [if_pos hs] at hgone
      exact fun hmem => hgone (List.mem_of_mem_erase hmem)
    · next hs =>
      rw [if_neg hs] at hgone
      exact hgone
  · split
    · next hs =>
      rw [if_pos hs] at hgone
      exact hgone
    · next hs =>
      rw [if_neg hs] at hgone
      exact fun t ht => hgone t (List.mem_filter.mp ht).1

theorem Reduced.forwarding {p' : LinuxPlatform} (h : Reduced s p p') : p'.forwarding = p.forwarding := by
  rcases h with rfl | rfl | rfl <;> rfl

/-- Forwarding stays as it is or becomes what it was before; when the restoring returns
it has, or there was nothing to turn off. -/
theorem restoreForwarding_restores :
    Freely (restoreForwarding s)
      (fun _ p' => p'.nat = p.nat ∧ (p'.forwarding = p.forwarding ∧ s.forwarding.globalForwardingEnabled = true ∨
        p'.forwarding = s.forwarding.globalForwardingEnabled))
      (fun _ p' => p'.nat = p.nat ∧
        (p'.forwarding = p.forwarding ∨ p'.forwarding = s.forwarding.globalForwardingEnabled)) p := by
  refine Runs.ite (fun hoff => ?_) (fun hon => Runs.pure ⟨rfl, .inl ⟨rfl, by simpa using hon⟩⟩)
  have hoff : s.forwarding.globalForwardingEnabled = false := by simpa using hoff
  rw [hoff]
  refine Runs.bind (runAsync_runs ?_ (fun p' hp' => ?_))
  · refine Runs.bind (Runs.refuse (fun _ => ?_) (fun _ => ⟨rfl, .inr rfl⟩))
    refine Runs.bind (queryAsync_runs (fun code => ?_) (fun _ => ⟨rfl, .inr rfl⟩))
    refine Runs.bind (Runs.refuse (fun _ => ?_) (fun _ => ⟨rfl, .inr rfl⟩))
    exact Runs.bind (Runs.get (Runs.refuse (fun _ => ⟨rfl, .inr rfl⟩) (fun _ => ⟨rfl, .inr rfl⟩)))
  · have hp' : p'.nat = p.nat ∧ (p'.forwarding = p.forwarding ∨ p'.forwarding = false) := by
      rcases hp' with rfl | rfl
      · exact ⟨rfl, .inl rfl⟩
      · exact ⟨rfl, .inr rfl⟩
    exact ⟨fun code hcode => Runs.bind (Runs.refuse (fun h => absurd hcode h) (fun _ => hp')), fun _ => hp'⟩

end

/-! ## The model's world -/

/-- The model's world `a` of the machine `w`; of its NAT objects that of the snapshot `s` matters. -/
structure Pictures (s : LinuxSnapshot) (w : LinuxGateway) (a : GatewayWorld LinuxRecord) : Prop where
  forwarding : a.forwarding.globalForwardingEnabled = w.platform.forwarding
  nat : s.resourceName ∈ a.nat ↔ ¬NatGone s w.platform.nat
  dns : a.dns = w.dns
  file : a.file = w.file
  journal : a.journal = w.journal
  state : a.state = w.state
  own : ∀ j, w.journal = some j → j.snapshot = s
  platform : a.platform = s.platform
  -- what was on before is still on
  kept : s.forwarding.globalForwardingEnabled = true → w.platform.forwarding = true

/-- What a call threw. -/
def thrown : Except Err Unit → Option Err
  | .ok _ => none
  | .error e => some e

theorem thrown_none {r : Except Err Unit} (h : thrown r = none) : r.isOk = true := by
  cases r with
  | ok _ => rfl
  | error e => cases h

section
variable {nft : Nft} {s : LinuxSnapshot} {w : LinuxGateway} {script : Nat → LinuxReply}
  {ok : GatewayReply LinuxRecord → Prop} {P : Prop}

/-- A call of the model does what anything does that a reply can tell of. -/
theorem mimics_call {x : LinuxM LinuxGateway Unit} {event : GatewayEvent}
    {change : GatewayReply LinuxRecord → GatewayWorld LinuxRecord → GatewayWorld LinuxRecord}
    (h : ∀ a, Pictures s w a → ∃ r, ok r ∧ r.err = thrown (x script w).result ∧
      Pictures s (x script w).world (change r a)) :
    Mimics ok (Pictures s) x (GatewayBootstrapper.call event change) script w := by
  intro a ha
  obtain ⟨r, hr, herr, hpictures⟩ := h a ha
  refine ⟨[r], change r a, ?_, hpictures, fun rest => ?_⟩
  · intro r' hr'
    rw [List.mem_singleton.mp hr']
    exact hr
  · refine ⟨[⟨event, a, change r a⟩], ?_⟩
    show Ran.after [] (Ran.after [⟨event, a, change r a⟩] (outcome r.err rest (change r a))) = _
    rw [herr]
    cases (x script w).result <;> rfl

variable (hok : ∀ r : GatewayReply LinuxRecord, r.resourceName = s.resourceName →
  (P → r.err = none → r.undone = true) → ok r)
include hok

/-- Stopping DNS and saving: the model's reply says whether it was done. -/
theorem call_mimics {event : LinuxEvent} {event' : GatewayEvent} {f : LinuxGateway → LinuxGateway}
    {f' : GatewayWorld LinuxRecord → GatewayWorld LinuxRecord}
    (h : ∀ a, Pictures s w a → Pictures s (f w) (f' a)) :
    Mimics ok (Pictures s) (call event f)
      (GatewayBootstrapper.call event' (fun r a => if r.applied ∨ r.err.isNone then f' a else a)) script w := by
  refine mimics_call (fun a ha => ?_)
  have hruns : Freely (call event f) (fun _ w' => w' = f w) (fun _ w' => w' = w ∨ w' = f w) w :=
    call_runs rfl (fun _ hw _ => hw)
  have hends := (hruns script (fun _ => trivial)).2.1
  cases hr : (call event f script w).result with
  | ok u =>
    rw [hr] at hends
    refine ⟨⟨true, true, none, s.resourceName, s.forwarding, true⟩, hok _ rfl (fun _ _ => rfl), rfl, ?_⟩
    rw [show (call event f script w).world = f w from hends, if_pos (Or.inl rfl)]
    exact h a ha
  | error e =>
    rw [hr] at hends
    rcases (show _ ∨ _ from hends) with hw | hf
    · refine ⟨⟨false, true, some e, s.resourceName, s.forwarding, true⟩, hok _ rfl (fun _ _ => rfl), rfl, ?_⟩
      rw [hw, if_neg (by simp)]
      exact ha
    · refine ⟨⟨true, true, some e, s.resourceName, s.forwarding, true⟩, hok _ rfl (fun _ _ => rfl), rfl, ?_⟩
      rw [hf, if_pos (Or.inl rfl)]
      exact h a ha

theorem stopDns_mimics : Mimics ok (Pictures s) stopDns GatewayBootstrapper.stopDns script w :=
  call_mimics hok (fun _ ha => ⟨ha.forwarding, ha.nat, rfl, ha.file, ha.journal, ha.state, ha.own, ha.platform, ha.kept⟩)

theorem save_mimics : Mimics ok (Pictures s) save GatewayBootstrapper.save script w := by
  refine call_mimics hok (fun a ha => ?_)
  refine ⟨ha.forwarding, ha.nat, ha.dns, ?_, ha.journal, ha.state, ha.own, ha.platform, ha.kept⟩
  rw [ha.journal, ha.file]

/-- The model's removal, told whether what the snapshot owns is gone. -/
theorem removeNat_mimics (hP : P → (removeNat nft s script w.platform).result.isOk = true →
    NatGone s (removeNat nft s script w.platform).world.nat) :
    Mimics ok (Pictures s) (onPlatform (removeNat nft s)) (GatewayBootstrapper.removeNat s) script w := by
  refine mimics_call (fun a ha => ?_)
  have hreduces : Freely (removeNat nft s) (fun _ => Reduced s w.platform) (fun _ => Reduced s w.platform) w.platform :=
    removeNat_reduces
  have hreduced := (hreduces script (fun _ => trivial)).2.1.always
  by_cases hgone : NatGone s (removeNat nft s script w.platform).world.nat
  · refine ⟨⟨true, true, _, s.resourceName, s.forwarding, true⟩, hok _ rfl (fun _ _ => rfl), rfl, ?_⟩
    rw [if_pos ⟨ha.platform.symm, rfl⟩]
    refine ⟨ha.forwarding.trans hreduced.forwarding.symm, ?_, ha.dns, ha.file, ha.journal, ha.state, ha.own, ha.platform,
      fun hon => hreduced.forwarding.trans (ha.kept hon)⟩
    refine iff_of_false ?_ (not_not.mpr hgone)
    simp
  · refine ⟨⟨true, false, _, s.resourceName, s.forwarding, true⟩, hok _ rfl (fun p herr => ?_), rfl, ?_⟩
    · exact absurd (hP p (thrown_none herr)) hgone
    · rw [if_neg (fun h => Bool.noConfusion h.2)]
      refine ⟨ha.forwarding.trans hreduced.forwarding.symm, ?_, ha.dns, ha.file, ha.journal, ha.state, ha.own, ha.platform,
        fun hon => hreduced.forwarding.trans (ha.kept hon)⟩
      exact iff_of_true (ha.nat.mpr (fun h => hgone (hreduced.gone h))) hgone

/-- The model's restoring, told how forwarding is. -/
theorem restoreForwarding_mimics : Mimics ok (Pictures s) (onPlatform (restoreForwarding s))
    (GatewayBootstrapper.restoreForwarding s) script w := by
  refine mimics_call (fun a ha => ?_)
  have hends := (restoreForwarding_restores (s := s) (p := w.platform) script (fun _ => trivial)).2.1
  have hleft : ∀ p', p' = (restoreForwarding s script w.platform).world → p'.nat = w.platform.nat ∧
      (p'.forwarding = w.platform.forwarding ∨ p'.forwarding = s.forwarding.globalForwardingEnabled) := by
    rintro p' rfl
    exact (hends.mono (fun _ _ h => ⟨h.1, h.2.imp (fun h => h.1) (fun h => h)⟩) (fun _ _ h => h)).always
  have hreturned : (restoreForwarding s script w.platform).result.isOk = true →
      (restoreForwarding s script w.platform).world.forwarding = s.forwarding.globalForwardingEnabled := by
    intro hr
    obtain ⟨-, -, ⟨hsame, hon⟩ | hback⟩ := hends.returned hr
    · rw [hsame, hon]
      exact ha.kept hon
    · exact hback
  -- the world it leaves, told whether forwarding is as it was
  have hpictures : ∀ forwarding : LinuxRecord,
      forwarding.globalForwardingEnabled = (restoreForwarding s script w.platform).world.forwarding →
      Pictures s (onPlatform (restoreForwarding s) script w).world { a with forwarding := forwarding } := by
    intro forwarding hf
    obtain ⟨hnat, hfrom⟩ := hleft _ rfl
    refine ⟨hf, ?_, ha.dns, ha.file, ha.journal, ha.state, ha.own, ha.platform, fun hon => ?_⟩
    · show s.resourceName ∈ a.nat ↔ ¬NatGone s (restoreForwarding s script w.platform).world.nat
      rw [hnat]
      exact ha.nat
    · rcases hfrom with h | h
      · exact h.trans (ha.kept hon)
      · exact h.trans hon
  by_cases hback : (restoreForwarding s script w.platform).world.forwarding = s.forwarding.globalForwardingEnabled
  · refine ⟨⟨true, true, _, s.resourceName, s.forwarding, true⟩, hok _ rfl (fun _ _ => rfl), rfl, ?_⟩
    rw [if_pos ha.platform.symm, if_pos (Or.inl rfl)]
    exact hpictures _ hback.symm
  · refine ⟨⟨true, false, _, s.resourceName,
      ⟨s.forwarding.ownerToken, s.forwarding.physicalInterfaceName,
        (restoreForwarding s script w.platform).world.forwarding⟩, true⟩,
      hok _ rfl (fun _ herr => absurd (hreturned (thrown_none herr)) hback), rfl, ?_⟩
    have hmoved : a.forwarding ≠ s.forwarding := by
      intro heq
      rcases (hleft _ rfl).2 with h | h
      · exact hback (h.trans (ha.forwarding.symm.trans (by rw [heq])))
      · exact hback h
    rw [if_pos ha.platform.symm, if_neg (by simp [hmoved])]
    exact hpictures _ rfl

/-! ## The rollback, part by part -/

omit hok in
theorem journal_mimics {α : Type} {f : GatewayJournal LinuxRecord → LinuxM LinuxGateway α}
    {g : GatewayJournal LinuxRecord → GatewayM LinuxRecord α}
    (h : ∀ j, w.journal = some j → j.snapshot = s → Mimics ok (Pictures s) (f j) (g j) script w) :
    Mimics ok (Pictures s) (theJournal >>= f) (GatewayBootstrapper.theJournal >>= g) script w := by
  intro a ha
  have hread : Mimics ok (Pictures s) theJournal GatewayBootstrapper.theJournal script w := by
    refine Mimics.get (fun a ha => ?_)
    rw [ha.journal]
    cases w.journal with
    | none => exact Mimics.raise _
    | some j => exact Mimics.ret j
  cases hj : w.journal with
  | none =>
    have hruns : Freely theJournal (fun j _ => w.journal = some j) (fun _ _ => True) w :=
      theJournal_runs (fun _ h => h) (fun _ => trivial)
    refine Mimics.bind hread (fun j hread' => ?_) a ha
    have hends := (hruns script (fun _ => trivial)).2.1
    rw [hread'] at hends
    cases hj.symm.trans hends
  | some j =>
    refine Mimics.bind hread (fun j' hj' => ?_) a ha
    rw [theJournal_eq hj] at hj' ⊢
    cases hj'
    exact h j hj (ha.own j hj)

omit hok in
theorem amend_mimics {f : GatewayJournal LinuxRecord → GatewayJournal LinuxRecord}
    (hf : ∀ j, (f j).snapshot = j.snapshot) :
    Mimics ok (Pictures s) (amend f) (GatewayBootstrapper.amend f) script w := by
  refine Mimics.modify (fun a ha => ?_)
  refine ⟨ha.forwarding, ha.nat, ha.dns, ha.file, by rw [ha.journal], ha.state, ?_, ha.platform, ha.kept⟩
  intro j hj
  obtain ⟨i, hi, rfl⟩ := Option.map_eq_some_iff.mp hj
  rw [hf]
  exact ha.own i hi

theorem undoNat_mimics (hP : P → (removeNat nft s script w.platform).result.isOk = true →
    NatGone s (removeNat nft s script w.platform).world.nat) :
    Mimics ok (Pictures s) (undoNat nft) GatewayBootstrapper.undoNat script w := by
  refine journal_mimics (fun j _ hj => ?_)
  rw [hj]
  refine Mimics.bind (removeNat_mimics hok hP) (fun _ _ => ?_)
  exact Mimics.bind (amend_mimics (fun _ => rfl)) (fun _ _ => save_mimics hok)

theorem undoForwarding_mimics :
    Mimics ok (Pictures s) undoForwarding GatewayBootstrapper.undoForwarding script w := by
  refine journal_mimics (fun j _ hj => ?_)
  rw [hj]
  refine Mimics.bind (restoreForwarding_mimics hok) (fun _ _ => ?_)
  exact Mimics.bind (amend_mimics (fun _ => rfl)) (fun _ _ => save_mimics hok)

omit hok in
theorem finish_mimics (errors : List Err) :
    Mimics ok (Pictures s) (finish errors) (GatewayBootstrapper.finishRollback errors) script w := by
  have hstate : ∀ (state : GatewayServerState) (v : LinuxGateway) (a : GatewayWorld LinuxRecord), Pictures s v a →
      Pictures s { v with state := state } { a with state := state } := fun state v a ha =>
    ⟨ha.forwarding, ha.nat, ha.dns, ha.file, ha.journal, rfl, ha.own, ha.platform, ha.kept⟩
  have hforget : ∀ (v : LinuxGateway) (a : GatewayWorld LinuxRecord), Pictures s v a →
      Pictures s { v with journal := none, state := .stopped } { a with journal := none, state := .stopped } :=
    fun v a ha => ⟨ha.forwarding, ha.nat, ha.dns, ha.file, rfl, rfl, (fun _ h => by cases h), ha.platform, ha.kept⟩
  refine Mimics.aside (fun a ha => ?_) ?_
  · exact ⟨ha.forwarding, ha.nat, ha.dns, ha.file, ha.journal, ha.state, ha.own, ha.platform, ha.kept⟩
  · rw [finish]
    by_cases he : errors.length > 0
    · rw [if_pos he, if_pos he]
      exact Mimics.bind (Mimics.modify (hstate .faulted w)) (fun _ _ => Mimics.raise _)
    · rw [if_neg he, if_neg he, GatewayBootstrapper.deleteJournal, bind_bind]
      refine Mimics.get (fun a ha => ?_)
      rw [ha.file]
      cases w.file with
      | none => exact Mimics.modify (hforget w)
      | some j =>
        refine Mimics.bind (Mimics.effect (fun a ha => ?_)) (fun _ _ => Mimics.modify (hforget _))
        exact ⟨ha.forwarding, ha.nat, ha.dns, rfl, ha.journal, ha.state, ha.own, ha.platform, ha.kept⟩

/-- The rollback of the model does what the rollback over LinuxNatManager does. -/
theorem rollbackInternal_mimics {stop : LinuxReply}
    (hP : P → (removeNat nft s script w.platform).result.isOk = true →
      NatGone s (removeNat nft s script w.platform).world.nat) :
    Mimics ok (Pictures s) (rollbackInternal nft) GatewayBootstrapper.rollbackInternal (prepend stop script) w := by
  rw [rollbackInternal, GatewayBootstrapper.rollbackInternal, GatewayBootstrapper.rollbackErrors]
  refine Mimics.bind (Mimics.modify (fun a ha => ?_)) (fun _ _ => ?_)
  · exact ⟨ha.forwarding, ha.nat, ha.dns, ha.file, ha.journal, rfl, ha.own, ha.platform, ha.kept⟩
  · rw [bind_bind]
    refine Mimics.bind (Mimics.attemptIf (fun _ => stopDns_mimics hok)) (fun dnsErrors _ => ?_)
    obtain ⟨_, _, dns, hstop⟩ := stopDns_eq (w := { w with state := .rollingBack }) stop script
    have hleft : (attemptIf true stopDns (prepend stop script) { w with state := .rollingBack }).rest = script ∧
        (attemptIf true stopDns (prepend stop script) { w with state := .rollingBack }).world =
          { w with state := .rollingBack, dns := dns } := by
      rw [hstop]
      exact ⟨rfl, rfl⟩
    show Mimics ok (Pictures s) _ _ (attemptIf true stopDns (prepend stop script) { w with state := .rollingBack }).rest
      (attemptIf true stopDns (prepend stop script) { w with state := .rollingBack }).world
    rw [hleft.1, hleft.2, bind_bind]
    refine Mimics.get (fun a ha => ?_)
    rw [ha.journal]
    cases w.journal with
    | none =>
      show Mimics ok (Pictures s) _ ((Prog.ret dnsErrors).andThen GatewayBootstrapper.finishRollback Prog.raise) _ _
      rw [ret_andThen]
      exact finish_mimics dnsErrors
    | some j =>
      simp only [GatewayBootstrapper.undoPlatform, bind_bind]
      refine Mimics.bind (Mimics.attemptIf (fun _ => undoNat_mimics hok hP)) (fun natErrors _ => ?_)
      refine journal_mimics (fun j _ _ => ?_)
      refine Mimics.bind (Mimics.attemptIf (fun _ => undoForwarding_mimics hok)) (fun forwardingErrors _ => ?_)
      rw [List.append_assoc]
      exact finish_mimics _

end

/-! ## What is proved of the model, on Linux -/

/-- A machine whose journal is on disk and records what differs from before. -/
structure Journaled (j : GatewayJournal LinuxRecord) (w : LinuxGateway) : Prop where
  journal : w.journal = some j
  file : w.file = some j
  nat : ¬NatGone j.snapshot w.platform.nat → j.natMayExist = true
  forwarding : w.platform.forwarding ≠ j.snapshot.forwarding.globalForwardingEnabled → j.forwardingMayHaveChanged = true
  kept : j.snapshot.forwarding.globalForwardingEnabled = true → w.platform.forwarding = true

/-- Its world in the model, where only its own NAT object is known. -/
theorem Journaled.pictured {j : GatewayJournal LinuxRecord} {w : LinuxGateway} (h : Journaled j w) :
    ∃ a, Pictures j.snapshot w a ∧ GatewayInv j.snapshot.forwarding [] a ∧ Native a ∧ Sole a := by
  have hmain : ∀ nat : List String, (j.snapshot.resourceName ∈ nat ↔ ¬NatGone j.snapshot w.platform.nat) →
      (nat = [] ∨ nat = [j.snapshot.resourceName]) →
      ∃ a, Pictures j.snapshot w a ∧ GatewayInv j.snapshot.forwarding [] a ∧ Native a ∧ Sole a := by
    intro nat hnat hlist
    let now : LinuxRecord :=
      ⟨j.snapshot.forwarding.ownerToken, j.snapshot.forwarding.physicalInterfaceName, w.platform.forwarding⟩
    let a : GatewayWorld LinuxRecord :=
      ⟨now, nat, w.dns, some j, j.snapshot.platform, some j, w.state, []⟩
    have hown : ∀ i, a.journal = some i → i = j := fun i hi => (Option.some.inj hi).symm
    have hlive : a.live j.snapshot.forwarding [] ⊆ j.names := by
      intro x hx
      cases x with
      | forwarding =>
        refine h.forwarding (fun heq => hx ?_)
        show now = j.snapshot.forwarding
        rw [show now = ⟨j.snapshot.forwarding.ownerToken, j.snapshot.forwarding.physicalInterfaceName,
          w.platform.forwarding⟩ from rfl, heq]
      | nat =>
        refine h.nat (hnat.mp ?_)
        rcases hlist with rfl | rfl
        · exact absurd rfl hx
        · exact List.mem_singleton_self _
    have hsound : j.Sound j.snapshot.forwarding [] nat := ⟨rfl, List.not_mem_nil, hlist⟩
    refine ⟨a, ⟨rfl, hnat, rfl, h.file.symm, h.journal.symm, rfl, ?_, rfl, h.kept⟩, ⟨⟨hlive, ?_⟩, ?_, ?_, ?_⟩, ?_, ?_⟩
    · intro i hi
      rw [h.journal, Option.some.injEq] at hi
      rw [hi]
    · rintro names hnames
      rw [← Option.some.inj hnames]
      exact hlive
    · intro i hi
      rw [hown i hi]
      exact hsound
    · intro i hi
      rw [hown i hi]
      exact hsound
    · intro i _ hf
      cases hf
    · intro i hi
      rw [hown i hi]
    · intro hn
      cases hn
  by_cases hgone : NatGone j.snapshot w.platform.nat
  · exact hmain [] (iff_of_false List.not_mem_nil (not_not.mpr hgone)) (.inl rfl)
  · exact hmain _ (iff_of_true (List.mem_singleton_self _) hgone) (.inr rfl)

/-- Where iptables tells whether the rule is there, a rollback that returns has undone all
the journal records, and one that throws keeps the journal on disk. -/
theorem rollback_undone (nft : Nft) (hn : Faithful nft) {w : LinuxGateway} {j : GatewayJournal LinuxRecord}
    (h : Journaled j w) (stop : LinuxReply) (script : Nat → LinuxReply)
    (hinformed : Informed j.snapshot w.platform.nat (script 0) (script 1)) :
    let r := rollbackInternal nft (prepend stop script) w
    (r.result.isOk = true → NatGone j.snapshot r.world.platform.nat ∧
      r.world.platform.forwarding = j.snapshot.forwarding.globalForwardingEnabled ∧
      r.world.dns = false ∧ r.world.file = none ∧ r.world.journal = none ∧ r.world.state = .stopped) ∧
    (r.result.isOk = false → r.world.file.isSome = true ∧ r.world.state = .faulted) := by
  intro r
  obtain ⟨a, ha, hinv, hnative, hsole⟩ := h.pictured
  have hmimics : Mimics (Promised []) (Pictures j.snapshot) (rollbackInternal nft) GatewayBootstrapper.rollbackInternal
      (prepend stop script) w := by
    refine rollbackInternal_mimics (P := True) (fun r _ hr => ⟨List.not_mem_nil, hr trivial⟩) (fun _ => ?_)
    exact (removeNat_honest_iff hn script).2 hinformed
  obtain ⟨given, v, hgiven, hpictures, hrun⟩ := hmimics a ha
  have hrest : ∀ n : Nat, Promised [] ((fun _ => ⟨true, true, none, "", j.snapshot.forwarding, true⟩ :
      Nat → GatewayReply LinuxRecord) n) := fun _ => ⟨List.not_mem_nil, fun _ => rfl⟩
  obtain ⟨t, ht⟩ := hrun (fun _ => ⟨true, true, none, "", j.snapshot.forwarding, true⟩)
  have hends := (rollbackInternal_runs hinv hnative hsole _ (feed_all hgiven hrest)).2.1
  rw [ht] at hends
  constructor
  · intro hok
    obtain ⟨-, -, hstopped, -⟩ := hends.returned hok
    refine ⟨?_, ?_, ?_, ?_, ?_, ?_⟩
    · by_contra hgone
      have hmem := hpictures.nat.mpr hgone
      rw [hstopped.nat] at hmem
      cases hmem
    · exact hpictures.forwarding.symm.trans (congrArg LinuxRecord.globalForwardingEnabled hstopped.forwarding)
    · exact hpictures.dns.symm.trans hstopped.dns
    · exact hpictures.file.symm.trans hstopped.file
    · exact hpictures.journal.symm.trans hstopped.journal
    · exact hpictures.state.symm.trans hstopped.state
  · intro hthrew
    obtain ⟨-, hkept⟩ := hends.threw hthrew
    refine ⟨?_, hpictures.state.symm.trans hkept.state⟩
    rw [show r.world.file = v.file from hpictures.file.symm]
    exact hkept.file (by rw [ha.file, h.file]; rfl)

end LinuxGateway

end EasyTierHost
