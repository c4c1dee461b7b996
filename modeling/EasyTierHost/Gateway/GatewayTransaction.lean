import EasyTierHost.Gateway.GatewaySafety

/- The gateway transaction over whole runs: an instance that starts without a
   journal file, whatever it is then asked to do and whatever fails, and a crash
   followed by recoveries in a fresh process. -/
namespace EasyTierHost
namespace Gateway
open Effects Effects.Prog GatewayBootstrapper

variable {F : Type} [DecidableEq F]

/-! ## What every rollback attempts -/

/-- One rollback from the world `b`: no failing step keeps another one from being
attempted, and if one failed the journal stays. -/
structure Attempts (b : GatewayWorld F) (r : Ran GatewayEvent (GatewayReply F) (GatewayWorld F) Err Unit) :
    Prop where
  dns : ∃ m ∈ r.trace, m.event = .dnsStop
  nat : ∀ j, b.journal = some j → j.natMayExist = true → ∃ m ∈ r.trace, m.event = .removeNat
  forwarding : ∀ j, b.journal = some j → j.forwardingMayHaveChanged = true →
    ∃ m ∈ r.trace, m.event = .restoreForwarding
  failed : r.result.isOk = false → r.world.state = .faulted ∧
    (b.journal.isSome → r.world.journal.isSome) ∧ (b.file.isSome → r.world.file.isSome)

section Attempts
variable {b w : GatewayWorld F} {P : GatewayWorld F → Prop} {X : Err → GatewayWorld F → Prop}

/-- A property of the journals that survives saving. -/
structure Lasting (P : GatewayWorld F → Prop) : Prop where
  same : ∀ w w', w'.journal = w.journal → w'.file = w.file → P w → P w'
  saved : ∀ w : GatewayWorld F, P w → P { w with file := w.journal <|> w.file }

omit [DecidableEq F] in
theorem Lasting.save_freely (hP : Lasting P) (h : P w) : Freely save (fun _ => P) (fun _ => P) w := by
  have hsaved : ∀ r : GatewayReply F,
      P (if r.applied ∨ r.err.isNone then { w with file := w.journal <|> w.file } else w) := by
    intro r
    split
    · exact hP.saved w h
    · exact h
  exact call_runs (fun _ _ => trivial) (fun r _ _ => hsaved r) (fun r _ _ _ => hsaved r)

omit [DecidableEq F] in
theorem Lasting.stopDns_freely (hP : Lasting P) (h : P w) : Freely stopDns (fun _ => P) (fun _ => P) w := by
  have hstopped : ∀ r : GatewayReply F, P (if r.applied ∨ r.err.isNone then { w with dns := false } else w) := by
    intro r
    split
    · exact hP.same w _ rfl rfl h
    · exact h
  exact call_runs (fun _ _ => trivial) (fun r _ _ => hstopped r) (fun r _ _ _ => hstopped r)

omit [DecidableEq F] in
/-- The NAT step keeps a lasting property that clearing its flag keeps. -/
theorem Lasting.undoNat_freely (hP : Lasting P)
    (hamend : ∀ w : GatewayWorld F, P w →
      P { w with journal := w.journal.map (fun j => { j with natMayExist := false }) })
    (h : P w) : Freely undoNat (fun _ => P) (fun _ => P) w := by
  refine Runs.bind (Runs.bind (Runs.get ?_))
  cases hj : w.journal with
  | none => exact Runs.throw h
  | some j =>
    have hremoved : ∀ r : GatewayReply F, P (if j.snapshot.platform = w.platform ∧ r.undone then
        { w with nat := w.nat.filter (· ≠ j.snapshot.resourceName) } else w) := by
      intro r
      split
      · exact hP.same w _ rfl rfl h
      · exact h
    refine Runs.pure (Runs.bind (call_runs (fun _ _ => trivial) (fun r _ _ => ?_) (fun r _ _ _ => hremoved r)))
    exact Runs.bind (Runs.modify (hP.save_freely (hamend _ (hremoved r))))

/-- The forwarding step, likewise. -/
theorem Lasting.undoForwarding_freely (hP : Lasting P)
    (hamend : ∀ w : GatewayWorld F, P w →
      P { w with journal := w.journal.map (fun j => { j with forwardingMayHaveChanged := false }) })
    (h : P w) : Freely undoForwarding (fun _ => P) (fun _ => P) w := by
  refine Runs.bind (Runs.bind (Runs.get ?_))
  cases hj : w.journal with
  | none => exact Runs.throw h
  | some j =>
    have hrestored : ∀ r : GatewayReply F, P (if j.snapshot.platform = w.platform then
        { w with
          forwarding :=
            if r.undone ∨ w.forwarding = j.snapshot.forwarding then j.snapshot.forwarding else r.forwarding }
        else w) := by
      intro r
      split
      · exact hP.same w _ rfl rfl h
      · exact h
    refine Runs.pure (Runs.bind (call_runs (fun _ _ => trivial) (fun r _ _ => ?_) (fun r _ _ _ => hrestored r)))
    exact Runs.bind (Runs.modify (hP.save_freely (hamend _ (hrestored r))))

/-- The journals that stood in `b` still stand. -/
def Carried (b w : GatewayWorld F) : Prop :=
  (b.journal.isSome → w.journal.isSome) ∧ (b.file.isSome → w.file.isSome)

omit [DecidableEq F] in
theorem Carried.trans {b' : GatewayWorld F} (h : Carried b b') (h' : Carried b' w) : Carried b w :=
  ⟨fun hj => h'.1 (h.1 hj), fun hf => h'.2 (h.2 hf)⟩

omit [DecidableEq F] in
theorem carried_lasting : Lasting (Carried b) where
  same := fun w w' hj hf h => by
    rw [Carried, hj, hf]
    exact h
  saved := fun w h => by
    refine ⟨h.1, fun hf => ?_⟩
    have hold := h.2 hf
    cases w.journal with
    | none => exact hold
    | some j => rfl

theorem undoPlatform_carries {j : GatewayJournal F} (hj : w.journal = some j) :
    Freely (undoPlatform j) (fun _ => Carried w) X w := by
  have hmap : ∀ (f : GatewayJournal F → GatewayJournal F) (v : GatewayWorld F), Carried w v →
      Carried w { v with journal := v.journal.map f } :=
    fun f v h => ⟨fun hw => by simpa using h.1 hw, h.2⟩
  have hnat : Freely (attemptIf j.natMayExist undoNat) (fun _ => Carried w) X w :=
    Runs.attemptIf (fun _ => carried_lasting.undoNat_freely (hmap _) ⟨id, id⟩) (fun _ => ⟨id, id⟩)
  refine Runs.seq hnat (fun es w₁ h₁ => ?_)
  obtain ⟨j₁, hj₁⟩ := Option.isSome_iff_exists.mp (h₁.1 (by simp [hj]))
  refine Runs.bind (theJournal_runs hj₁ (Runs.bind (Runs.attemptIf (fun _ => ?_) (fun _ => Runs.pure h₁))))
  exact (carried_lasting.undoForwarding_freely (hmap _) h₁).mono (fun _ _ h₂ => Runs.pure h₂)
    (fun _ _ h₂ => Runs.pure h₂)

theorem rollbackErrors_carries : Freely rollbackErrors (fun _ => Carried w) X w := by
  have hdns : Freely (attemptIf true stopDns) (fun _ => Carried w) X w :=
    Runs.attemptIf (fun _ => carried_lasting.stopDns_freely ⟨id, id⟩) (fun _ => ⟨id, id⟩)
  refine Runs.seq hdns (fun es w₁ h₁ => Runs.bind (Runs.get ?_))
  cases hj : w₁.journal with
  | none => exact Runs.pure h₁
  | some j =>
    exact Runs.seq (undoPlatform_carries hj) (fun _ _ h₂ => Runs.pure (h₁.trans h₂))

omit [DecidableEq F] in
theorem call_visits {event : GatewayEvent} {change : GatewayReply F → GatewayWorld F → GatewayWorld F} :
    Visits (fun _ => True) (fun m => m.event = event ∧ m.before = w) (call event change) w :=
  Visits.bind_second (I := fun _ => True) (Runs.ask (fun _ _ => Visits.bind_first (Visits.effect ⟨rfl, rfl⟩)))

/-- The platform operation `event` is called with `snapshot`, which the bootstrapper
takes from the journal in memory. -/
def CalledWith (event : GatewayEvent) (snapshot : GatewayPlatformSnapshot F)
    (m : Moment GatewayEvent (GatewayWorld F)) : Prop :=
  m.event = event ∧ m.before.journal.map GatewayJournal.snapshot = some snapshot

omit [DecidableEq F] in
/-- A step that undoes what the journal names makes its call first. -/
theorem theJournal_visits {j : GatewayJournal F} {event : GatewayEvent}
    {change : GatewayJournal F → GatewayReply F → GatewayWorld F → GatewayWorld F}
    {rest : GatewayJournal F → Unit → GatewayM F Unit} (hj : w.journal = some j) :
    Visits (fun _ => True) (CalledWith event j.snapshot)
      (theJournal >>= fun j => call event (change j) >>= rest j) w := by
  refine Visits.bind_second (I := fun _ => True) (theJournal_runs hj (Visits.bind_first ?_))
  refine call_visits.mono (fun m hm => ⟨hm.1, ?_⟩)
  rw [hm.2, hj]
  rfl

theorem rollbackErrors_visits {j : GatewayJournal F} {p : Moment GatewayEvent (GatewayWorld F) → Prop}
    (hj : w.journal = some j)
    (h : ∀ w', w'.journal = some j → Visits (fun _ => True) p (undoPlatform j) w') :
    Visits (fun _ => True) p rollbackErrors w := by
  have hlast : Lasting (fun v : GatewayWorld F => v.journal = some j) :=
    ⟨fun _ _ hs _ hv => hs.trans hv, fun _ hv => hv⟩
  have hdns : Freely (attemptIf true stopDns) (fun _ v => v.journal = some j) (fun _ _ => False) w :=
    Runs.attemptIf (fun _ => hlast.stopDns_freely hj) (fun _ => hj)
  refine Visits.bind_second (hdns.mono (fun es w₁ h₁ => ?_) (fun _ _ hf => hf))
  refine Visits.bind_second (I := fun _ => True) (Runs.get ?_)
  simp only [h₁]
  exact Visits.bind_first (h w₁ h₁)

theorem undoPlatform_visits_nat {j : GatewayJournal F} (hj : w.journal = some j) (hn : j.natMayExist = true) :
    Visits (fun _ => True) (CalledWith .removeNat j.snapshot) (undoPlatform j) w :=
  Visits.bind_first (Visits.attemptIf hn (theJournal_visits hj))

/-- Restoring forwarding is attempted whether or not NAT could be removed. -/
theorem undoPlatform_visits_forwarding {j : GatewayJournal F} (hj : w.journal = some j)
    (hf : j.forwardingMayHaveChanged = true) :
    Visits (fun _ => True) (CalledWith .restoreForwarding j.snapshot) (undoPlatform j) w := by
  have hlast : Lasting (fun v : GatewayWorld F =>
      ∃ j', v.journal = some j' ∧ j'.forwardingMayHaveChanged = true ∧ j'.snapshot = j.snapshot) :=
    ⟨fun _ _ hs _ ⟨j', hv, hc⟩ => ⟨j', hs.trans hv, hc⟩, fun _ hv => hv⟩
  have hnat : Freely (attemptIf j.natMayExist undoNat)
      (fun _ v => ∃ j', v.journal = some j' ∧ j'.forwardingMayHaveChanged = true ∧ j'.snapshot = j.snapshot)
      (fun _ _ => False) w := by
    refine Runs.attemptIf (fun _ => hlast.undoNat_freely ?_ ⟨j, hj, hf, rfl⟩) (fun _ => ⟨j, hj, hf, rfl⟩)
    intro v h
    obtain ⟨j', hv, hc⟩ := h
    exact ⟨{ j' with natMayExist := false }, by rw [hv]; rfl, hc⟩
  refine Visits.bind_second (hnat.mono (fun es w₁ h₁ => ?_) (fun _ _ hf => hf))
  obtain ⟨j₁, hj₁, hc, hsnap⟩ := h₁
  refine Visits.bind_second (I := fun _ => True) (theJournal_runs hj₁ (Visits.bind_first ?_))
  rw [← hsnap]
  exact Visits.attemptIf hc (theJournal_visits hj₁)

theorem rollbackInternal_visits {p : Moment GatewayEvent (GatewayWorld F) → Prop}
    (h : Visits (fun _ => True) p rollbackErrors { b with state := .rollingBack }) :
    Visits (fun _ => True) p rollbackInternal b :=
  Visits.bind_second (I := fun _ => True) (Runs.modify (Visits.bind_first h))

theorem rollbackInternal_visits_nat {j : GatewayJournal F} (hj : b.journal = some j) (hn : j.natMayExist = true) :
    Visits (fun _ => True) (CalledWith .removeNat j.snapshot) rollbackInternal b :=
  rollbackInternal_visits (rollbackErrors_visits hj (fun _ hw => undoPlatform_visits_nat hw hn))

theorem rollbackInternal_visits_forwarding {j : GatewayJournal F} (hj : b.journal = some j)
    (hf : j.forwardingMayHaveChanged = true) :
    Visits (fun _ => True) (CalledWith .restoreForwarding j.snapshot) rollbackInternal b :=
  rollbackInternal_visits (rollbackErrors_visits hj (fun _ hw => undoPlatform_visits_forwarding hw hf))

theorem rollbackInternal_failed :
    Freely rollbackInternal (fun _ _ => True) (fun _ w => w.state = .faulted ∧ Carried b w) b := by
  have hsteps : Freely rollbackErrors (fun _ => Carried { b with state := .rollingBack })
      (fun _ w => w.state = .faulted ∧ Carried b w) { b with state := .rollingBack } := rollbackErrors_carries
  refine Runs.bind (Runs.modify (Runs.seq hsteps (fun es w h => ?_)))
  refine Runs.bind (Runs.modify (Runs.ite (fun _ => ?_) (fun _ => ?_)))
  · exact Runs.bind (Runs.modify (Runs.throw ⟨rfl, h⟩))
  · refine Runs.bind (Runs.bind (Runs.get (Runs.ite (fun _ => Runs.effect trivial ?_) (fun _ => Runs.pure ?_))))
    · exact Runs.bind (Runs.modify (Runs.modify trivial))
    · exact Runs.bind (Runs.modify (Runs.modify trivial))

/-- Whatever fails in a rollback, every step it owes is attempted. -/
theorem rollbackInternal_attempts (b : GatewayWorld F) (s : Nat → GatewayReply F) :
    Attempts b (rollbackInternal s b) where
  dns := (rollbackInternal_visits (Visits.bind_first (Visits.attemptIf rfl call_visits))).mono
    (fun _ h => h.1) s (fun _ => trivial)
  nat := fun _ hj hn => (rollbackInternal_visits_nat hj hn).mono (fun _ h => h.1) s (fun _ => trivial)
  forwarding := fun _ hj hf => (rollbackInternal_visits_forwarding hj hf).mono (fun _ h => h.1) s (fun _ => trivial)
  failed := fun hr => by
    obtain ⟨_, hend, _⟩ := rollbackInternal_failed (b := b) s (fun _ => trivial)
    exact (hend.threw hr).elim (fun _ h => h)

end Attempts

/-! ## Runs of one instance, and recovery after its crash -/

/-- What may be asked next: `StartAsync`, `CheckAsync` and `StopAsync` of the
instance, and after a crash `RecoverAsync` of a fresh one. -/
def Follows : Bool → GatewayOp → Prop
  | false, .start _ _ => True
  | false, .check => True
  | false, .stop => True
  | true, .recover => True
  | _, _ => False

/-- The runs of a transaction; the flag says whether there has been a crash. -/
inductive Transaction : Bool → List (Step (GatewayReply F) GatewayOp) → Prop where
  | nil : Transaction false []
  | call {crashed : Bool} {steps : List (Step (GatewayReply F) GatewayOp)} {op : GatewayOp}
      {script : Nat → GatewayReply F} :
      Transaction crashed steps → Follows crashed op → Transaction crashed (steps ++ [.call op script])
  | crash {crashed : Bool} {steps : List (Step (GatewayReply F) GatewayOp)} {op : GatewayOp}
      {script : Nat → GatewayReply F} {after : Nat} :
      Transaction crashed steps → Follows crashed op → Transaction true (steps ++ [.crash op script after])

/-- What holds between the operations of a transaction. -/
def Between (f₀ : F) (n₀ : List String) : Bool → GatewayWorld F → Prop
  | false, w => GatewayInv f₀ n₀ w ∧ Native w ∧ Sole w
  | true, w => GatewayInv f₀ n₀ w ∧ (w.file = none → w.journal = none ∧ w.dns = false ∧ w.state = .stopped)

section Runs
variable {f₀ : F} {n₀ : List String} {w w' : GatewayWorld F}

omit [DecidableEq F] in
theorem Between.inv {crashed : Bool} (h : Between f₀ n₀ crashed w) : GatewayInv f₀ n₀ w := by
  cases crashed with
  | false => exact h.1
  | true => exact h.1

omit [DecidableEq F] in
theorem RolledBack.between (h : RolledBack f₀ n₀ w w') (crashed : Bool) : Between f₀ n₀ crashed w' := by
  have hs := h.2.1
  cases crashed with
  | false => exact ⟨h.1, fun j hj => by simp [hs.journal] at hj, fun _ => hs.file⟩
  | true => exact ⟨h.1, fun _ => ⟨hs.journal, hs.dns, hs.state⟩⟩

omit [DecidableEq F] in
theorem between_restart (h : GatewayInv f₀ n₀ w) : Between f₀ n₀ true w.restart := by
  have hf := h.forget
  exact ⟨⟨hf.covered, hf.file, hf.journal, hf.anchored⟩, fun _ => ⟨rfl, rfl, rfl⟩⟩

/-- One operation of a transaction: what it leaves, and what became of a rollback
if it ran one. -/
theorem follows_runs {crashed : Bool} {op : GatewayOp} (h : Between f₀ n₀ crashed w) (hop : Follows crashed op) :
    Runs (Promised n₀) (GatewayMoment f₀ n₀) ((gatewaySystem F).exec op)
      (fun _ w' => Between f₀ n₀ crashed w' ∧ (w'.rollbacks = w.rollbacks ∨ RolledBack f₀ n₀ w w') ∧
        (op = .stop ∨ op = .recover → Stopped f₀ n₀ w'))
      (fun _ w' => Between f₀ n₀ crashed w' ∧
        (w'.rollbacks = w.rollbacks ∨ RolledBack f₀ n₀ w w' ∨
          (Kept f₀ n₀ w w' ∧ (op = .stop ∨ w'.journal.isSome)))) w := by
  cases crashed with
  | false =>
    obtain ⟨hinv, hnative, hsole⟩ := h
    have hbegun : ∀ w', Begun f₀ n₀ w w' → Between f₀ n₀ false w' := fun _ hb => ⟨hb.inv, hb.native, hb.sole hsole⟩
    have hkept : ∀ w', Kept f₀ n₀ w w' → Between f₀ n₀ false w' := fun _ hk => ⟨hk.inv, hk.native, hk.sole⟩
    cases op with
    | start physical overlay =>
      refine (start_runs hinv hnative).mono (fun _ w' hb => ?_) (fun _ w' hx => ?_)
      · exact ⟨hbegun w' hb, Or.inl hb.rollbacks, by simp⟩
      · rcases hx with hb | hr | hk
        · exact ⟨hbegun w' hb, Or.inl hb.rollbacks⟩
        · exact ⟨hr.between false, Or.inr (Or.inl hr)⟩
        · exact ⟨hkept w' hk.1, Or.inr (Or.inr ⟨hk.1, Or.inr hk.2⟩)⟩
    | check =>
      refine Runs.bind (check_runs.mono (fun _ w' he => Runs.pure ?_) (fun _ w' he => ?_))
      · subst he
        exact ⟨⟨hinv, hnative, hsole⟩, Or.inl rfl, by simp⟩
      · subst he
        exact ⟨⟨hinv, hnative, hsole⟩, Or.inl rfl⟩
    | stop =>
      refine (stop_runs hinv hnative hsole).mono (fun _ w' hr => ?_) (fun _ w' hx => ?_)
      · exact ⟨hr.between false, Or.inr hr, fun _ => hr.2.1⟩
      · rcases hx with rfl | hk
        · exact ⟨⟨hinv, hnative, hsole⟩, Or.inl rfl⟩
        · exact ⟨hkept w' hk, Or.inr (Or.inr ⟨hk, Or.inl rfl⟩)⟩
    | recover => exact hop.elim
    | renew platform => exact hop.elim
  | true =>
    obtain ⟨hinv, hsettled⟩ := h
    cases op with
    | recover =>
      refine (recover_runs hinv).mono (fun _ w' hr => ?_) (fun _ w' hx => ?_)
      · rcases hr with ⟨rfl, hf⟩ | hr
        · obtain ⟨hforwarding, hnat⟩ := hinv.restored hf
          obtain ⟨hjournal, hdns, hstate⟩ := hsettled hf
          exact ⟨⟨hinv, hsettled⟩, Or.inl rfl, fun _ => ⟨hforwarding, hnat, hdns, hf, hjournal, hstate⟩⟩
        · exact ⟨hr.between true, Or.inr hr, fun _ => hr.2.1⟩
      · rcases hx with rfl | ⟨hi, _, hf, hrb⟩ | ⟨hk, hj, hf⟩
        · exact ⟨⟨hinv, hsettled⟩, Or.inl rfl⟩
        · exact ⟨⟨hi, fun hn => by simp [hn] at hf⟩, Or.inl hrb⟩
        · exact ⟨⟨hk.inv, fun hn => by simp [hn] at hf⟩, Or.inr (Or.inr ⟨hk, Or.inr hj⟩)⟩
    | start physical overlay => exact hop.elim
    | check => exact hop.elim
    | stop => exact hop.elim
    | renew platform => exact hop.elim

/-- A transaction keeps the invariant throughout. -/
theorem transaction_keeps {crashed : Bool} {steps : List (Step (GatewayReply F) GatewayOp)}
    (hsteps : Transaction crashed steps) (hok : ∀ st ∈ steps, ∀ n, Promised n₀ (st.script n))
    (h : Between f₀ n₀ false w) :
    (∀ m ∈ (gatewaySystem F).trace w steps, GatewayMoment f₀ n₀ m) ∧
      Between f₀ n₀ crashed ((gatewaySystem F).final w steps) := by
  induction hsteps with
  | nil => exact ⟨fun _ hm => absurd hm List.not_mem_nil, h⟩
  | @call crashed steps op script hsteps hop ih =>
    obtain ⟨hmoments, hend⟩ := ih (fun st hst => hok st (List.mem_append_left _ hst))
    have hs : ∀ n, Promised n₀ (script n) := hok (.call op script) (by simp)
    obtain ⟨ht, hlast, _⟩ := follows_runs hend hop script hs
    rw [System.trace_append, System.final_append]
    refine ⟨?_, ?_⟩
    · intro m hm
      cases List.mem_append.mp hm with
      | inl hm =>
        exact hmoments m hm
      | inr hm =>
        simp only [System.trace, System.stepTrace, List.append_nil] at hm
        exact ht m hm
    · have hboth : Ends (fun _ => Between f₀ n₀ crashed) (fun _ => Between f₀ n₀ crashed)
          ((gatewaySystem F).exec op script ((gatewaySystem F).final w steps)).result _ :=
        hlast.mono (fun _ _ h' => h'.1) (fun _ _ h' => h'.1)
      exact hboth.always
  | @crash crashed steps op script after hsteps hop ih =>
    obtain ⟨hmoments, hend⟩ := ih (fun st hst => hok st (List.mem_append_left _ hst))
    have hs : ∀ n, Promised n₀ (script n) := hok (.crash op script after) (by simp)
    obtain ⟨ht, hlast⟩ := System.crash_leaves (P := Between f₀ n₀ true) (fun m hm => between_restart hm.1)
      (follows_runs hend hop) hs (between_restart hend.inv) after
    rw [System.trace_append, System.final_append]
    refine ⟨?_, hlast⟩
    intro m hm
    cases List.mem_append.mp hm with
    | inl hm =>
      exact hmoments m hm
    | inr hm =>
      simp only [System.trace, List.append_nil] at hm
      exact ht m hm

end Runs

/-- What differs from the world `w₀` is flagged in the journal on disk. -/
structure Recorded (w₀ w : GatewayWorld F) : Prop where
  forwarding : w.forwarding ≠ w₀.forwarding → ∃ j, w.file = some j ∧ j.forwardingMayHaveChanged = true
  nat : w.nat ≠ w₀.nat → ∃ j, w.file = some j ∧ j.natMayExist = true

omit [DecidableEq F] in
theorem recorded_of_inv {w₀ w : GatewayWorld F} (h : GatewayInv w₀.forwarding w₀.nat w) : Recorded w₀ w := by
  have hnamed : ∀ x ∈ w.live w₀.forwarding w₀.nat, ∃ j, w.file = some j ∧ x ∈ j.names := by
    intro x hx
    have hx' := h.covered.disk hx
    cases hf : w.file with
    | none =>
      simp only [GatewayWorld.log, hf, Option.map_none, Option.getD_none] at hx'
      exact hx'.elim
    | some j =>
      simp only [GatewayWorld.log, hf, Option.map_some, Option.getD_some] at hx'
      exact ⟨j, rfl, hx'⟩
  exact ⟨fun hf => hnamed .forwarding hf, fun hn => hnamed .nat hn⟩

omit [DecidableEq F] in
/-- A world without a journal keeps the invariant, as it stands. -/
theorem GatewayInv.of_no_journal {w : GatewayWorld F} (hf : w.file = none) (hj : w.journal = none) :
    GatewayInv w.forwarding w.nat w where
  covered := by
    refine ⟨?_, fun h hh => by simp [GatewayWorld.log, hj] at hh⟩
    intro x hx
    cases x with
    | forwarding => exact absurd rfl hx
    | nat => exact absurd rfl hx
  file := fun j h => by simp [hf] at h
  journal := fun j h => by simp [hj] at h
  anchored := fun j h => by simp [hj] at h

/-- The gateway transaction, for an instance without a journal and every run of
`StartAsync`, `CheckAsync` and `StopAsync` on it, with a crash at any point and
recoveries of a fresh instance after it. -/
theorem gateway_transaction (w₀ : GatewayWorld F) (hfile : w₀.file = none) (hjournal : w₀.journal = none)
    (crashed : Bool) (steps : List (Step (GatewayReply F) GatewayOp)) (hsteps : Transaction crashed steps)
    (hpromised : ∀ st ∈ steps, ∀ n, Promised w₀.nat (st.script n)) :
    -- every change is on record at every moment
    (∀ m ∈ (gatewaySystem F).trace w₀ steps, Recorded w₀ m.after) ∧
    Recorded w₀ ((gatewaySystem F).final w₀ steps) ∧
    -- and for the next operation
    (∀ op script, Follows crashed op → (∀ n, Promised w₀.nat (script n)) →
      let w := (gatewaySystem F).final w₀ steps
      let r := (gatewaySystem F).exec op script w
      (r.result.isOk = true → op = .stop ∨ op = .recover → Stopped w₀.forwarding w₀.nat r.world) ∧
      (r.world.rollbacks = w.rollbacks ++ [0] → Stopped w₀.forwarding w₀.nat r.world) ∧
      (∀ n, r.world.rollbacks = w.rollbacks ++ [n + 1] →
        r.result.isOk = false ∧ r.world.state = .faulted ∧ Carried w r.world ∧
        (op = .stop ∨ r.world.journal.isSome))) ∧
    -- no failing cleanup step keeps another from being attempted
    (∀ (b : GatewayWorld F) script, Attempts b (rollbackInternal script b)) := by
  have hstart : Between w₀.forwarding w₀.nat false w₀ :=
    ⟨GatewayInv.of_no_journal hfile hjournal, fun j h => by simp [hjournal] at h, fun _ => hfile⟩
  obtain ⟨hmoments, hend⟩ := transaction_keeps hsteps hpromised hstart
  refine ⟨fun m hm => recorded_of_inv (hmoments m hm).1, recorded_of_inv hend.inv, ?_, rollbackInternal_attempts⟩
  intro op script hop hscript w r
  have hlast := (follows_runs hend hop script hscript).2.1
  refine ⟨?_, ?_, ?_⟩
  · intro hr hstop
    obtain ⟨_, _, _, hstopped⟩ := hlast.returned hr
    exact hstopped hstop
  · intro hrb
    have hone : r.world.rollbacks ≠ w.rollbacks := by
      rw [hrb]
      simp
    cases hr : r.result.isOk with
    | true =>
      obtain ⟨_, _, hsame | hrolled, _⟩ := hlast.returned hr
      · exact absurd hsame hone
      · exact hrolled.2.1
    | false =>
      obtain ⟨_, _, hsame | hrolled | ⟨hkept, _⟩⟩ := hlast.threw hr
      · exact absurd hsame hone
      · exact hrolled.2.1
      · obtain ⟨n, hn⟩ := hkept.rollbacks
        have heq : w.rollbacks ++ [0] = w.rollbacks ++ [n + 1] := hrb.symm.trans hn
        simp at heq
  · intro n hrb
    have hone : r.world.rollbacks ≠ w.rollbacks := by
      rw [hrb]
      simp
    have hnot : ¬RolledBack w₀.forwarding w₀.nat w r.world := by
      intro hrolled
      have heq : w.rollbacks ++ [n + 1] = w.rollbacks ++ [0] := hrb.symm.trans hrolled.2.2
      simp at heq
    cases hr : r.result.isOk with
    | true =>
      obtain ⟨_, _, hsame | hrolled, _⟩ := hlast.returned hr
      · exact absurd hsame hone
      · exact absurd hrolled hnot
    | false =>
      obtain ⟨_, _, hsame | hrolled | ⟨hkept, hheld⟩⟩ := hlast.threw hr
      · exact absurd hsame hone
      · exact absurd hrolled hnot
      · exact ⟨rfl, hkept.state, ⟨hkept.held, hkept.file⟩, hheld⟩

/-- A Linux server with one NAT object of another program. -/
def serverWorld : GatewayWorld Bool := ⟨false, ["docker"], false, none, "linux", none, .stopped, []⟩

def serverPhysical : RouteSnapshot Unit := ⟨"eth0", 2, "192.0.2.2", "192.0.2.1", none⟩

def serverOverlay : GatewayAdapter := ⟨7, "easytierhost", "tun", "10.10.0.1"⟩

def serverStart : GatewayOp := .start serverPhysical serverOverlay

/-- Every call takes effect and returns. -/
def smoothScript : Nat → GatewayReply Bool := fun _ => ⟨true, true, none, "nft_1", true, true⟩

theorem smoothScript_promised : ∀ n, Promised serverWorld.nat (smoothScript n) := by
  intro n
  refine ⟨?_, fun _ => rfl⟩
  show ("nft_1" : String) ∉ ["docker"]
  decide

/-- The process dies right after the NAT object was created. -/
def crashedStart : Step (GatewayReply Bool) GatewayOp := .crash serverStart smoothScript 5

/-- Recovery in the next process undoes what the crash left. -/
theorem gateway_transaction_crash :
    ((gatewaySystem Bool).final serverWorld [crashedStart]).nat = ["nft_1", "docker"] ∧
    Stopped serverWorld.forwarding serverWorld.nat ((gatewaySystem Bool).exec .recover smoothScript
      ((gatewaySystem Bool).final serverWorld [crashedStart])).world := by
  have hrun : Transaction true [crashedStart] := Transaction.crash .nil trivial
  have hall := gateway_transaction serverWorld rfl rfl true [crashedStart] hrun (by
    intro st hst
    rw [List.mem_singleton.mp hst]
    exact smoothScript_promised)
  refine ⟨by decide +kernel, (hall.2.2.1 .recover smoothScript trivial smoothScript_promised).1 ?_ (Or.inr rfl)⟩
  decide +kernel

/-! ## Any sequence of instances -/

/-- Whatever instances there are and whatever fails: as long as none of them rolls
back without the journal that is on disk, or with one of another platform, the
journal file is deleted only once its changes are undone. -/
theorem gateway_journal_not_lost (w₀ : GatewayWorld F) (hfile : w₀.file = none) (hjournal : w₀.journal = none)
    (steps : List (Step (GatewayReply F) GatewayOp)) (hcareful : (gatewaySystem F).Careful Allowed w₀ steps)
    (hpromised : ∀ st ∈ steps, ∀ n, Promised w₀.nat (st.script n)) :
    ∀ m ∈ (gatewaySystem F).trace w₀ steps, m.event = .deleteFile → Undone m.before := by
  have hrestart : ∀ w, GatewayInv w₀.forwarding w₀.nat w → GatewayInv w₀.forwarding w₀.nat w.restart :=
    fun w h => (between_restart h).inv
  have hrun := System.keeps_careful (S := gatewaySystem F) (fun m hm => hrestart m.after hm.1) hrestart
    (fun op w h hop => gatewaySystem_runs op h hop) steps w₀ hcareful hpromised
    (GatewayInv.of_no_journal hfile hjournal)
  exact fun m hm => (hrun.1 m hm).2

/-- The process dies half-way through a start, the next one recovers, starts and
stops: a run the theorem is about. -/
theorem gateway_journal_not_lost_recovered :
    (gatewaySystem Bool).Careful Allowed serverWorld
      [crashedStart, .call .recover smoothScript, .call serverStart smoothScript, .call .stop smoothScript] ∧
    ∀ m ∈ (gatewaySystem Bool).trace serverWorld
      [crashedStart, .call .recover smoothScript, .call serverStart smoothScript, .call .stop smoothScript],
      m.event = .deleteFile → Undone m.before := by
  have hcareful : (gatewaySystem Bool).Careful Allowed serverWorld
      [crashedStart, .call .recover smoothScript, .call serverStart smoothScript, .call .stop smoothScript] := by
    refine ⟨?_, trivial, ?_, ⟨?_, ?_⟩, trivial⟩
    · show Native serverWorld
      decide +kernel
    · show Native ((gatewaySystem Bool).final serverWorld [crashedStart, .call .recover smoothScript])
      decide +kernel
    · show Native ((gatewaySystem Bool).final serverWorld
        [crashedStart, .call .recover smoothScript, .call serverStart smoothScript])
      decide +kernel
    · show Sole ((gatewaySystem Bool).final serverWorld
        [crashedStart, .call .recover smoothScript, .call serverStart smoothScript])
      decide +kernel
  refine ⟨hcareful, gateway_journal_not_lost serverWorld rfl rfl _ hcareful ?_⟩
  intro st hst
  simp only [List.mem_cons, List.not_mem_nil, or_false] at hst
  rcases hst with rfl | rfl | rfl | rfl <;> exact smoothScript_promised

/-- After the same crash the next process starts without recovering. `StartAsync`
refuses, and the `StopAsync` that follows it deletes the journal while the NAT
object is still there. -/
theorem gateway_journal_lost :
    ¬∀ (w₀ : GatewayWorld Bool) (steps : List (Step (GatewayReply Bool) GatewayOp)), w₀.file = none →
      w₀.journal = none → (∀ st ∈ steps, ∀ n, Promised w₀.nat (st.script n)) →
      ∀ m ∈ (gatewaySystem Bool).trace w₀ steps, m.event = .deleteFile → Undone m.before := by
  intro hall
  have h := hall serverWorld [crashedStart, .call serverStart smoothScript, .call .stop smoothScript] rfl rfl (by
    intro st hst
    simp only [List.mem_cons, List.not_mem_nil, or_false] at hst
    rcases hst with rfl | rfl | rfl <;> exact smoothScript_promised)
  exact absurd h (by decide +kernel)

end Gateway
end EasyTierHost
