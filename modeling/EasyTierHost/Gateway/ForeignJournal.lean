import EasyTierHost.Gateway.GatewayTransaction

/- What becomes of a journal file that another operating system wrote. `RecoverAsync`
   assigns the instance's journal before it compares the platforms, so after the
   refusal the instance holds the foreign journal, and every rollback it runs from
   then on, of `StopAsync` or of a refused `StartAsync`, is a rollback of it. -/
namespace EasyTierHost
namespace Gateway
open Effects Effects.Prog GatewayBootstrapper

variable {F : Type} [DecidableEq F]

/-- The operations that change the platform. -/
def mutating : List GatewayEvent := [.enableForwarding, .restoreForwarding, .createNat, .removeNat]

/-- At this moment the journal of another system is left alone. -/
def Alone (j : GatewayJournal F) (m : Moment GatewayEvent (GatewayWorld F)) : Prop :=
  (∀ event ∈ mutating, ¬CalledWith event j.snapshot m) ∧ m.after.file = some j

/-- A run leaves the journal of another system alone. -/
def LeftAlone (j : GatewayJournal F) (w : GatewayWorld F) (steps : List (Step (GatewayReply F) GatewayOp)) :
    Prop :=
  (∀ m ∈ (gatewaySystem F).trace w steps, Alone j m) ∧ ((gatewaySystem F).final w steps).file = some j

/-- A call of one of the four operations on the instance itself. -/
def OnInstance : Step (GatewayReply F) GatewayOp → Prop
  | .call (.renew _) _ => False
  | .call _ _ => True
  | .crash _ _ _ => False

/-- A rollback right after the gate has nothing to do and cannot finish: no flag of the
journal is up, and the DNS forwarder does not stop. -/
def Stuck (j : GatewayJournal F) (script : Nat → GatewayReply F) : Prop :=
  j.natMayExist = false ∧ j.forwardingMayHaveChanged = false ∧ (script 1).err.isSome

/-- The step does not come to a rollback that does anything: the gate is not entered,
the instance is already serving, or the rollback is stuck. -/
def Refrains (j : GatewayJournal F) (w : GatewayWorld F) : Step (GatewayReply F) GatewayOp → Prop
  | .call .stop script => (script 0).err.isSome ∨ Stuck j script
  | .call (.start _ _) script => (script 0).err.isSome ∨ w.state = .ready ∨ Stuck j script
  | _ => True

/-- Every step of the run refrains, in the world it is taken in. -/
def AllRefrain (j : GatewayJournal F) :
    GatewayWorld F → List (Step (GatewayReply F) GatewayOp) → Prop
  | _, [] => True
  | w, st :: rest => Refrains j w st ∧ AllRefrain j ((gatewaySystem F).stepWorld w st) rest

/-- The instance holds the journal that is on disk, and it is of another platform. -/
structure HoldsForeign (j : GatewayJournal F) (w : GatewayWorld F) : Prop where
  journal : w.journal = some j
  file : w.file = some j
  foreign : j.snapshot.platform ≠ w.platform

/-! ## Operations as equations -/

section Equations
variable {α : Type} {j : GatewayJournal F} {w : GatewayWorld F} {s : Nat → GatewayReply F}

omit [DecidableEq F] in
theorem waitGate_entered (x : GatewayM F α) (hs : (s 0).err = none) :
    (waitGate >>= fun _ => x) s w = x (fun n => s (n + 1)) w := by
  simp [waitGate, query, bind, andThen, ask, outcome, hs, Ran.after, pure, ret, get, getThe,
    MonadStateOf.get]

omit [DecidableEq F] in
theorem waitGate_refused (x : GatewayM F α) {e : Err} (hs : (s 0).err = some e) :
    (waitGate >>= fun _ => x) s w = ⟨[], .error e, w, fun n => s (n + 1)⟩ := by
  simp [waitGate, query, bind, andThen, ask, outcome, hs, Ran.after, raise]

/-- The world a call of `dns.StopAsync` leaves. -/
def stoppedDns (r : GatewayReply F) (w : GatewayWorld F) : GatewayWorld F :=
  if r.applied ∨ r.err.isNone then { w with dns := false } else w

omit [DecidableEq F] in
theorem stoppedDns_held (r : GatewayReply F) (w : GatewayWorld F) :
    (stoppedDns r w).journal = w.journal ∧ (stoppedDns r w).file = w.file ∧
      (stoppedDns r w).platform = w.platform := by
  rw [stoppedDns]
  split
  · exact ⟨rfl, rfl, rfl⟩
  · exact ⟨rfl, rfl, rfl⟩

omit [DecidableEq F] in
theorem attempt_stopDns (s : Nat → GatewayReply F) (w : GatewayWorld F) :
    attemptIf true stopDns s w =
      ⟨[⟨.dnsStop, w, stoppedDns (s 0) w⟩], .ok (s 0).err.toList, stoppedDns (s 0) w, fun n => s (n + 1)⟩ := by
  cases hs : (s 0).err with
  | none => simp [attemptIf, stopDns, call, bind, andThen, ask, effect, outcome, hs, Ran.after, ret, stoppedDns]
  | some e =>
    simp [attemptIf, stopDns, call, bind, andThen, ask, effect, outcome, hs, Ran.after, ret, raise, stoppedDns]

theorem undoPlatform_idle (hj : w.journal = some j) (hn : j.natMayExist = false)
    (hf : j.forwardingMayHaveChanged = false) : undoPlatform j s w = ⟨[], .ok [], w, s⟩ := by
  simp [undoPlatform, attemptIf, hn, bind, andThen, ret, Ran.after, theJournal, get, getThe, MonadStateOf.get, hj,
    pure, hf]

/-- With no flag up the cleanup steps come down to stopping the DNS forwarder. -/
theorem rollbackErrors_idle (hj : w.journal = some j) (hn : j.natMayExist = false)
    (hf : j.forwardingMayHaveChanged = false) : rollbackErrors s w = attemptIf true stopDns s w := by
  have hjournal : (stoppedDns (s 0) w).journal = some j := (stoppedDns_held (s 0) w).1.trans hj
  change Prog.andThen (attemptIf true stopDns) _ raise s w = _
  rw [Prog.andThen, attempt_stopDns]
  simp [bind, andThen, Ran.after, get, getThe, MonadStateOf.get, hjournal, undoPlatform_idle hjournal hn hf, pure,
    ret]

/-- A rollback with no flag up. -/
theorem rollbackInternal_idle (hj : w.journal = some j) (hn : j.natMayExist = false)
    (hf : j.forwardingMayHaveChanged = false) :
    let v : GatewayWorld F := { w with state := .rollingBack }
    rollbackInternal s w = (finishRollback (s 0).err.toList (fun n => s (n + 1)) (stoppedDns (s 0) v)).after
      [⟨.dnsStop, v, stoppedDns (s 0) v⟩] := by
  intro v
  change Ran.after [] (Prog.andThen rollbackErrors _ raise s v) = _
  rw [Prog.andThen, rollbackErrors_idle (w := v) hj hn hf, attempt_stopDns]
  rfl

theorem stop_entered (hs : (s 0).err = none) : stop s w = rollbackInternal (fun n => s (n + 1)) w :=
  waitGate_entered rollbackInternal hs

/-- `StartAsync` on an instance with a journal refuses, and its catch block rolls back. -/
theorem start_entered (physical : RouteSnapshot Unit) (overlay : GatewayAdapter) (hs : (s 0).err = none)
    (hj : w.journal = some j) (hready : w.state ≠ .ready) :
    (start physical overlay s w).trace = (rollbackInternal (fun n => s (n + 1)) w).trace ∧
      (start physical overlay s w).world = (rollbackInternal (fun n => s (n + 1)) w).world := by
  have htry : startTry physical overlay (fun n => s (n + 1)) w =
      ⟨[], .error (.host "ETH302" "Recover gateway journal before activation"), w, fun n => s (n + 1)⟩ := by
    simp [startTry, bind, andThen, get, getThe, MonadStateOf.get, Ran.after, hready, refuse, hj, raise]
  have hcatch : startCatch (fun n => s (n + 1)) w = rollbackInternal (fun n => s (n + 1)) w := by
    simp [startCatch, bind, andThen, get, getThe, MonadStateOf.get, Ran.after, hj]
  rw [show start physical overlay s w = _ from waitGate_entered _ hs]
  simp only [tryCatch, tryCatchThe, MonadExceptOf.tryCatch, andThen, htry, bind, hcatch, Ran.after, List.nil_append]
  rcases rollbackInternal (fun n => s (n + 1)) w with ⟨t, e | a, w', s'⟩
  · exact ⟨List.append_nil t, rfl⟩
  · exact ⟨List.append_nil t, rfl⟩

theorem start_serving (physical : RouteSnapshot Unit) (overlay : GatewayAdapter) (hs : (s 0).err = none)
    (hready : w.state = .ready) :
    start physical overlay s w = ⟨[], .ok (), w, fun n => s (n + 1)⟩ := by
  rw [show start physical overlay s w = _ from waitGate_entered _ hs]
  simp [tryCatch, tryCatchThe, MonadExceptOf.tryCatch, andThen, startTry, bind, get, getThe, MonadStateOf.get,
    hready, Ran.after, pure, ret]

/-- `RecoverAsync` refuses the journal of another platform, but not before the
instance holds it. -/
theorem recover_foreign (hs : (s 0).err = none) (hread : (s 1).err = none) (hfile : w.file = some j)
    (hforeign : j.snapshot.platform ≠ w.platform) :
    recover s w = ⟨[], .error (.host "ETH302" "Gateway journal belongs to another operating system"),
      { w with journal := some j }, fun n => s (n + 2)⟩ := by
  rw [show recover s w = _ from waitGate_entered _ hs]
  simp [bind, andThen, get, getThe, MonadStateOf.get, hfile, Ran.after, readJournal, query, ask, outcome, hread,
    pure, ret, setJournal, modify, modifyGet, MonadStateOf.modifyGet, hforeign, refuse, raise]

end Equations

/-! ## One step -/

section OneStep
variable {j : GatewayJournal F} {w : GatewayWorld F}

omit [DecidableEq F] in
/-- A rollback in which nothing failed deletes the file. -/
theorem finishRollback_deletes (s : Nat → GatewayReply F) (hf : w.file = some j) :
    ∃ m ∈ (finishRollback [] s w).trace, m.after.file = none := by
  simp [finishRollback, bind, andThen, Ran.after, modify, modifyGet, MonadStateOf.modifyGet, deleteJournal, get,
    getThe, MonadStateOf.get, hf, setJournal, setState, effect]

/-- A rollback that has nothing to do and cannot finish. -/
theorem rollbackInternal_stuck (hj : w.journal = some j) (hn : j.natMayExist = false)
    (hf : j.forwardingMayHaveChanged = false) {s : Nat → GatewayReply F} {e : Err} (hs : (s 0).err = some e) :
    let v : GatewayWorld F := { w with state := .rollingBack }
    (rollbackInternal s w).trace = [⟨.dnsStop, v, stoppedDns (s 0) v⟩] ∧
      (rollbackInternal s w).world =
        { stoppedDns (s 0) v with rollbacks := (stoppedDns (s 0) v).rollbacks ++ [1], state := .faulted } := by
  intro v
  rw [rollbackInternal_idle hj hn hf, hs]
  exact ⟨rfl, rfl⟩

/-- What a rollback of the foreign journal comes to. -/
theorem rollback_alone_iff (h : HoldsForeign j w) (s : Nat → GatewayReply F) :
    (∀ m ∈ (rollbackInternal s w).trace, Alone j m) ↔
      j.natMayExist = false ∧ j.forwardingMayHaveChanged = false ∧ (s 0).err.isSome := by
  constructor
  · intro halone
    have hn : j.natMayExist = false := by
      by_contra hn
      obtain ⟨m, hm, hcalled⟩ := rollbackInternal_visits_nat h.journal (by simpa using hn) s (fun _ => trivial)
      exact (halone m hm).1 .removeNat (by simp [mutating]) hcalled
    have hf : j.forwardingMayHaveChanged = false := by
      by_contra hf
      obtain ⟨m, hm, hcalled⟩ := rollbackInternal_visits_forwarding h.journal (by simpa using hf) s
        (fun _ => trivial)
      exact (halone m hm).1 .restoreForwarding (by simp [mutating]) hcalled
    refine ⟨hn, hf, ?_⟩
    cases hs : (s 0).err with
    | some e => rfl
    | none =>
      -- nothing is left to fail, so the file is deleted
      rw [rollbackInternal_idle h.journal hn hf, hs] at halone
      have hfile := (stoppedDns_held (s 0) { w with state := .rollingBack }).2.1.trans h.file
      obtain ⟨m, hm, hnone⟩ := finishRollback_deletes (fun n => s (n + 1)) hfile
      have hsome := (halone m (List.mem_append_right _ hm)).2
      rw [hnone] at hsome
      cases hsome
  · intro hgiven
    obtain ⟨hn, hf, hs⟩ := hgiven
    obtain ⟨e, he⟩ := Option.isSome_iff_exists.mp hs
    obtain ⟨htrace, _⟩ := rollbackInternal_stuck h.journal hn hf he
    have hheld := (stoppedDns_held (s 0) { w with state := .rollingBack }).2.1
    rw [htrace]
    intro m hm
    rw [List.mem_singleton.mp hm]
    refine ⟨?_, hheld.trans h.file⟩
    intro event hevent hgiven
    obtain ⟨rfl, _⟩ := hgiven
    simp [mutating] at hevent

/-- Where it is left alone, the instance still holds it. -/
theorem HoldsForeign.rollback (h : HoldsForeign j w) {s : Nat → GatewayReply F} (hn : j.natMayExist = false)
    (hf : j.forwardingMayHaveChanged = false) (hs : (s 0).err.isSome) :
    HoldsForeign j (rollbackInternal s w).world := by
  obtain ⟨e, he⟩ := Option.isSome_iff_exists.mp hs
  obtain ⟨_, hworld⟩ := rollbackInternal_stuck h.journal hn hf he
  obtain ⟨hjournal, hfile, hplatform⟩ := stoppedDns_held (s 0) { w with state := .rollingBack }
  rw [hworld]
  refine ⟨hjournal.trans h.journal, hfile.trans h.file, ?_⟩
  show j.snapshot.platform ≠ (stoppedDns (s 0) { w with state := .rollingBack }).platform
  rw [hplatform]
  exact h.foreign

omit [DecidableEq F] in
/-- A program without effects that leaves the world as it was. -/
theorem silent_of_runs {x : GatewayM F Unit}
    (hx : Runs (fun _ => True) (fun _ => False) x (fun _ w' => w' = w) (fun _ w' => w' = w) w)
    (s : Nat → GatewayReply F) : (x s w).trace = [] ∧ (x s w).world = w := by
  obtain ⟨ht, hend, _⟩ := hx s (fun _ => trivial)
  exact ⟨List.eq_nil_iff_forall_not_mem.mpr ht, hend.always (P := fun w' => w' = w)⟩

/-- The step leaves the journal alone. -/
def StepAlone (j : GatewayJournal F) (w : GatewayWorld F) (st : Step (GatewayReply F) GatewayOp) : Prop :=
  ∀ m ∈ (gatewaySystem F).stepTrace w st, Alone j m

/-- A step that changes nothing. -/
theorem StepAlone.of_silent (h : HoldsForeign j w) {op : GatewayOp} {s : Nat → GatewayReply F}
    (htrace : ((gatewaySystem F).exec op s w).trace = []) (hworld : ((gatewaySystem F).exec op s w).world = w) :
    StepAlone j w (.call op s) ∧ HoldsForeign j ((gatewaySystem F).stepWorld w (.call op s)) := by
  rw [StepAlone, System.stepTrace, System.stepWorld, htrace, hworld]
  exact ⟨fun _ hm => absurd hm List.not_mem_nil, h⟩

/-- `RecoverAsync` reads the journal the instance holds, and refuses it again. -/
theorem recover_silent (h : HoldsForeign j w) (s : Nat → GatewayReply F) :
    (recover s w).trace = [] ∧ (recover s w).world = w := by
  have hruns : Runs (fun _ => True) (fun _ => False) recover (fun _ w' => w' = w) (fun _ w' => w' = w) w := by
    refine Runs.bind (query_runs (fun _ _ => Runs.bind (Runs.get (Runs.ite (fun _ => ?_) (fun _ => Runs.pure rfl))))
      (fun _ => rfl))
    refine Runs.bind (readJournal_runs (fun j' hj' => ?_) (fun _ => rfl))
    have hsame : { w with journal := some j' } = w := by
      rw [← show w.journal = some j' from h.journal.trans (h.file.symm.trans hj')]
    have heq : j' = j := Option.some.inj (hj'.symm.trans h.file)
    refine Runs.bind (Runs.modify (Runs.bind (Runs.get (Runs.bind (Runs.refuse (fun hp => ?_) (fun _ => hsame))))))
    exact absurd (by rw [heq]; exact h.foreign) hp
  exact silent_of_runs hruns s

theorem check_silent (s : Nat → GatewayReply F) :
    ((gatewaySystem F).exec .check s w).trace = [] ∧ ((gatewaySystem F).exec .check s w).world = w := by
  have hruns : Runs (fun _ => True) (fun _ => False) ((gatewaySystem F).exec .check) (fun _ w' => w' = w)
      (fun _ w' => w' = w) w :=
    Runs.seq check_runs (fun _ _ he => Runs.pure he)
  exact silent_of_runs hruns s

/-- A step that rolls back. -/
theorem StepAlone.of_rollback (h : HoldsForeign j w) {op : GatewayOp} {s : Nat → GatewayReply F}
    (htrace : ((gatewaySystem F).exec op s w).trace = (rollbackInternal (fun n => s (n + 1)) w).trace)
    (hworld : ((gatewaySystem F).exec op s w).world = (rollbackInternal (fun n => s (n + 1)) w).world) :
    (StepAlone j w (.call op s) ↔ Stuck j s) ∧
      (Stuck j s → HoldsForeign j ((gatewaySystem F).stepWorld w (.call op s))) := by
  rw [StepAlone, System.stepTrace, System.stepWorld, htrace, hworld]
  exact ⟨rollback_alone_iff h _, fun hs => h.rollback hs.1 hs.2.1 hs.2.2⟩

/-- One step on the instance leaves the journal alone exactly if it refrains, and then
nothing has changed about the journal. -/
theorem step_alone_iff (h : HoldsForeign j w) (st : Step (GatewayReply F) GatewayOp) (hst : OnInstance st) :
    (StepAlone j w st ↔ Refrains j w st) ∧
      (Refrains j w st → HoldsForeign j ((gatewaySystem F).stepWorld w st)) := by
  cases st with
  | crash op s after => exact hst.elim
  | call op s =>
    have hsilent : ((gatewaySystem F).exec op s w).trace = [] → ((gatewaySystem F).exec op s w).world = w →
        Refrains j w (.call op s) → (StepAlone j w (.call op s) ↔ Refrains j w (.call op s)) ∧
          (Refrains j w (.call op s) → HoldsForeign j ((gatewaySystem F).stepWorld w (.call op s))) := by
      intro htrace hworld hr
      obtain ⟨halone, hheld⟩ := StepAlone.of_silent h htrace hworld
      exact ⟨iff_of_true halone hr, fun _ => hheld⟩
    cases op with
    | renew platform => exact hst.elim
    | recover => exact hsilent (recover_silent h s).1 (recover_silent h s).2 trivial
    | check => exact hsilent (check_silent s).1 (check_silent s).2 trivial
    | stop =>
      cases hs : (s 0).err with
      | some e =>
        have he := waitGate_refused (w := w) rollbackInternal hs
        exact hsilent (congrArg Ran.trace he) (congrArg Ran.world he) (Or.inl (by simp [hs]))
      | none =>
        have he := stop_entered (w := w) hs
        have hroll : (StepAlone j w (.call .stop s) ↔ Stuck j s) ∧ _ :=
          StepAlone.of_rollback h (congrArg Ran.trace he) (congrArg Ran.world he)
        simpa [Refrains, hs] using hroll
    | start physical overlay =>
      cases hs : (s 0).err with
      | some e =>
        have he : start physical overlay s w = _ := waitGate_refused _ hs
        exact hsilent (congrArg Ran.trace he) (congrArg Ran.world he) (Or.inl (by simp [hs]))
      | none =>
        by_cases hready : w.state = .ready
        · have he := start_serving physical overlay hs hready
          exact hsilent (congrArg Ran.trace he) (congrArg Ran.world he) (Or.inr (Or.inl hready))
        · obtain ⟨htrace, hworld⟩ := start_entered physical overlay hs h.journal hready
          have hroll : (StepAlone j w (.call (.start physical overlay) s) ↔ Stuck j s) ∧ _ :=
            StepAlone.of_rollback h htrace hworld
          simpa [Refrains, hs, hready] using hroll

end OneStep

/-! ## Every run after the refusal -/

/-- A run leaves the journal alone exactly if each of its steps refrains. -/
theorem leftAlone_iff {j : GatewayJournal F} : ∀ (steps : List (Step (GatewayReply F) GatewayOp))
    (w : GatewayWorld F), HoldsForeign j w → (∀ st ∈ steps, OnInstance st) →
      (LeftAlone j w steps ↔ AllRefrain j w steps)
  | [], w, h, _ => iff_of_true ⟨fun _ hm => absurd hm List.not_mem_nil, h.file⟩ trivial
  | st :: rest, w, h, hsteps => by
    obtain ⟨hone, hkeep⟩ := step_alone_iff h st (hsteps st List.mem_cons_self)
    have hrest : ∀ x ∈ rest, OnInstance x := fun x hx => hsteps x (List.mem_cons_of_mem st hx)
    have ih : HoldsForeign j ((gatewaySystem F).stepWorld w st) → _ := fun h' => leftAlone_iff rest _ h' hrest
    constructor
    · intro hgiven
      obtain ⟨htrace, hfile⟩ := hgiven
      have hst : Refrains j w st := hone.mp (fun m hm => htrace m (List.mem_append_left _ hm))
      exact ⟨hst, (ih (hkeep hst)).mp ⟨fun m hm => htrace m (List.mem_append_right _ hm), hfile⟩⟩
    · intro hgiven
      obtain ⟨hst, hall⟩ := hgiven
      obtain ⟨htrace, hfile⟩ := (ih (hkeep hst)).mpr hall
      refine ⟨?_, hfile⟩
      intro m hm
      cases List.mem_append.mp hm with
      | inl hm =>
        exact hone.mpr hst m hm
      | inr hm =>
        exact htrace m hm

/-- `RecoverAsync` refuses the journal of another operating system, and the calls that
follow on the instance leave it alone exactly if none of them comes to a rollback. -/
theorem foreign_journal_left_alone_iff (w : GatewayWorld F) (j : GatewayJournal F) (script : Nat → GatewayReply F)
    (hfile : w.file = some j) (hforeign : j.snapshot.platform ≠ w.platform)
    (hgate : (script 0).err = none) (hread : (script 1).err = none)
    (steps : List (Step (GatewayReply F) GatewayOp)) (hsteps : ∀ st ∈ steps, OnInstance st) :
    (recover script w).result = .error (.host "ETH302" "Gateway journal belongs to another operating system") ∧
    (LeftAlone j (recover script w).world steps ↔ AllRefrain j (recover script w).world steps) := by
  rw [recover_foreign hgate hread hfile hforeign]
  exact ⟨rfl, leftAlone_iff steps { w with journal := some j } ⟨rfl, hfile, hforeign⟩ hsteps⟩

/-- The journal of a Linux host, found by a Windows one. -/
def linuxJournal : GatewayJournal Bool := ⟨⟨"eth_1", "linux", false⟩, true, true⟩

def windowsWorld : GatewayWorld Bool :=
  ⟨false, ["eth_1"], false, some linuxJournal, "windows", none, .stopped, []⟩

/-- As long as it is only asked for its state, or to recover again. -/
theorem foreign_journal_left_alone_checks :
    LeftAlone linuxJournal (recover smoothScript windowsWorld).world
      [.call .check smoothScript, .call .recover smoothScript, .call .check smoothScript] := by
  refine (foreign_journal_left_alone_iff windowsWorld linuxJournal smoothScript rfl (by decide) rfl rfl _ ?_).2.mpr ?_
  · intro st hst
    simp only [List.mem_cons, List.not_mem_nil, or_false] at hst
    rcases hst with rfl | rfl | rfl <;> exact trivial
  · exact ⟨trivial, trivial, trivial, trivial⟩

/-- `StopAsync` after the refusal rolls the foreign journal back, and the file is gone. -/
theorem foreign_journal_rolled_back :
    ¬∀ (w : GatewayWorld Bool) (j : GatewayJournal Bool) (script : Nat → GatewayReply Bool),
      w.file = some j → j.snapshot.platform ≠ w.platform →
      (recover script w).result = .error (.host "ETH302" "Gateway journal belongs to another operating system") →
      ∀ steps, (∀ st ∈ steps, OnInstance st) → LeftAlone j (recover script w).world steps := by
  intro hall
  have h := hall windowsWorld linuxJournal smoothScript rfl (by decide) rfl [.call .stop smoothScript] (by
    intro st hst
    rw [List.mem_singleton.mp hst]
    trivial)
  have hgone : ((gatewaySystem Bool).final (recover smoothScript windowsWorld).world
      [.call .stop smoothScript]).file = none := by
    decide +kernel
  exact absurd (hgone.symm.trans h.2) (by decide)

end Gateway
end EasyTierHost
