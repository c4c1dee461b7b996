import EasyTierHost.Gateway.GatewayJournal

/- What each operation of the bootstrapper leaves. An operation that may run a
   rollback does so on an instance that holds the journal on disk, if there is
   one, and whose journal is of its own platform (`Sole`, `Native`): that is the
   permission `Allowed` asks for. -/
namespace EasyTierHost
namespace Gateway
open Effects Effects.Prog GatewayBootstrapper

variable {F : Type} {f₀ : F} {n₀ : List String}

/-- What the platform promises: the resource names it gives out are not in use, and a call
that undoes a change has undone it when it returns. -/
structure Promised (n₀ : List String) (r : GatewayReply F) : Prop where
  fresh : r.resourceName ∉ n₀
  undone : r.err = none → r.undone = true

/-- Every change that the journal file records has been undone. -/
def Undone (w : GatewayWorld F) : Prop :=
  ∀ j, w.file = some j →
    (j.natMayExist = true → j.snapshot.resourceName ∉ w.nat) ∧
    (j.forwardingMayHaveChanged = true → w.forwarding = j.snapshot.forwarding)

/-- A moment keeps the invariant, and deletes the file of an undone transaction only. -/
def GatewayMoment (f₀ : F) (n₀ : List String) (m : Moment GatewayEvent (GatewayWorld F)) : Prop :=
  GatewayInv f₀ n₀ m.after ∧ (m.event = .deleteFile → Undone m.before)

/-- The instance holds the journal that is on disk, if there is one. -/
def Sole (w : GatewayWorld F) : Prop := w.journal = none → w.file = none

/-- The journal in memory is of the instance's own platform. -/
def Native (w : GatewayWorld F) : Prop := ∀ j, w.journal = some j → j.snapshot.platform = w.platform

instance [DecidableEq F] (w : GatewayWorld F) : Decidable (Undone w) :=
  inferInstanceAs (Decidable (∀ j ∈ w.file, _))

instance (w : GatewayWorld F) : Decidable (Sole w) :=
  inferInstanceAs (Decidable (w.journal = none → w.file = none))

instance (w : GatewayWorld F) : Decidable (Native w) :=
  inferInstanceAs (Decidable (∀ j ∈ w.journal, j.snapshot.platform = w.platform))

section Calls
variable {ok : GatewayReply F → Prop} {I : Moment GatewayEvent (GatewayWorld F) → Prop}
  {X : Err → GatewayWorld F → Prop} {w : GatewayWorld F}

/-! ## The calls -/

theorem call_runs {event : GatewayEvent} {change : GatewayReply F → GatewayWorld F → GatewayWorld F}
    {Q : Unit → GatewayWorld F → Prop} (hI : ∀ r, ok r → I ⟨event, w, change r w⟩)
    (h : ∀ r, ok r → r.err = none → Q () (change r w))
    (hX : ∀ r e, ok r → r.err = some e → X e (change r w)) : Runs ok I (call event change) Q X w := by
  refine Runs.bind (Runs.ask (fun r hr => Runs.bind (Runs.effect (hI r hr) ?_)))
  exact Runs.outcome (h r hr) (fun e he => hX r e hr he)

theorem query_runs {α : Type} {value : GatewayReply F → GatewayWorld F → α}
    {Q : α → GatewayWorld F → Prop} (h : ∀ r, ok r → Q (value r w) w) (hX : ∀ e, X e w) :
    Runs ok I (query value) Q X w := by
  refine Runs.bind (Runs.ask (fun r hr => Runs.bind ?_))
  exact Runs.outcome (fun _ => Runs.bind (Runs.get (Runs.pure (h r hr)))) (fun e _ => hX e)

/-- A save of the journal `j`: when it returns the file is `j`, when it throws
the file is `j` or what it was. -/
theorem save_runs {j : GatewayJournal F} (hj : w.journal = some j) {Q : Unit → GatewayWorld F → Prop}
    (hS : I ⟨.save, w, { w with file := some j }⟩) (hN : I ⟨.save, w, w⟩)
    (h : Q () { w with file := some j }) (hX : ∀ e, X e { w with file := some j }) (hX' : ∀ e, X e w) :
    Runs ok I save Q X w := by
  have hw : { w with file := w.journal <|> w.file } = { w with file := some j } := by
    rw [hj]; rfl
  refine call_runs (fun r _ => ?_) (fun r _ he => ?_) (fun r e _ he => ?_)
  · split
    · rw [hw]; exact hS
    · exact hN
  · rw [if_pos (by simp [he]), hw]
    exact h
  · split
    · rw [hw]; exact hX e
    · exact hX' e

theorem step_runs {α : Type} {name : String} {x : GatewayM F α} {Q : α → GatewayWorld F → Prop}
    {Y : GatewayWorld F → Prop} (hx : Runs ok I x Q (fun _ => Y) w) :
    Runs ok I (step name x) Q (fun _ => Y) w :=
  Runs.tryCatch (hx.mono (fun _ _ h => h) (fun _ _ h => Runs.throw h))

theorem theJournal_runs {Q : GatewayJournal F → GatewayWorld F → Prop} {j : GatewayJournal F}
    (hj : w.journal = some j) (h : Q j w) : Runs ok I theJournal Q X w := by
  refine Runs.bind (Runs.get ?_)
  simp only [hj]
  exact Runs.pure h

theorem amend_runs {f : GatewayJournal F → GatewayJournal F} {Q : Unit → GatewayWorld F → Prop}
    {j : GatewayJournal F} (hj : w.journal = some j) (h : Q () { w with journal := some (f j) }) :
    Runs ok I (amend f) Q X w := by
  refine Runs.modify ?_
  rw [hj]
  exact h

theorem readJournal_runs {Q : GatewayJournal F → GatewayWorld F → Prop}
    (h : ∀ j, w.file = some j → Q j w) (hX : ∀ e, X e w) : Runs ok I readJournal Q X w := by
  refine Runs.bind (query_runs (fun _ _ => ?_) hX)
  cases hf : w.file with
  | none => exact Runs.throw (hX _)
  | some j => exact Runs.pure (h j hf)

theorem healthy_runs {Q : Bool → GatewayWorld F → Prop} (h : ∀ b, Q b w) (hX : ∀ e, X e w) :
    Runs ok I healthy Q X w := by
  refine Runs.bind (query_runs (fun r _ => ?_) hX)
  exact Runs.ite (fun _ => query_runs (fun _ _ => h _) hX) (fun _ => Runs.pure (h false))

end Calls

/-! ## Rollback -/

/-- During a rollback that began in the world `b`. -/
structure Undoing (f₀ : F) (n₀ : List String) (b w : GatewayWorld F) : Prop where
  inv : GatewayInv f₀ n₀ w
  native : Native w
  sole : Sole w
  held : b.journal.isSome → w.journal.isSome
  file : b.file.isSome → w.file.isSome
  state : w.state = .rollingBack
  rollbacks : w.rollbacks = b.rollbacks

section Rollback
variable {b w : GatewayWorld F} {j : GatewayJournal F}

theorem GatewayMoment.of_inv {event : GatewayEvent} {before : GatewayWorld F} (h : GatewayInv f₀ n₀ w)
    (he : event ≠ .deleteFile) : GatewayMoment f₀ n₀ ⟨event, before, w⟩ :=
  ⟨h, fun hd => absurd hd he⟩

theorem stopDns_runs (h : Undoing f₀ n₀ b w) :
    Runs (Promised n₀) (GatewayMoment f₀ n₀) stopDns
      (fun _ w' => Undoing f₀ n₀ b w' ∧ w'.journal = w.journal ∧ w'.dns = false)
      (fun _ w' => Undoing f₀ n₀ b w' ∧ w'.journal = w.journal) w := by
  have hstopped : Undoing f₀ n₀ b { w with dns := false } :=
    ⟨⟨h.inv.covered, h.inv.file, h.inv.journal, h.inv.anchored⟩, h.native, h.sole, h.held, h.file, h.state,
      h.rollbacks⟩
  refine call_runs (fun r _ => ?_) (fun r _ he => ?_) (fun r e _ _ => ?_)
  · split
    · exact GatewayMoment.of_inv hstopped.inv (by simp)
    · exact GatewayMoment.of_inv h.inv (by simp)
  · rw [if_pos (by simp [he])]
    exact ⟨hstopped, rfl, rfl⟩
  · split
    · exact ⟨hstopped, rfl⟩
    · exact ⟨h, rfl⟩

/-- Amending the journal in memory and saving it, within a rollback. -/
theorem amend_save_runs {f : GatewayJournal F → GatewayJournal F} (h : Undoing f₀ n₀ b w)
    (hj : w.journal = some j) (hs : (f j).snapshot = j.snapshot)
    (hinv : GatewayInv f₀ n₀ { w with journal := some (f j) }) :
    Runs (Promised n₀) (GatewayMoment f₀ n₀) (do amend f; save)
      (fun _ w' => Undoing f₀ n₀ b w' ∧ w'.journal = some (f j) ∧ w'.dns = w.dns)
      (fun _ w' => Undoing f₀ n₀ b w' ∧ w'.journal = some (f j) ∧ w'.dns = w.dns) w := by
  have hnative : ∀ file, Native { w with journal := some (f j), file := file } := by
    intro file j' hj'
    cases hj'
    rw [hs]
    exact h.native j hj
  have hheld : ∀ file, GatewayInv f₀ n₀ { w with journal := some (f j), file := file } →
      (b.file.isSome → file.isSome) →
      Undoing f₀ n₀ b { w with journal := some (f j), file := file } := fun file hi hf =>
    ⟨hi, hnative file, fun hn => by simp at hn, fun _ => rfl, hf, h.state, h.rollbacks⟩
  have hsaved := hheld (some (f j)) (hinv.save rfl) (fun _ => rfl)
  have hkept := hheld w.file hinv h.file
  refine Runs.bind (amend_runs hj ?_)
  exact save_runs rfl (GatewayMoment.of_inv hsaved.inv (by simp)) (GatewayMoment.of_inv hinv (by simp))
    ⟨hsaved, rfl, rfl⟩ (fun _ => ⟨hsaved, rfl, rfl⟩) (fun _ => ⟨hkept, rfl, rfl⟩)

/-- The NAT step: when it returns the flag is down, and either way the other flag
and DNS are as they were. -/
theorem undoNat_runs (h : Undoing f₀ n₀ b w) (hj : w.journal = some j) :
    Runs (Promised n₀) (GatewayMoment f₀ n₀) undoNat
      (fun _ w' => Undoing f₀ n₀ b w' ∧ w'.journal = some { j with natMayExist := false } ∧ w'.dns = w.dns)
      (fun _ w' => Undoing f₀ n₀ b w' ∧ (∃ c, w'.journal = some { j with natMayExist := c }) ∧ w'.dns = w.dns)
      w := by
  have hsound := h.inv.journal j hj
  have hclean : w.nat.filter (· ≠ j.snapshot.resourceName) = n₀ := by
    have hself : n₀.filter (· ≠ j.snapshot.resourceName) = n₀ := by
      refine List.filter_eq_self.mpr (fun x hx => ?_)
      have hne : x ≠ j.snapshot.resourceName := fun he => hsound.fresh (he ▸ hx)
      simpa using hne
    cases hsound.nat with
    | inl hn =>
      rw [hn, hself]
    | inr hn =>
      rw [hn, List.filter_cons_of_neg (by simp), hself]
  have hremoved : Undoing f₀ n₀ b { w with nat := n₀ } :=
    ⟨h.inv.removeNat, h.native, h.sole, h.held, h.file, h.state, h.rollbacks⟩
  have hsame : ∃ c, w.journal = some { j with natMayExist := c } := ⟨j.natMayExist, hj⟩
  refine Runs.bind (theJournal_runs hj (Runs.bind ?_))
  refine call_runs (fun r _ => ?_) (fun r hr he => ?_) (fun r e _ _ => ?_)
  · split
    · rw [hclean]; exact GatewayMoment.of_inv hremoved.inv (by simp)
    · exact GatewayMoment.of_inv h.inv (by simp)
  · rw [if_pos ⟨h.native j hj, hr.undone he⟩, hclean]
    have hstruck : GatewayInv f₀ n₀ { w with nat := n₀, journal := some { j with natMayExist := false } } := by
      refine hremoved.inv.strike hj rfl ?_ ?_
      · intro x hx
        cases x with
        | forwarding => exact hx
        | nat => exact absurd (show false = true from hx) (by simp)
      · intro x hx hx'
        cases x with
        | forwarding => exact absurd hx hx'
        | nat => exact fun hlive => hlive rfl
    refine (amend_save_runs hremoved hj rfl hstruck).mono (fun _ _ h' => h') ?_
    exact fun _ _ h' => ⟨h'.1, ⟨false, h'.2.1⟩, h'.2.2⟩
  · split
    · rw [hclean]; exact ⟨hremoved, hsame, rfl⟩
    · exact ⟨h, hsame, rfl⟩

variable [DecidableEq F]

/-- The forwarding step, likewise. -/
theorem undoForwarding_runs (h : Undoing f₀ n₀ b w) (hj : w.journal = some j) :
    Runs (Promised n₀) (GatewayMoment f₀ n₀) undoForwarding
      (fun _ w' => Undoing f₀ n₀ b w' ∧ w'.journal = some { j with forwardingMayHaveChanged := false } ∧
        w'.dns = w.dns)
      (fun _ w' => Undoing f₀ n₀ b w' ∧ w'.dns = w.dns) w := by
  have hsound := h.inv.journal j hj
  have hmoved : ∀ f, (w.forwarding = f₀ → f = f₀) → Undoing f₀ n₀ b { w with forwarding := f } :=
    fun f hf => ⟨h.inv.restoreForwarding hf, h.native, h.sole, h.held, h.file, h.state, h.rollbacks⟩
  have hstay : ∀ r : GatewayReply F, w.forwarding = f₀ →
      (if r.undone ∨ w.forwarding = j.snapshot.forwarding then j.snapshot.forwarding else r.forwarding) = f₀ := by
    intro r hf
    rw [hsound.forwarding, if_pos (Or.inr hf)]
  refine Runs.bind (theJournal_runs hj (Runs.bind ?_))
  refine call_runs (fun r _ => ?_) (fun r hr he => ?_) (fun r e _ _ => ?_)
  · rw [if_pos (h.native j hj)]
    exact GatewayMoment.of_inv (hmoved _ (hstay r)).inv (by simp)
  · rw [if_pos (h.native j hj), if_pos (Or.inl (hr.undone he)), hsound.forwarding]
    have hback := hmoved f₀ (fun _ => rfl)
    have hstruck : GatewayInv f₀ n₀
        { w with forwarding := f₀, journal := some { j with forwardingMayHaveChanged := false } } := by
      refine hback.inv.strike hj rfl ?_ ?_
      · intro x hx
        cases x with
        | forwarding => exact absurd (show false = true from hx) (by simp)
        | nat => exact hx
      · intro x hx hx'
        cases x with
        | forwarding => exact fun hlive => hlive rfl
        | nat => exact absurd hx hx'
    exact (amend_save_runs hback hj rfl hstruck).mono (fun _ _ h' => h') (fun _ _ h' => ⟨h'.1, h'.2.2⟩)
  · rw [if_pos (h.native j hj)]
    exact ⟨hmoved _ (hstay r), rfl⟩

/-- The cleanup steps for the platform: if neither threw, the flags in memory are
down. -/
theorem undoPlatform_runs (h : Undoing f₀ n₀ b w) (hj : w.journal = some j) {X : Err → GatewayWorld F → Prop} :
    Runs (Promised n₀) (GatewayMoment f₀ n₀) (undoPlatform j)
      (fun es w' => Undoing f₀ n₀ b w' ∧ w'.dns = w.dns ∧ (es = [] →
        ∃ j', w'.journal = some j' ∧ j'.forwardingMayHaveChanged = false ∧ j'.natMayExist = false)) X w := by
  have hnat : Runs (Promised n₀) (GatewayMoment f₀ n₀) (attemptIf j.natMayExist undoNat)
      (fun es w' => Undoing f₀ n₀ b w' ∧ w'.dns = w.dns ∧
        ∃ c, w'.journal = some { j with natMayExist := c } ∧ (es = [] → c = false)) X w := by
    refine Runs.attemptIf (fun _ => ?_) (fun hc => ⟨h, rfl, j.natMayExist, hj, fun _ => hc⟩)
    refine (undoNat_runs h hj).mono (fun _ w' h' => ?_) (fun e w' h' => ?_)
    · exact ⟨h'.1, h'.2.2, false, h'.2.1, fun _ => rfl⟩
    · obtain ⟨h', ⟨c, hc⟩, hd⟩ := h'
      exact ⟨h', hd, c, hc, by simp⟩
  refine Runs.seq hnat (fun es w₁ h₁ => ?_)
  obtain ⟨h₁, hd₁, c, hj₁, hc⟩ := h₁
  refine Runs.bind (theJournal_runs hj₁ (Runs.bind (Runs.attemptIf (fun _ => ?_) (fun hflag => ?_))))
  · refine (undoForwarding_runs h₁ hj₁).mono (fun _ w₂ h₂ => Runs.pure ?_) (fun e w₂ h₂ => Runs.pure ?_)
    · refine ⟨h₂.1, h₂.2.2.trans hd₁, fun hes => ⟨_, h₂.2.1, rfl, ?_⟩⟩
      rw [List.append_nil] at hes
      exact hc hes
    · exact ⟨h₂.1, h₂.2.trans hd₁, by simp⟩
  · refine Runs.pure ⟨h₁, hd₁, fun hes => ⟨_, hj₁, hflag, ?_⟩⟩
    rw [List.append_nil] at hes
    exact hc hes

/-- All cleanup steps: if none of them threw, DNS is stopped as well. -/
theorem rollbackErrors_runs (h : Undoing f₀ n₀ b w) {X : Err → GatewayWorld F → Prop} :
    Runs (Promised n₀) (GatewayMoment f₀ n₀) rollbackErrors
      (fun es w' => Undoing f₀ n₀ b w' ∧ (es = [] → w'.dns = false ∧
        ∀ j, w'.journal = some j → j.forwardingMayHaveChanged = false ∧ j.natMayExist = false)) X w := by
  have hdns : Runs (Promised n₀) (GatewayMoment f₀ n₀) (attemptIf true stopDns)
      (fun es w' => Undoing f₀ n₀ b w' ∧ (es = [] → w'.dns = false)) X w := by
    refine Runs.attemptIf (fun _ => ?_) (fun hc => by simp at hc)
    exact (stopDns_runs h).mono (fun _ _ h' => ⟨h'.1, fun _ => h'.2.2⟩) (fun _ _ h' => ⟨h'.1, by simp⟩)
  refine Runs.seq hdns (fun es w₁ h₁ => Runs.bind (Runs.get ?_))
  cases hj : w₁.journal with
  | none => exact Runs.pure ⟨h₁.1, fun hes => ⟨h₁.2 hes, fun j hj' => by simp [hj] at hj'⟩⟩
  | some j =>
    refine Runs.seq (undoPlatform_runs h₁.1 hj) (fun es' w₂ h₂ => Runs.pure ?_)
    refine ⟨h₂.1, fun hes => ?_⟩
    rw [List.append_eq_nil_iff] at hes
    obtain ⟨j', hj', hflags⟩ := h₂.2.2 hes.2
    refine ⟨h₂.2.1.trans (h₁.2 hes.1), fun j'' hj'' => ?_⟩
    have he : j'' = j' := Option.some.inj (hj''.symm.trans hj')
    subst he
    exact hflags

/-- What a gateway that was stopped cleanly leaves. -/
structure Stopped (f₀ : F) (n₀ : List String) (w : GatewayWorld F) : Prop where
  forwarding : w.forwarding = f₀
  nat : w.nat = n₀
  dns : w.dns = false
  file : w.file = none
  journal : w.journal = none
  state : w.state = .stopped

/-- What a rollback from the world `b` leaves when it returns. -/
def RolledBack (f₀ : F) (n₀ : List String) (b w : GatewayWorld F) : Prop :=
  GatewayInv f₀ n₀ w ∧ Stopped f₀ n₀ w ∧ w.rollbacks = b.rollbacks ++ [0]

/-- What a rollback from the world `b` leaves when a cleanup step threw: the journal
is kept where it was. -/
structure Kept (f₀ : F) (n₀ : List String) (b w : GatewayWorld F) : Prop where
  inv : GatewayInv f₀ n₀ w
  native : Native w
  sole : Sole w
  held : b.journal.isSome → w.journal.isSome
  file : b.file.isSome → w.file.isSome
  state : w.state = .faulted
  rollbacks : ∃ n, w.rollbacks = b.rollbacks ++ [n + 1]

omit [DecidableEq F] in
theorem finishRollback_runs {es : List Err} (h : Undoing f₀ n₀ b w)
    (hclean : es = [] → w.dns = false ∧
      ∀ j, w.journal = some j → j.forwardingMayHaveChanged = false ∧ j.natMayExist = false) :
    Runs (Promised n₀) (GatewayMoment f₀ n₀) (finishRollback es) (fun _ => RolledBack f₀ n₀ b)
      (fun _ => Kept f₀ n₀ b) w := by
  refine Runs.bind (Runs.modify (Runs.ite (fun hc => ?_) (fun hc => ?_)))
  · refine Runs.bind (Runs.modify (Runs.throw ?_))
    refine ⟨⟨h.inv.covered, h.inv.file, h.inv.journal, h.inv.anchored⟩, h.native, h.sole, h.held, h.file, rfl, ?_⟩
    exact ⟨es.length - 1, by rw [Nat.sub_add_cancel hc, ← h.rollbacks]⟩
  · have hes : es = [] := by simpa using hc
    obtain ⟨hdns, hflags⟩ := hclean hes
    subst hes
    have hgone : GatewayInv f₀ n₀ { w with file := none } := by
      rcases Option.eq_none_or_eq_some w.journal with hj | ⟨j, hj⟩
      · rw [show { w with file := none } = w by rw [← h.sole hj]]
        exact h.inv
      · exact h.inv.deleteFile hj (hflags j hj).1 (hflags j hj).2
    obtain ⟨hforwarding, hnat⟩ := hgone.restored rfl
    have hundone : Undone w := by
      intro j hj
      have hsound := h.inv.file j hj
      exact ⟨fun _ => hnat ▸ hsound.fresh, fun _ => hforwarding.trans hsound.forwarding.symm⟩
    have hend : ∀ file, file = none → RolledBack f₀ n₀ b
        { w with file := file, rollbacks := w.rollbacks ++ [0], journal := none, state := .stopped } := by
      intro file hf
      subst hf
      refine ⟨?_, ⟨hforwarding, hnat, hdns, rfl, rfl, rfl⟩, by rw [← h.rollbacks]⟩
      exact ⟨hgone.forget.covered, hgone.forget.file, hgone.forget.journal, hgone.forget.anchored⟩
    refine Runs.bind (Runs.bind (Runs.get (Runs.ite (fun _ => Runs.effect ⟨?_, fun _ => hundone⟩ ?_) (fun hf => ?_))))
    · exact ⟨hgone.covered, hgone.file, hgone.journal, hgone.anchored⟩
    · exact Runs.bind (Runs.modify (Runs.modify (hend none rfl)))
    · exact Runs.pure (Runs.bind (Runs.modify (Runs.modify (hend w.file (by simpa using hf)))))

/-- `RollbackInternalAsync` on an instance that holds the journal, if there is one. -/
theorem rollbackInternal_runs (h : GatewayInv f₀ n₀ w) (hnative : Native w) (hsole : Sole w) :
    Runs (Promised n₀) (GatewayMoment f₀ n₀) rollbackInternal (fun _ => RolledBack f₀ n₀ w)
      (fun _ => Kept f₀ n₀ w) w := by
  have hbegin : Undoing f₀ n₀ w { w with state := .rollingBack } :=
    ⟨⟨h.covered, h.file, h.journal, h.anchored⟩, hnative, hsole, fun hj => hj, fun hf => hf, rfl, rfl⟩
  refine Runs.bind (Runs.modify (Runs.bind ?_))
  refine (rollbackErrors_runs hbegin).mono (fun es w' h' => ?_) (fun _ _ hX => hX)
  exact finishRollback_runs h'.1 h'.2

end Rollback

/-! ## Start and check -/

/-- Since the world `b` no rollback has run, and no journal was dropped. -/
structure Begun (f₀ : F) (n₀ : List String) (b w : GatewayWorld F) : Prop where
  inv : GatewayInv f₀ n₀ w
  native : Native w
  sole : Sole b → Sole w
  held : b.journal.isSome → w.journal.isSome
  file : b.file.isSome → w.file.isSome
  rollbacks : w.rollbacks = b.rollbacks

/-- The gateway is being set up under the journal `j`, which is on disk. -/
structure Preparing (f₀ : F) (n₀ : List String) (b : GatewayWorld F) (j : GatewayJournal F)
    (w : GatewayWorld F) : Prop where
  inv : GatewayInv f₀ n₀ w
  journal : w.journal = some j
  file : w.file = some j
  nat : w.nat = n₀
  platform : j.snapshot.platform = w.platform
  rollbacks : w.rollbacks = b.rollbacks

section Start
variable {b w : GatewayWorld F} {j : GatewayJournal F}

/-- A world that differs only in the state of the instance or of DNS. -/
theorem Begun.aside (h : Begun f₀ n₀ b w) (state : GatewayServerState) (dns : Bool) :
    Begun f₀ n₀ b { w with state := state, dns := dns } :=
  ⟨⟨h.inv.covered, h.inv.file, h.inv.journal, h.inv.anchored⟩, h.native, h.sole, h.held, h.file, h.rollbacks⟩

theorem Begun.of_journal {w : GatewayWorld F} (hi : GatewayInv f₀ n₀ w) (hj : w.journal = some j)
    (hp : j.snapshot.platform = w.platform) (hf : b.file.isSome → w.file.isSome)
    (hr : w.rollbacks = b.rollbacks) : Begun f₀ n₀ b w := by
  refine ⟨hi, ?_, fun _ hn => by simp [hj] at hn, fun _ => by simp [hj], hf, hr⟩
  intro j' hj'
  have he : j' = j := Option.some.inj (hj'.symm.trans hj)
  rw [he, hp]

theorem Preparing.begun (h : Preparing f₀ n₀ b j w) : Begun f₀ n₀ b w :=
  Begun.of_journal h.inv h.journal h.platform (fun _ => by simp [h.file]) h.rollbacks

/-- Raising a flag: in memory, then on disk. -/
theorem raise_runs {f : GatewayJournal F → GatewayJournal F} (h : Preparing f₀ n₀ b j w)
    (hs : (f j).snapshot = j.snapshot) (hn : j.names ⊆ (f j).names) {Q : Unit → GatewayWorld F → Prop}
    (hQ : ∀ w', Preparing f₀ n₀ b (f j) w' → Q () w') :
    Runs (Promised n₀) (GatewayMoment f₀ n₀) (do amend f; save) Q
      (fun _ w' => Begun f₀ n₀ b w' ∧ w'.journal.isSome) w := by
  have hnoted := h.inv.note h.journal (by simp [h.file]) hs hn
  have hsaved := hnoted.save rfl
  have hp : (f j).snapshot.platform = w.platform := by rw [hs]; exact h.platform
  have hfull : Preparing f₀ n₀ b (f j) { w with journal := some (f j), file := some (f j) } :=
    ⟨hsaved, rfl, rfl, h.nat, hp, h.rollbacks⟩
  have hhalf : Begun f₀ n₀ b { w with journal := some (f j) } :=
    Begun.of_journal hnoted rfl hp h.begun.file h.rollbacks
  refine Runs.bind (amend_runs h.journal ?_)
  exact save_runs rfl (GatewayMoment.of_inv hsaved (by simp)) (GatewayMoment.of_inv hnoted (by simp))
    (hQ _ hfull) (fun _ => ⟨hfull.begun, rfl⟩) (fun _ => ⟨hhalf, rfl⟩)

/-- `StartAsync` once the journal is on disk. -/
theorem prepare_runs (h : Preparing f₀ n₀ b j w) :
    Runs (Promised n₀) (GatewayMoment f₀ n₀) (prepare j.snapshot) (fun _ => Begun f₀ n₀ b)
      (fun _ w' => Begun f₀ n₀ b w' ∧ w'.journal.isSome) w := by
  refine Runs.bind_assoc (raise_runs h rfl ?_ (fun w₁ h₁ => ?_))
  · intro x hx
    cases x with
    | forwarding => rfl
    | nat => exact hx
  -- forwarding may now take any value
  have hchanged : ∀ f, Preparing f₀ n₀ b { j with forwardingMayHaveChanged := true } { w₁ with forwarding := f } :=
    fun f => ⟨h₁.inv.enableForwarding h₁.journal h₁.file rfl rfl, h₁.journal, h₁.file, h₁.nat, h₁.platform,
      h₁.rollbacks⟩
  refine Runs.bind (step_runs (call_runs (fun r _ => GatewayMoment.of_inv (hchanged _).inv (by simp))
    (fun r _ _ => ?_) (fun r e _ _ => ⟨(hchanged _).begun, by simp [h₁.journal]⟩)))
  refine Runs.bind_assoc (raise_runs (hchanged r.forwarding) rfl ?_ (fun w₂ h₂ => ?_))
  · intro x hx
    cases x with
    | forwarding => exact hx
    | nat => rfl
  -- the NAT object may now exist
  have hnat : ∀ l, l = w₂.nat ∨ l = j.snapshot.resourceName :: w₂.nat →
      Begun f₀ n₀ b { w₂ with nat := l } := by
    intro l hl
    rcases hl with rfl | rfl
    · exact h₂.begun
    · have hi := h₂.inv.createNat h₂.journal h₂.file rfl h₂.nat rfl rfl
      exact Begun.of_journal hi h₂.journal h₂.platform (fun _ => by simp [h₂.file]) h₂.rollbacks
  have hcreated : ∀ r : GatewayReply F, ∃ l, (l = w₂.nat ∨ l = j.snapshot.resourceName :: w₂.nat) ∧
      (if r.applied then { w₂ with nat := j.snapshot.resourceName :: w₂.nat } else w₂) = { w₂ with nat := l } := by
    intro r
    by_cases hr : r.applied = true
    · exact ⟨_, Or.inr rfl, if_pos hr⟩
    · exact ⟨_, Or.inl rfl, if_neg hr⟩
  refine Runs.bind (step_runs (call_runs (fun r _ => ?_) (fun r _ _ => ?_) (fun r e _ _ => ?_)))
  · obtain ⟨l, hl, he⟩ := hcreated r
    rw [he]
    exact GatewayMoment.of_inv (hnat l hl).inv (by simp)
  · obtain ⟨l, hl, he⟩ := hcreated r
    rw [he]
    have hstarted := (hnat l hl).aside .dnsStarting
    have hheld : w₂.journal.isSome := by simp [h₂.journal]
    refine Runs.bind (Runs.modify (Runs.bind (step_runs (call_runs
      (fun r _ => GatewayMoment.of_inv (hstarted _).inv (by simp))
      (fun r _ _ => ?_) (fun r e _ _ => ⟨hstarted _, hheld⟩)))))
    refine Runs.bind (step_runs (healthy_runs (fun ok => ?_) (fun e => ⟨hstarted _, hheld⟩)))
    refine Runs.bind (Runs.refuse (fun _ => ?_) (fun _ => ⟨hstarted _, hheld⟩))
    exact Runs.modify ((hnat l hl).aside .ready _)
  · obtain ⟨l, hl, he⟩ := hcreated r
    rw [he]
    exact ⟨hnat l hl, by simp [h₂.journal]⟩

/-- The try block of `StartAsync`. If it throws without a journal in memory, it
did not set one up. -/
theorem startTry_runs {physical : RouteSnapshot Unit} {overlay : GatewayAdapter} (h : GatewayInv f₀ n₀ w)
    (hnative : Native w) :
    Runs (Promised n₀) (GatewayMoment f₀ n₀) (startTry physical overlay) (fun _ => Begun f₀ n₀ w)
      (fun _ => Begun f₀ n₀ w) w := by
  have hsame : Begun f₀ n₀ w w := ⟨h, hnative, id, id, id, rfl⟩
  refine Runs.bind (Runs.get (Runs.ite (fun _ => Runs.pure hsame) (fun _ => ?_)))
  refine Runs.bind (Runs.refuse (fun hfree => ?_) (fun _ => hsame))
  refine Runs.bind (Runs.refuse (fun _ => ?_) (fun _ => hsame))
  have hf : w.file = none := by
    simp only [Bool.or_eq_true, not_or, Bool.not_eq_true, Option.isSome_eq_false_iff,
      Option.isNone_iff_eq_none] at hfree
    exact hfree.2
  have hprep : Begun f₀ n₀ w { w with state := .preparing } := hsame.aside .preparing w.dns
  refine Runs.bind (Runs.modify (Runs.bind (step_runs (query_runs (fun r hr => ?_) (fun _ => hprep)))))
  -- the empty journal, in memory and on disk
  have hbegun := hprep.inv.begin (s := ⟨r.resourceName, w.platform, w.forwarding⟩) hf rfl hr.fresh
  have hsaved := hbegun.save rfl
  have hpre : Preparing f₀ n₀ w ⟨⟨r.resourceName, w.platform, w.forwarding⟩, false, false⟩
      { w with
        state := .preparing
        journal := some ⟨⟨r.resourceName, w.platform, w.forwarding⟩, false, false⟩
        file := some ⟨⟨r.resourceName, w.platform, w.forwarding⟩, false, false⟩ } :=
    ⟨hsaved, rfl, rfl, (h.restored hf).2, rfl, rfl⟩
  have hmem : Begun f₀ n₀ w { w with
      state := .preparing
      journal := some ⟨⟨r.resourceName, w.platform, w.forwarding⟩, false, false⟩ } :=
    Begun.of_journal hbegun rfl rfl id rfl
  refine Runs.bind (Runs.modify (Runs.bind ?_))
  refine save_runs rfl (GatewayMoment.of_inv hsaved (by simp)) (GatewayMoment.of_inv hbegun (by simp)) ?_
    (fun _ => hpre.begun) (fun _ => hmem)
  exact (prepare_runs hpre).mono (fun _ _ h' => h') (fun _ _ h' => h'.1)

theorem check_runs {ok : GatewayReply F → Prop} {I : Moment GatewayEvent (GatewayWorld F) → Prop} :
    Runs ok I check (fun _ w' => w' = w) (fun _ w' => w' = w) w := by
  refine Runs.bind (query_runs (fun _ _ => Runs.bind (Runs.get ?_)) (fun _ => rfl))
  exact Runs.ite (fun _ => healthy_runs (fun _ => rfl) (fun _ => rfl)) (fun _ => Runs.pure rfl)

variable [DecidableEq F]

/-- A rollback from a world with a journal, since the world `b`. -/
theorem Begun.rolled (h : Begun f₀ n₀ b w) (hj : w.journal.isSome) :
    Runs (Promised n₀) (GatewayMoment f₀ n₀) rollbackInternal (fun _ => RolledBack f₀ n₀ b)
      (fun _ w' => Kept f₀ n₀ b w' ∧ w'.journal.isSome) w := by
  have hsole : Sole w := fun hn => by simp [hn] at hj
  refine (rollbackInternal_runs h.inv h.native hsole).mono (fun _ w' h' => ?_) (fun _ w' h' => ?_)
  · rw [RolledBack, h.rollbacks] at h'
    exact h'
  · refine ⟨⟨h'.inv, h'.native, h'.sole, fun _ => h'.held hj, fun hb => h'.file (h.file hb), h'.state, ?_⟩,
      h'.held hj⟩
    obtain ⟨n, hn⟩ := h'.rollbacks
    exact ⟨n, by rw [hn, h.rollbacks]⟩

/-- `StartAsync` on an instance whose journal, if it holds one, is of its platform. -/
theorem start_runs {physical : RouteSnapshot Unit} {overlay : GatewayAdapter} (h : GatewayInv f₀ n₀ w)
    (hnative : Native w) :
    Runs (Promised n₀) (GatewayMoment f₀ n₀) (start physical overlay) (fun _ => Begun f₀ n₀ w)
      (fun _ w' => Begun f₀ n₀ w w' ∨ RolledBack f₀ n₀ w w' ∨ (Kept f₀ n₀ w w' ∧ w'.journal.isSome)) w := by
  refine Runs.bind (query_runs (fun _ _ => ?_) (fun _ => Or.inl ⟨h, hnative, id, id, id, rfl⟩))
  refine Runs.tryCatch ((startTry_runs h hnative).mono (fun _ _ h' => h') (fun e w' h' => ?_))
  refine Runs.bind (Runs.bind (Runs.get (Runs.ite (fun hj => ?_) (fun _ => ?_))))
  · exact (h'.rolled hj).mono (fun _ _ hr => Runs.throw (Or.inr (Or.inl hr))) (fun _ _ hk => Or.inr (Or.inr hk))
  · exact Runs.modify (Runs.throw (Or.inl (h'.aside .stopped _)))

/-! ## Stop and recover -/

/-- `StopAsync` on an instance that holds the journal on disk, if there is one. -/
theorem stop_runs (h : GatewayInv f₀ n₀ w) (hnative : Native w) (hsole : Sole w) :
    Runs (Promised n₀) (GatewayMoment f₀ n₀) stop (fun _ => RolledBack f₀ n₀ w)
      (fun _ w' => w' = w ∨ Kept f₀ n₀ w w') w := by
  refine Runs.bind (query_runs (fun _ _ => ?_) (fun _ => Or.inl rfl))
  exact (rollbackInternal_runs h hnative hsole).mono (fun _ _ h' => h') (fun _ _ h' => Or.inr h')

/-- `RecoverAsync`, on any instance. -/
theorem recover_runs (h : GatewayInv f₀ n₀ w) :
    Runs (Promised n₀) (GatewayMoment f₀ n₀) recover
      (fun _ w' => (w' = w ∧ w.file = none) ∨ RolledBack f₀ n₀ w w')
      (fun _ w' => w' = w ∨
        (GatewayInv f₀ n₀ w' ∧ w'.file = w.file ∧ w'.file.isSome ∧ w'.rollbacks = w.rollbacks) ∨
        (Kept f₀ n₀ w w' ∧ w'.journal.isSome ∧ w'.file.isSome)) w := by
  refine Runs.bind (query_runs (fun _ _ => Runs.bind (Runs.get (Runs.ite (fun hf => ?_) (fun hf => ?_))))
    (fun _ => Or.inl rfl))
  · refine Runs.bind (readJournal_runs (fun j hj => ?_) (fun _ => Or.inl rfl))
    have hload := h.load hj
    refine Runs.bind (Runs.modify (Runs.bind (Runs.get (Runs.bind (Runs.refuse (fun hp => ?_) (fun _ => ?_))))))
    · have hp : j.snapshot.platform = w.platform := by simpa using hp
      have hbegun : Begun f₀ n₀ w { w with journal := some j } := Begun.of_journal hload rfl hp id rfl
      refine (hbegun.rolled rfl).mono (fun _ _ hr => Or.inr hr) (fun _ _ hk => ?_)
      exact Or.inr (Or.inr ⟨hk.1, hk.2, hk.1.file hf⟩)
    · exact Or.inr (Or.inl ⟨hload, rfl, hf, rfl⟩)
  · exact Runs.pure (Or.inl ⟨rfl, by simpa using hf⟩)

/-! ## The operations -/

/-- An operation that may roll back holds the journal on disk and knows how to
undo it. -/
def Allowed (w : GatewayWorld F) : GatewayOp → Prop
  | .stop => Native w ∧ Sole w
  | .start _ _ => Native w
  | _ => True

/-- Every allowed operation keeps the invariant. -/
theorem gatewaySystem_runs (op : GatewayOp) (h : GatewayInv f₀ n₀ w) (hop : Allowed w op) :
    Runs (Promised n₀) (GatewayMoment f₀ n₀) ((gatewaySystem F).exec op) (fun _ => GatewayInv f₀ n₀)
      (fun _ => GatewayInv f₀ n₀) w := by
  cases op with
  | recover =>
    refine (recover_runs h).mono (fun _ w' hr => ?_) (fun _ w' hx => ?_)
    · rcases hr with ⟨rfl, _⟩ | hr
      · exact h
      · exact hr.1
    · rcases hx with rfl | hx | hx
      · exact h
      · exact hx.1
      · exact hx.1.inv
  | start physical overlay =>
    refine (start_runs h hop).mono (fun _ w' hb => hb.inv) (fun _ w' hx => ?_)
    rcases hx with hb | hr | hk
    · exact hb.inv
    · exact hr.1
    · exact hk.1.inv
  | check =>
    exact Runs.bind (check_runs.mono (fun _ w' he => Runs.pure (he ▸ h)) (fun _ w' he => he ▸ h))
  | stop =>
    refine (stop_runs h hop.1 hop.2).mono (fun _ w' hr => hr.1) (fun _ w' hx => ?_)
    rcases hx with rfl | hk
    · exact h
    · exact hk.inv
  | renew platform =>
    have hf := h.forget
    exact Runs.modify ⟨hf.covered, hf.file, hf.journal, hf.anchored⟩

end Start

end Gateway
end EasyTierHost
