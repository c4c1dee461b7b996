import Mathlib.Tactic.Common

/- Outcomes of computations that may throw, seen by a caller that catches some of the
   exceptions: `Survives caught x` says that whatever `x` throws is caught, `Returns x`
   that it throws nothing. Both are told of a sequence by its parts, so a condition
   on the input that is built up along the program is compared with it part by part. -/
namespace Effects

variable {ε α β : Type} {caught : ε → Bool}

def Survives (caught : ε → Bool) (x : Except ε α) : Prop := ∀ e, x = .error e → caught e = true

def Returns (x : Except ε α) : Prop := ∃ a, x = .ok a

@[simp] theorem survives_ok (a : α) : Survives caught (.ok a : Except ε α) := fun _ h => by cases h

@[simp] theorem survives_error {e : ε} : Survives caught (.error e : Except ε α) ↔ caught e = true := by
  constructor
  · intro h
    exact h e rfl
  · intro h e' he
    cases he
    exact h

@[simp] theorem returns_ok (a : α) : Returns (.ok a : Except ε α) := ⟨a, rfl⟩

@[simp] theorem not_returns_error {e : ε} : ¬ Returns (.error e : Except ε α) := by
  intro h
  obtain ⟨a, h⟩ := h
  cases h

/-- What is survived of a sequence: the first part, and the second where the first
returns. -/
theorem survives_bind {x : Except ε α} {f : α → Except ε β} :
    Survives caught (x >>= f) ↔ Survives caught x ∧ ∀ a, x = .ok a → Survives caught (f a) := by
  cases x with
  | ok a =>
    constructor
    · intro h
      refine ⟨survives_ok a, ?_⟩
      intro a' ha
      cases ha
      exact h
    · intro h
      exact h.2 a rfl
  | error e =>
    show Survives caught (.error e) ↔ _
    rw [survives_error, survives_error]
    constructor
    · intro h
      exact ⟨h, fun _ ha => by cases ha⟩
    · intro h
      exact h.1

theorem returns_bind {x : Except ε α} {f : α → Except ε β} :
    Returns (x >>= f) ↔ ∃ a, x = .ok a ∧ Returns (f a) := by
  cases x with
  | ok a =>
    constructor
    · intro h
      exact ⟨a, rfl, h⟩
    · intro h
      obtain ⟨a', ha, hr⟩ := h
      cases ha
      exact hr
  | error e =>
    constructor
    · intro h
      exact absurd h not_returns_error
    · intro h
      obtain ⟨a, ha, -⟩ := h
      cases ha

theorem Survives.bind {x : Except ε α} {f : α → Except ε β} (hx : Survives caught x)
    (hf : ∀ a, Survives caught (f a)) : Survives caught (x >>= f) :=
  survives_bind.mpr ⟨hx, fun a _ => hf a⟩

/-- The rules for a second part whose outcome is the same for every value of the first. -/
theorem survives_seq {x : Except ε α} {f : α → Except ε β} {P : Prop}
    (hf : ∀ a, Survives caught (f a) ↔ P) :
    Survives caught (x >>= f) ↔ Survives caught x ∧ (Returns x → P) := by
  rw [survives_bind]
  constructor
  · intro h
    refine ⟨h.1, ?_⟩
    intro hr
    obtain ⟨a, ha⟩ := hr
    exact (hf a).mp (h.2 a ha)
  · intro h
    exact ⟨h.1, fun a ha => (hf a).mpr (h.2 ⟨a, ha⟩)⟩

theorem returns_seq {x : Except ε α} {f : α → Except ε β} {P : Prop}
    (hf : ∀ a, Returns (f a) ↔ P) : Returns (x >>= f) ↔ Returns x ∧ P := by
  rw [returns_bind]
  constructor
  · intro h
    obtain ⟨a, ha, hr⟩ := h
    exact ⟨⟨a, ha⟩, (hf a).mp hr⟩
  · intro h
    obtain ⟨a, ha⟩ := h.1
    exact ⟨a, ha, (hf a).mpr h.2⟩

/-- A step that is passed over unless `b`. -/
theorem survives_unless {b : Bool} {a : α} {y : Except ε α} :
    Survives caught (if !b then pure a else y) ↔ (b = true → Survives caught y) := by
  cases b with
  | true => simp
  | false => simp [pure, Except.pure]

theorem returns_unless {b : Bool} {a : α} {y : Except ε α} :
    Returns (if !b then pure a else y) ↔ (b = true → Returns y) := by
  cases b with
  | true => simp
  | false => simp [pure, Except.pure]

/-! ## Loops -/

theorem survives_foldlM {f : β → α → Except ε β} (hf : ∀ b a, Survives caught (f b a)) :
    ∀ (l : List α) (b : β), Survives caught (l.foldlM f b)
  | [], b => survives_ok b
  | a :: l, b => by
    rw [List.foldlM_cons, survives_bind]
    exact ⟨hf b a, fun b' _ => survives_foldlM hf l b'⟩

/-- A loop returns when every pass does. -/
theorem returns_foldlM {f : β → α → Except ε β} {P : α → Prop}
    (hf : ∀ b a, Returns (f b a) ↔ P a) :
    ∀ (l : List α) (b : β), Returns (l.foldlM f b) ↔ ∀ a ∈ l, P a
  | [], b => by
    constructor
    · intro _ a ha
      cases ha
    · intro _
      exact returns_ok b
  | a :: l, b => by
    rw [List.foldlM_cons, returns_bind, List.forall_mem_cons]
    constructor
    · intro h
      obtain ⟨b', hb, hr⟩ := h
      exact ⟨(hf b a).mp ⟨b', hb⟩, (returns_foldlM hf l b').mp hr⟩
    · intro h
      obtain ⟨b', hb⟩ := (hf b a).mpr h.1
      exact ⟨b', hb, (returns_foldlM hf l b').mpr h.2⟩

/-- A loop is survived when no pass that is reached, because the passes before it
return, throws what is not caught. -/
theorem survives_foldlM_iff {f : β → α → Except ε β} {P F : α → Prop}
    (hP : ∀ b a, Returns (f b a) ↔ P a) (hF : ∀ b a, Survives caught (f b a) ↔ F a) :
    ∀ (l : List α) (b : β), Survives caught (l.foldlM f b) ↔
      ∀ before a after, l = before ++ a :: after → (∀ x ∈ before, P x) → F a
  | [], b => by
    constructor
    · intro _ before a after h
      cases before with
      | nil => cases h
      | cons x before => cases h
    · intro _
      exact survives_ok b
  | a :: l, b => by
    rw [List.foldlM_cons, survives_bind]
    constructor
    · intro h before x after hl hbefore
      cases before with
      | nil =>
        cases hl
        exact (hF b a).mp h.1
      | cons y before =>
        cases hl
        obtain ⟨b', hb⟩ := (hP b a).mpr (hbefore a List.mem_cons_self)
        exact (survives_foldlM_iff hP hF _ b').mp (h.2 b' hb) before x after rfl
          (fun z hz => hbefore z (List.mem_cons_of_mem a hz))
    · intro h
      refine ⟨(hF b a).mpr (h [] a l rfl (fun _ hx => by cases hx)), ?_⟩
      intro b' hb
      rw [survives_foldlM_iff hP hF l b']
      intro before x after hl hbefore
      refine h (a :: before) x after (by rw [hl]; rfl) ?_
      intro z hz
      cases List.mem_cons.mp hz with
      | inl hz => rw [hz]; exact (hP b a).mp ⟨b', hb⟩
      | inr hz => exact hbefore z hz

end Effects
