import Mathlib.Data.List.Infix
import Mathlib.Tactic.Common

/- A file tree by its paths: what stands at each of them, a file with its contents or
   a directory. The operations are what a command leaves when it succeeds; `Leaves`
   is their frame, "whatever is at the path or below it stays". Two paths are apart
   when neither is the other nor inside it, which is what the frames ask for. -/
namespace Effects

variable {N B : Type}

inductive Node (B : Type) where
  | file (contents : B)
  | directory
  deriving DecidableEq, Repr

/-- What stands at each path. -/
abbrev Tree (N B : Type) := List N → Option (Node B)

/-- Neither path is the other or inside it. -/
def Apart (a b : List N) : Prop := ¬a <+: b ∧ ¬b <+: a

instance [DecidableEq N] (a b : List N) : Decidable (Apart a b) :=
  inferInstanceAs (Decidable (¬a <+: b ∧ ¬b <+: a))

theorem Apart.symm {a b : List N} (h : Apart a b) : Apart b a := ⟨h.2, h.1⟩

/-- Nothing below `a` is below `b`. -/
theorem Apart.not_below {a b : List N} (h : Apart a b) (r : List N) : ¬b <+: a ++ r := by
  intro hb
  cases List.prefix_or_prefix_of_prefix hb (List.prefix_append a r) with
  | inl hp =>
    exact h.2 hp
  | inr hp =>
    exact h.1 hp

/-- What is inside `b` is apart from what `b` is apart from. -/
theorem Apart.below {a b c : List N} (h : Apart a b) (hc : b <+: c) : Apart a c := by
  constructor
  · intro hp
    cases List.prefix_or_prefix_of_prefix hp hc with
    | inl hp =>
      exact h.1 hp
    | inr hp =>
      exact h.2 hp
  · intro hp
    exact h.2 (hc.trans hp)

/-- `f` leaves `p` and what is below it as it is. -/
def Leaves (p : List N) (f : Tree N B → Tree N B) : Prop := ∀ t r, f t (p ++ r) = t (p ++ r)

theorem Leaves.at {p : List N} {f : Tree N B → Tree N B} (h : Leaves p f) (t : Tree N B) :
    f t p = t p := by
  have hp := h t []
  rwa [List.append_nil] at hp

theorem Leaves.id (p : List N) : Leaves p (id : Tree N B → Tree N B) := fun _ _ => rfl

/-- A tree in which what has something below it is a directory. -/
def Closed (t : Tree N B) : Prop := ∀ p n, t (p ++ [n]) ≠ none → t p = some .directory

theorem Closed.below_none {t : Tree N B} (h : Closed t) {p : List N} (hp : t p = none) :
    ∀ r, t (p ++ r) = none := by
  intro r
  induction r using List.reverseRecOn with
  | nil => rw [List.append_nil]; exact hp
  | append_singleton r n ih =>
    by_contra hne
    rw [← List.append_assoc] at hne
    rw [h (p ++ r) n hne] at ih
    cases ih

/-- What has something in it is a directory. -/
theorem Closed.above {t : Tree N B} (h : Closed t) {p r : List N} (hr : r ≠ [])
    (hne : t (p ++ r) ≠ none) : t p = some .directory := by
  cases r with
  | nil => exact absurd rfl hr
  | cons n r =>
    apply h p n
    intro hnone
    apply hne
    rw [List.append_cons]
    exact h.below_none hnone r

/-! ## Operations -/

/-- Where something called like `a` goes when it is moved or copied to `b`: into a
directory, else to `b` itself. -/
def target (a b : List N) (t : Tree N B) : List N :=
  match t b, a.getLast? with
  | some .directory, some n => b ++ [n]
  | _, _ => b

theorem prefix_target (a b : List N) (t : Tree N B) : b <+: target a b t := by
  unfold target
  split
  · exact List.prefix_append b _
  · exact List.prefix_rfl

theorem target_eq {a b : List N} {t : Tree N B} (h : t b = none) : target a b t = b := by
  simp [target, h]

section Operations
variable [DecidableEq N]

/-- Remove what is at `a` and below it. -/
def remove (a : List N) (t : Tree N B) : Tree N B := fun p => if a <+: p then none else t p

/-- Move what is at `a` and below it to `b`. -/
def move (a b : List N) (t : Tree N B) : Tree N B := fun p =>
  if target a b t <+: p then t (a ++ p.drop (target a b t).length)
  else if a <+: p then none else t p

theorem remove_at (a r : List N) (t : Tree N B) : remove a t (a ++ r) = none :=
  if_pos (List.prefix_append a r)

theorem remove_none {a p : List N} {t : Tree N B} (h : t p = none) : remove a t p = none := by
  unfold remove
  split
  · rfl
  · exact h

theorem remove_of_none {a : List N} {t : Tree N B} (h : ∀ r, t (a ++ r) = none) : remove a t = t := by
  funext p
  by_cases hp : a <+: p
  · obtain ⟨r, rfl⟩ := hp
    rw [remove_at, h r]
  · exact if_neg hp

theorem Leaves.remove {p a : List N} (h : Apart p a) : Leaves p (remove a : Tree N B → Tree N B) :=
  fun _ r => if_neg (h.not_below r)

theorem move_to {a b : List N} {t : Tree N B} (h : t b = none) (r : List N) :
    move a b t (b ++ r) = t (a ++ r) := by
  rw [move, target_eq h, if_pos (List.prefix_append b r), List.drop_left]

theorem move_from {a b : List N} {t : Tree N B} (h : t b = none) (hab : Apart a b) (r : List N) :
    move a b t (a ++ r) = none := by
  rw [move, target_eq h, if_neg (hab.not_below r), if_pos (List.prefix_append a r)]

theorem move_other {a b p : List N} {t : Tree N B} (h : t b = none) (ha : ¬a <+: p) (hb : ¬b <+: p) :
    move a b t p = t p := by
  rw [move, target_eq h, if_neg hb, if_neg ha]

/-- Nothing comes to be where nothing is moved to. -/
theorem move_none {a b p : List N} {t : Tree N B} (hb : ¬b <+: p) (h : t p = none) : move a b t p = none := by
  rw [move, if_neg (fun ht => hb ((prefix_target a b t).trans ht)), h, ite_self]

theorem Leaves.move {p a b : List N} (ha : Apart p a) (hb : Apart p b) :
    Leaves p (move a b : Tree N B → Tree N B) := by
  intro t r
  have ht := (hb.below (prefix_target a b t)).not_below r
  rw [Effects.move, if_neg ht, if_neg (ha.not_below r)]

end Operations

end Effects
