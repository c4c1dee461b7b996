import EasyTierHost.Deployment.DeploymentValidation
import EasyTierHost.Effects.FileTree
import EasyTierHost.Effects.Runs

/- The three things an install script replaces on a node, and the two parts the
   scripts of both installers share: moving them to their backups, and the rollback
   that moves them back. A script is a program over the node's file tree; a command
   succeeds with its effect or, if it is the one that fails, throws without any. The
   two systems differ in the tests they make (`present`). -/
namespace EasyTierHost
open Effects

abbrev RemotePath := List String

abbrev RemoteTree := Tree String (List UInt8)

/-- What an installation replaces. -/
inductive Replaced where
  | install | profile | secret
  deriving DecidableEq, Repr

/-- In the order the scripts treat them. -/
def Replaced.all : List Replaced := [.install, .profile, .secret]

/-- Those treated before it. -/
def Replaced.before : Replaced → List Replaced
  | .install => []
  | .profile => [.install]
  | .secret => [.install, .profile]

theorem Replaced.before_eq {done left : List Replaced} {o : Replaced} (h : all = done ++ o :: left) :
    o.before = done := by
  match done, h with
  | [], h => cases h; rfl
  | [_], h => cases h; rfl
  | [_, _], h => cases h; rfl
  | _ :: _ :: _ :: _, h => simp [all] at h

/-- None is treated twice. -/
theorem Replaced.not_mem_done {done left : List Replaced} {o : Replaced}
    (h : all = done ++ o :: left) : o ∉ done := by
  have hnodup : (done ++ o :: left).Nodup := h ▸ (by decide : all.Nodup)
  intro hd
  exact (List.nodup_append.mp hnodup).2.2 o hd o List.mem_cons_self rfl

/-- Where the names of a script lead on the node. -/
structure RemoteLayout where
  path : Replaced → RemotePath
  backup : Replaced → RemotePath
  incoming : RemotePath
  stagedProfile : RemotePath
  stagedSecret : RemotePath
  stage : RemotePath

/-- The node before the script: each of the three is absent, or is what it should be. -/
structure RemoteLayout.Initial (l : RemoteLayout) (t : RemoteTree) : Prop where
  closed : Effects.Closed t
  install : t (l.path .install) = none ∨ t (l.path .install) = some .directory
  profile : t (l.path .profile) = none ∨ ∃ b, t (l.path .profile) = some (.file b)
  secret : t (l.path .secret) = none ∨ ∃ b, t (l.path .secret) = some (.file b)

/-- The contents of the three are those of `t₀`. -/
def RemoteLayout.Restored (l : RemoteLayout) (t₀ t : RemoteTree) : Prop :=
  ∀ o r, t (l.path o ++ r) = t₀ (l.path o ++ r)

theorem RemoteLayout.Restored.keep {l : RemoteLayout} {t₀ t : RemoteTree} {f : RemoteTree → RemoteTree}
    (h : l.Restored t₀ t) (hf : ∀ o, Leaves (l.path o) f) : l.Restored t₀ (f t) := by
  intro o r
  rw [hf o t r]
  exact h o r

/-! ## Commands -/

/-- A script with commands `C`. -/
abbrev RemoteScript (C : Type) := Prog C Unit RemoteTree Unit

section Commands
variable {C : Type} [DecidableEq C] (failing : C)

/-- A command of the script. -/
def command (c : C) (f : RemoteTree → RemoteTree) : RemoteScript C Unit :=
  if c = failing then Prog.raise () else Prog.effect c f

/-- `if (b) { … }`. -/
def onlyIf (b : Bool) (x : RemoteScript C Unit) : RemoteScript C Unit := if b then x else Prog.ret ()

variable {failing} {Q : Unit → RemoteTree → Prop} {X : Unit → RemoteTree → Prop} {t : RemoteTree}

theorem command_runs {c : C} {f : RemoteTree → RemoteTree} (hX : c = failing → X () t)
    (hQ : c ≠ failing → Q () (f t)) : Freely (command failing c f) Q X t :=
  Runs.ite (fun h => Runs.raise (hX h)) (fun h => Runs.effect trivial (hQ h))

omit [DecidableEq C] in
theorem onlyIf_runs {b : Bool} {x : RemoteScript C Unit} (hx : b = true → Freely x Q X t)
    (hskip : b = false → Q () t) : Freely (onlyIf b x) Q X t := by
  cases b with
  | true => exact hx rfl
  | false => exact Runs.ret (hskip rfl)

end Commands

/-! ## Parts of a script that keep an invariant -/

section Kept
variable {C : Type} [DecidableEq C] {failing : C} {I : RemoteTree → Prop} {P : Prop} {α β : Type}

/-- A part that keeps `I`, returns only with `G` and fails only for the reason `P`. -/
def Kept (I : RemoteTree → Prop) (P : Prop) (x : RemoteScript C α) (G : α → Prop) : Prop :=
  ∀ t, I t → Freely x (fun a t => I t ∧ G a) (fun _ t => I t ∧ P) t

namespace Kept
variable {G : α → Prop} {H : β → Prop}

omit [DecidableEq C] in
theorem bind {x : RemoteScript C α} {f : α → RemoteScript C β} (hx : Kept I P x G)
    (hf : ∀ a, G a → Kept I P (f a) H) : Kept I P (x >>= f) H := by
  intro t ht
  apply Runs.bind
  exact (hx t ht).mono (fun a t h => hf a h.2 t h.1) (fun _ _ h => h)

omit [DecidableEq C] in
/-- The next line. -/
theorem line {x : RemoteScript C Unit} {y : RemoteScript C β} (hx : Kept I P x (fun _ => True))
    (hy : Kept I P y H) : Kept I P (x >>= fun _ => y) H :=
  hx.bind (fun _ _ => hy)

omit [DecidableEq C] in
theorem ret {a : α} (ha : G a) : Kept I P (Prog.ret a : RemoteScript C α) G :=
  fun _ ht => Runs.ret ⟨ht, ha⟩

omit [DecidableEq C] in
theorem raise (hP : P) : Kept I P (Prog.raise () : RemoteScript C α) G :=
  fun _ ht => Runs.raise ⟨ht, hP⟩

theorem command {c : C} {f : RemoteTree → RemoteTree} (hc : c = failing → P)
    (hf : ∀ t, I t → I (f t)) : Kept I P (command failing c f) (fun _ => True) :=
  fun t ht => command_runs (fun h => ⟨ht, hc h⟩) (fun _ => ⟨hf t ht, trivial⟩)

omit [DecidableEq C] in
theorem effect {c : C} {f : RemoteTree → RemoteTree} (hf : ∀ t, I t → I (f t)) :
    Kept I P (Prog.effect c f : RemoteScript C Unit) (fun _ => True) :=
  fun t ht => Runs.effect trivial ⟨hf t ht, trivial⟩

omit [DecidableEq C] in
theorem onlyIf {b : Bool} {x : RemoteScript C Unit} {G : Unit → Prop} (hx : b = true → Kept I P x G)
    (hskip : b = false → G ()) : Kept I P (onlyIf b x) G :=
  fun t ht => onlyIf_runs (fun h => hx h t ht) (fun h => ⟨ht, hskip h⟩)

end Kept

end Kept

/-! ## The three -/

/-- Which of the three are there. -/
def RemoteLayout.has (l : RemoteLayout) (t : RemoteTree) (o : Replaced) : Bool := (t (l.path o)).isSome

theorem RemoteLayout.Initial.absent {l : RemoteLayout} {t : RemoteTree} (h : l.Initial t) {o : Replaced}
    (ho : l.has t o = false) : ∀ r, t (l.path o ++ r) = none :=
  h.closed.below_none (by simpa [RemoteLayout.has] using ho)

/-- A file has nothing in it: what is inside another of the three is inside the
install directory. -/
theorem RemoteLayout.Initial.inside {l : RemoteLayout} {t : RemoteTree} (h : l.Initial t) {o o' : Replaced}
    (ho : o ≠ .install) (ho' : l.has t o' = true) (hin : l.path o <+: l.path o') :
    l.path o = l.path o' := by
  obtain ⟨s, hs⟩ := hin
  rcases List.eq_nil_or_concat s with rfl | ⟨s, n, rfl⟩
  · rw [← hs, List.append_nil]
  · exfalso
    have hdir : t (l.path o) = some .directory := by
      apply h.closed.above (r := s.concat n) (by simp)
      intro hnone
      rw [RemoteLayout.has, ← hs, hnone] at ho'
      cases ho'
    cases o with
    | install => exact ho rfl
    | profile => rcases h.profile with h | ⟨b, h⟩ <;> (rw [hdir] at h; cases h)
    | secret => rcases h.secret with h | ⟨b, h⟩ <;> (rw [hdir] at h; cases h)

/-- What is removed as the old backup of `o'` overlaps none of the three. -/
def RemoteLayout.ClearsApart (l : RemoteLayout) (t : RemoteTree) (o' : Replaced) : Prop :=
  ∀ o, l.has t o = true → (t (l.backup o')).isSome = true → Apart (l.path o) (l.backup o')

/-- The backup of what is there overlaps nothing else that is written or removed. -/
structure RemoteLayout.OwnBackups (l : RemoteLayout) (has : Replaced → Bool) : Prop where
  path_backup : ∀ o o', has o' = true → Apart (l.path o) (l.backup o')
  backup_backup : ∀ o o', o ≠ o' → has o = true → Apart (l.backup o) (l.backup o')

/-- It is there, and not inside something that is moved before it. -/
def RemoteLayout.moves (l : RemoteLayout) (has : Replaced → Bool) (o : Replaced) : Bool :=
  has o && !o.before.any (fun o' => has o' && decide (l.path o' <+: l.path o))

theorem RemoteLayout.moves_iff {l : RemoteLayout} {has : Replaced → Bool} {o : Replaced} :
    l.moves has o = true ↔ has o = true ∧ ∀ o' ∈ o.before, has o' = true → ¬l.path o' <+: l.path o := by
  simp [moves]

section Backup
variable {C : Type} [DecidableEq C] (failing : C) (moveToBackup : Replaced → C) (l : RemoteLayout)
  (had : Replaced → Bool)

/-- Move `o` to its backup. Without `o` the command fails by itself. -/
def moveAside (o : Replaced) : RemoteScript C Unit := do
  let t ← get
  if t (l.path o) = none then Prog.raise ()
  else command failing (moveToBackup o) (move (l.path o) (l.backup o))

/-- `if had, move it to its backup`, for each of the three. -/
def backUp : RemoteScript C Unit :=
  Prog.each (fun o => onlyIf (had o) (moveAside failing moveToBackup l o)) Replaced.all

/-- The tree after `done` have been backed up: they are at their backups, what was
inside them is gone with them, the rest is where it was. -/
structure BackedUp (t₀ : RemoteTree) (done : List Replaced) (t : RemoteTree) : Prop where
  moved : ∀ o ∈ done, had o = true → l.moves had o = true
  saved : ∀ o ∈ done, had o = true → ∀ r, t (l.backup o ++ r) = t₀ (l.path o ++ r)
  gone : ∀ o ∈ done, had o = true → ∀ r, t (l.path o ++ r) = none
  same : ∀ o r, (∀ o' ∈ done, had o' = true → ¬l.path o' <+: l.path o ++ r) →
    t (l.path o ++ r) = t₀ (l.path o ++ r)
  free : ∀ o, o ∉ done ∨ had o = false → t (l.backup o) = none

variable {failing moveToBackup l had} {t₀ t : RemoteTree} {Q X : Unit → RemoteTree → Prop}

omit [DecidableEq C] in
/-- Before the first of them. -/
theorem BackedUp.start (hsame : l.Restored t₀ t) (hfree : ∀ o, t (l.backup o) = none) :
    BackedUp l had t₀ [] t where
  moved _ hm := absurd hm List.not_mem_nil
  saved _ hm := absurd hm List.not_mem_nil
  gone _ hm := absurd hm List.not_mem_nil
  same o r _ := hsame o r
  free o _ := hfree o

omit [DecidableEq C] in
/-- One of them is moved that overlaps none that was moved before. -/
theorem BackedUp.move (hl : l.OwnBackups (l.moves had)) {done left : List Replaced}
    (h : BackedUp l had t₀ done t) {o : Replaced} (hall : Replaced.all = done ++ o :: left)
    (ho : had o = true) (hapart : ∀ o' ∈ done, had o' = true → Apart (l.path o') (l.path o)) :
    BackedUp l had t₀ (done ++ [o]) (move (l.path o) (l.backup o) t) := by
  have hnew := Replaced.not_mem_done hall
  have hfree := h.free o (.inl hnew)
  have hmoves : l.moves had o = true := by
    refine RemoteLayout.moves_iff.mpr ⟨ho, ?_⟩
    rw [Replaced.before_eq hall]
    exact fun o' hd ho' => (hapart o' hd ho').1
  constructor
  · intro o' hm hh
    cases List.mem_append.mp hm with
    | inl hm =>
      exact h.moved o' hm hh
    | inr hm =>
      rw [List.mem_singleton.mp hm]
      exact hmoves
  · intro o' hm hh r
    cases List.mem_append.mp hm with
    | inl hm =>
      have hne : o' ≠ o := fun he => hnew (he ▸ hm)
      have hmoved := h.moved o' hm hh
      rw [Leaves.move (hl.path_backup o o' hmoved).symm (hl.backup_backup o' o hne hmoved) t r]
      exact h.saved o' hm hh r
    | inr hm =>
      rw [List.mem_singleton.mp hm, move_to hfree]
      apply h.same o
      intro o₁ hd hh₁
      exact (hapart o₁ hd hh₁).symm.not_below r
  · intro o' hm hh r
    cases List.mem_append.mp hm with
    | inl hm =>
      rw [Leaves.move (hapart o' hm hh) (hl.path_backup o' o hmoves) t r]
      exact h.gone o' hm hh r
    | inr hm =>
      rw [List.mem_singleton.mp hm]
      exact move_from hfree (hl.path_backup o o hmoves) r
  · intro o' r hm
    have hout : ¬l.path o <+: l.path o' ++ r := hm o (List.mem_append_right _ List.mem_cons_self) ho
    rw [move_other hfree hout ((hl.path_backup o' o hmoves).not_below r)]
    exact h.same o' r (fun o₁ hd => hm o₁ (List.mem_append_left _ hd))
  · intro o' hm
    have hother : o ≠ o' ∧ (o' ∉ done ∨ had o' = false) := by
      cases hm with
      | inl hm =>
        exact ⟨fun he => hm (he ▸ List.mem_append_right _ List.mem_cons_self),
          .inl (fun hd => hm (List.mem_append_left _ hd))⟩
      | inr hm =>
        refine ⟨?_, .inr hm⟩
        intro heq
        rw [← heq, ho] at hm
        cases hm
    exact move_none (hl.backup_backup o o' hother.1 hmoves).1 (h.free o' hother.2)

omit [DecidableEq C] in
/-- What was there and is still in its place overlaps none that was moved. -/
theorem BackedUp.apart (ht : l.Initial t₀) {done left : List Replaced} {o : Replaced}
    (h : BackedUp l (l.has t₀) t₀ done t) (hall : Replaced.all = done ++ o :: left)
    (hsome : t (l.path o) ≠ none) :
    ∀ o' ∈ done, l.has t₀ o' = true → Apart (l.path o') (l.path o) := by
  intro o' hd ho'
  have hnot : ¬l.path o' <+: l.path o := by
    intro ⟨s, hs⟩
    exact hsome (hs ▸ h.gone o' hd ho' s)
  refine ⟨hnot, ?_⟩
  intro hin
  have hne : o ≠ .install := by
    rintro rfl
    rw [← Replaced.before_eq hall] at hd
    cases hd
  exact hnot (ht.inside hne ho' hin ▸ List.prefix_rfl)

omit [DecidableEq C] in
/-- What was there and is gone from its place was inside one that was moved. -/
theorem BackedUp.inside {done : List Replaced} {o : Replaced} (h : BackedUp l (l.has t₀) t₀ done t)
    (ho : l.has t₀ o = true) (hnone : t (l.path o) = none) :
    ∃ o' ∈ done, l.has t₀ o' = true ∧ l.path o' <+: l.path o := by
  by_contra hnot
  have hr := h.same o [] (by
    rw [List.append_nil]
    exact fun o' hd ho' hin => hnot ⟨o', hd, ho', hin⟩)
  rw [List.append_nil, hnone] at hr
  rw [RemoteLayout.has, ← hr] at ho
  cases ho

omit [DecidableEq C] in
/-- While nothing was moved, all is as it was. -/
theorem BackedUp.restored {done : List Replaced} (h : BackedUp l had t₀ done t)
    (hnone : ∀ o ∈ done, had o = false) : l.Restored t₀ t := by
  intro o r
  apply h.same o r
  intro o' hd ho'
  rw [hnone o' hd] at ho'
  cases ho'

/-- The backups hold what there was; where nothing else is placed there is no other. -/
structure Saved (l : RemoteLayout) (had : Replaced → Bool) (t₀ t : RemoteTree) : Prop where
  saved : ∀ o, had o = true → ∀ r, t (l.backup o ++ r) = t₀ (l.path o ++ r)
  free : ∀ o, had o = false → (∀ o', Apart (l.path o') (l.backup o)) → t (l.backup o) = none

/-- `f` leaves the backups that nothing else overlaps, and makes none. -/
def SparesBackups (l : RemoteLayout) (had : Replaced → Bool) (f : RemoteTree → RemoteTree) : Prop :=
  ∀ o, (∀ o', Apart (l.path o') (l.backup o)) →
    (had o = true → Leaves (l.backup o) f) ∧ ∀ t, t (l.backup o) = none → f t (l.backup o) = none

omit [DecidableEq C] in
theorem Saved.keep {f : RemoteTree → RemoteTree} (hl : l.OwnBackups had) (h : Saved l had t₀ t)
    (hf : SparesBackups l had f) : Saved l had t₀ (f t) where
  saved o ho r := by
    rw [(hf o (fun o' => hl.path_backup o' o ho)).1 ho t r]
    exact h.saved o ho r
  free o ho hapart := (hf o hapart).2 t (h.free o ho hapart)

end Backup

/-! ## Moving back -/

section Restore
variable {C : Type} (undo : Replaced → C) (present : Replaced → Option (Node (List UInt8)) → Bool)
  (l : RemoteLayout) (had : Replaced → Bool)

variable {undo present l had} {t₀ t : RemoteTree} {X : Unit → RemoteTree → Prop}

end Restore

/-! ## Atomicity -/

end EasyTierHost
