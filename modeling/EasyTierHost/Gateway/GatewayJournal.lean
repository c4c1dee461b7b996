import EasyTierHost.Effects.WriteAhead
import EasyTierHost.Gateway.GatewayBootstrapper

/- The gateway journal as a write-ahead log over two resources, forwarding and
   NAT. `GatewayInv` is the invariant of a world whose forwarding was `f₀` and
   whose NAT objects were `n₀` before any gateway was started; the lemmas are the
   moves of the bootstrapper that keep it. The one move that is not here is
   deleting the file of a journal this instance does not hold. -/
namespace EasyTierHost
open Effects Effects.Prog GatewayBootstrapper

/-- What a gateway transaction changes. -/
inductive GatewayResource where
  | forwarding
  | nat

/-- The resources a journal names. -/
def GatewayJournal.names {F : Type} (j : GatewayJournal F) : Set GatewayResource :=
  fun x => match x with
  | .forwarding => j.forwardingMayHaveChanged = true
  | .nat => j.natMayExist = true

namespace GatewayWorld
variable {F : Type}

/-- The resources that differ from `f₀` and `n₀`. -/
def live (f₀ : F) (n₀ : List String) (w : GatewayWorld F) : Set GatewayResource :=
  fun x => match x with
  | .forwarding => w.forwarding ≠ f₀
  | .nat => w.nat ≠ n₀

/-- The world as a write-ahead log. -/
def log (f₀ : F) (n₀ : List String) (w : GatewayWorld F) : Log GatewayResource :=
  ⟨w.live f₀ n₀, (w.file.map GatewayJournal.names).getD ∅, w.journal.map GatewayJournal.names⟩

end GatewayWorld

/-- A journal of the present transaction: it knows how forwarding was, and the NAT
objects are the original ones with or without its own. -/
structure GatewayJournal.Sound {F : Type} (f₀ : F) (n₀ nat : List String) (j : GatewayJournal F) : Prop where
  forwarding : j.snapshot.forwarding = f₀
  fresh : j.snapshot.resourceName ∉ n₀
  nat : nat = n₀ ∨ nat = j.snapshot.resourceName :: n₀

/-- The flags have no part in it. -/
theorem GatewayJournal.Sound.of_snapshot {F : Type} {f₀ : F} {n₀ nat : List String} {j j' : GatewayJournal F}
    (h : j.Sound f₀ n₀ nat) (hs : j'.snapshot = j.snapshot) : j'.Sound f₀ n₀ nat :=
  ⟨hs ▸ h.forwarding, hs ▸ h.fresh, hs ▸ h.nat⟩

structure GatewayInv {F : Type} (f₀ : F) (n₀ : List String) (w : GatewayWorld F) : Prop where
  covered : (w.log f₀ n₀).Covered
  file : ∀ j, w.file = some j → j.Sound f₀ n₀ w.nat
  journal : ∀ j, w.journal = some j → j.Sound f₀ n₀ w.nat
  -- a journal with a flag raised has reached the disk
  anchored : ∀ j, w.journal = some j → w.file = none →
    j.forwardingMayHaveChanged = false ∧ j.natMayExist = false

namespace GatewayInv
variable {F : Type} {f₀ : F} {n₀ : List String} {w : GatewayWorld F} {j j' : GatewayJournal F}

/-- Without a journal file everything is as it was. -/
theorem restored (h : GatewayInv f₀ n₀ w) (hf : w.file = none) : w.forwarding = f₀ ∧ w.nat = n₀ := by
  have c := h.covered
  simp only [GatewayWorld.log, hf, Option.map_none, Option.getD_none] at c
  have hlive : ∀ x, x ∉ w.live f₀ n₀ := by
    intro x hx
    rw [c.live_empty] at hx
    exact hx
  exact ⟨not_not.mp (hlive .forwarding), not_not.mp (hlive .nat)⟩

/-- A new instance, in this process or the next. -/
theorem forget (h : GatewayInv f₀ n₀ w) : GatewayInv f₀ n₀ { w with journal := none } where
  covered := h.covered.forget
  file := h.file
  journal := fun _ hj => by simp at hj
  anchored := fun _ hj => by simp at hj

theorem save (h : GatewayInv f₀ n₀ w) (hj : w.journal = some j) :
    GatewayInv f₀ n₀ { w with file := some j } where
  covered := by
    have c := h.covered
    simp only [GatewayWorld.log, hj, Option.map_some] at c ⊢
    exact c.flush
  file := by
    intro j' hj'
    cases hj'
    exact h.journal j hj
  journal := h.journal
  anchored := fun _ _ hf => by simp at hf

theorem load (h : GatewayInv f₀ n₀ w) (hj : w.file = some j) :
    GatewayInv f₀ n₀ { w with journal := some j } where
  covered := by
    have c := h.covered
    simp only [GatewayWorld.log, hj, Option.map_some, Option.getD_some] at c ⊢
    exact c.load
  file := h.file
  journal := by
    intro j' hj'
    cases hj'
    exact h.file j hj
  anchored := fun _ _ hf => by simp [hj] at hf

/-- Raising flags in memory. -/
theorem note (h : GatewayInv f₀ n₀ w) (hj : w.journal = some j) (hf : w.file.isSome)
    (hs : j'.snapshot = j.snapshot) (hn : j.names ⊆ j'.names) :
    GatewayInv f₀ n₀ { w with journal := some j' } where
  covered := by
    have c := h.covered
    simp only [GatewayWorld.log, hj, Option.map_some] at c ⊢
    exact c.note hn
  file := h.file
  journal := by
    intro j'' hj''
    cases hj''
    exact (h.journal j hj).of_snapshot hs
  anchored := fun _ _ hf' => by
    change w.file = none at hf'
    simp [hf'] at hf

/-- Beginning a transaction where none is open. -/
theorem begin {s : GatewayPlatformSnapshot F} (h : GatewayInv f₀ n₀ w) (hf : w.file = none)
    (hs : s.forwarding = w.forwarding) (hfresh : s.resourceName ∉ n₀) :
    GatewayInv f₀ n₀ { w with journal := some ⟨s, false, false⟩ } where
  covered := by
    have c := h.covered
    simp only [GatewayWorld.log, hf, Option.map_none, Option.getD_none, Option.map_some] at c ⊢
    exact c.start
  file := h.file
  journal := by
    intro j hj
    cases hj
    exact ⟨hs.trans (h.restored hf).1, hfresh, Or.inl (h.restored hf).2⟩
  anchored := by
    intro j hj _
    cases hj
    exact ⟨rfl, rfl⟩

/-- Changing forwarding where both journals say it may have changed. -/
theorem enableForwarding {f : F} (h : GatewayInv f₀ n₀ w) (hj : w.journal = some j) (hf : w.file = some j')
    (hc : j.forwardingMayHaveChanged = true) (hc' : j'.forwardingMayHaveChanged = true) :
    GatewayInv f₀ n₀ { w with forwarding := f } where
  covered := by
    have c := h.covered
    simp only [GatewayWorld.log, hj, hf, Option.map_some, Option.getD_some] at c ⊢
    refine c.change (r := .forwarding) ?_ hc' hc
    intro x hx
    cases x with
    | forwarding => exact Or.inl rfl
    | nat => exact Or.inr hx
  file := h.file
  journal := h.journal
  anchored := h.anchored

/-- Creating the transaction's NAT object where both journals say it may exist. -/
theorem createNat (h : GatewayInv f₀ n₀ w) (hj : w.journal = some j) (hf : w.file = some j')
    (hs : j'.snapshot = j.snapshot) (hn : w.nat = n₀) (hc : j.natMayExist = true)
    (hc' : j'.natMayExist = true) :
    GatewayInv f₀ n₀ { w with nat := j.snapshot.resourceName :: w.nat } where
  covered := by
    have c := h.covered
    simp only [GatewayWorld.log, hj, hf, Option.map_some, Option.getD_some] at c ⊢
    refine c.change (r := .nat) ?_ hc' hc
    intro x hx
    cases x with
    | forwarding => exact Or.inr hx
    | nat => exact Or.inl rfl
  file := by
    intro j'' hj''
    have he : j'' = j' := Option.some.inj (hj''.symm.trans hf)
    subst he
    have hsound := h.file j'' hf
    exact ⟨hsound.forwarding, hsound.fresh, Or.inr (by rw [hs, hn])⟩
  journal := by
    intro j'' hj''
    have he : j'' = j := Option.some.inj (hj''.symm.trans hj)
    subst he
    have hsound := h.journal j'' hj
    exact ⟨hsound.forwarding, hsound.fresh, Or.inr (by rw [hn])⟩
  anchored := h.anchored

/-- Moving forwarding, but not away from how it was. -/
theorem restoreForwarding {f : F} (h : GatewayInv f₀ n₀ w) (hf : w.forwarding = f₀ → f = f₀) :
    GatewayInv f₀ n₀ { w with forwarding := f } where
  covered := by
    refine h.covered.undo ?_
    intro x hx
    cases x with
    | forwarding => exact fun he => hx (hf he)
    | nat => exact hx
  file := h.file
  journal := h.journal
  anchored := h.anchored

/-- Putting the NAT objects back as they were. -/
theorem removeNat (h : GatewayInv f₀ n₀ w) : GatewayInv f₀ n₀ { w with nat := n₀ } where
  covered := by
    refine h.covered.undo ?_
    intro x hx
    cases x with
    | forwarding => exact hx
    | nat => exact absurd rfl hx
  file := fun j hj => ⟨(h.file j hj).forwarding, (h.file j hj).fresh, Or.inl rfl⟩
  journal := fun j hj => ⟨(h.journal j hj).forwarding, (h.journal j hj).fresh, Or.inl rfl⟩
  anchored := h.anchored

/-- Clearing flags in memory, none of them of a resource that is still changed. -/
theorem strike (h : GatewayInv f₀ n₀ w) (hj : w.journal = some j) (hs : j'.snapshot = j.snapshot)
    (hsub : j'.names ⊆ j.names) (hn : ∀ x ∈ j.names, x ∉ j'.names → x ∉ w.live f₀ n₀) :
    GatewayInv f₀ n₀ { w with journal := some j' } where
  covered := by
    have c := h.covered
    simp only [GatewayWorld.log, hj, Option.map_some] at c ⊢
    exact c.strike hn
  file := h.file
  journal := by
    intro j'' hj''
    cases hj''
    exact (h.journal j hj).of_snapshot hs
  anchored := by
    intro j'' hj'' hf
    cases hj''
    obtain ⟨hfw, hnat⟩ := h.anchored j hj hf
    refine ⟨Bool.eq_false_iff.mpr (fun hc => ?_), Bool.eq_false_iff.mpr (fun hc => ?_)⟩
    · have hnamed : j.forwardingMayHaveChanged = true := hsub (show .forwarding ∈ j'.names from hc)
      simp [hfw] at hnamed
    · have hnamed : j.natMayExist = true := hsub (show .nat ∈ j'.names from hc)
      simp [hnat] at hnamed

/-- Deleting the file while the journal in memory names nothing. -/
theorem deleteFile (h : GatewayInv f₀ n₀ w) (hj : w.journal = some j)
    (hf : j.forwardingMayHaveChanged = false) (hn : j.natMayExist = false) :
    GatewayInv f₀ n₀ { w with file := none } where
  covered := by
    have c := h.covered
    simp only [GatewayWorld.log, hj, Option.map_some, Option.map_none, Option.getD_none] at c ⊢
    refine c.clear (Set.eq_empty_iff_forall_notMem.mpr (fun x hx => ?_))
    cases x with
    | forwarding => exact absurd (show j.forwardingMayHaveChanged = true from hx) (by simp [hf])
    | nat => exact absurd (show j.natMayExist = true from hx) (by simp [hn])
  file := fun _ hf => by simp at hf
  journal := h.journal
  anchored := by
    intro j' hj' _
    have he : j' = j := Option.some.inj (hj'.symm.trans hj)
    subst he
    exact ⟨hf, hn⟩

end GatewayInv

end EasyTierHost
