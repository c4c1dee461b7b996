import Mathlib.Data.Set.Insert

/- The write-ahead discipline, over any kind of resource. At an instant some
   resources are `live`: they differ from how they were found. A log on stable
   storage and, while a process holds it, a copy in memory name resources. The
   discipline is that both name every live resource (`Covered`); the lemmas
   below are the moves that keep it. Naming is free, changing a resource needs
   it named in both places first, and a name may only be struck in memory once
   the resource is no longer live. -/
namespace Effects

/-- The live resources, and those the log on disk and the log in memory name. -/
structure Log (ρ : Type) where
  live : Set ρ
  disk : Set ρ
  held : Option (Set ρ)

/-- Every live resource is named on disk, and in memory if a log is held. -/
structure Log.Covered {ρ : Type} (l : Log ρ) : Prop where
  disk : l.live ⊆ l.disk
  held : ∀ h, l.held = some h → l.live ⊆ h

namespace Log.Covered
variable {ρ : Type} {live live' disk h h' : Set ρ} {held : Option (Set ρ)}

/-- The process dies: the log in memory is gone. -/
theorem forget (c : Covered ⟨live, disk, held⟩) : Covered ⟨live, disk, none⟩ :=
  ⟨c.disk, by simp⟩

/-- A fresh process reads the log. -/
theorem load (c : Covered ⟨live, disk, held⟩) : Covered ⟨live, disk, some disk⟩ :=
  ⟨c.disk, by rintro _ ⟨⟩; exact c.disk⟩

/-- Name more resources in memory. -/
theorem note (c : Covered ⟨live, disk, some h⟩) (hh : h ⊆ h') : Covered ⟨live, disk, some h'⟩ :=
  ⟨c.disk, by rintro _ ⟨⟩; exact (c.held h rfl).trans hh⟩

/-- Write the log in memory to disk. -/
theorem flush (c : Covered ⟨live, disk, some h⟩) : Covered ⟨live, h, some h⟩ :=
  ⟨c.held h rfl, by rintro _ ⟨⟩; exact c.held h rfl⟩

/-- Change a resource that is named in both places. -/
theorem change {r : ρ} (c : Covered ⟨live, disk, some h⟩) (hl : live' ⊆ insert r live)
    (hd : r ∈ disk) (hh : r ∈ h) : Covered ⟨live', disk, some h⟩ := by
  refine ⟨?_, ?_⟩
  · intro x hx
    rcases hl hx with rfl | hx
    · exact hd
    · exact c.disk hx
  · intro _ he x hx
    cases he
    rcases hl hx with rfl | hx
    · exact hh
    · exact c.held h rfl hx

/-- Undo changes, with or without a log in memory. -/
theorem undo (c : Covered ⟨live, disk, held⟩) (hl : live' ⊆ live) : Covered ⟨live', disk, held⟩ :=
  ⟨hl.trans c.disk, fun h hh => hl.trans (c.held h hh)⟩

/-- Strike names in memory, none of them of a live resource. -/
theorem strike (c : Covered ⟨live, disk, some h⟩) (hh : ∀ x ∈ h, x ∉ h' → x ∉ live) :
    Covered ⟨live, disk, some h'⟩ := by
  refine ⟨c.disk, ?_⟩
  intro _ he x hx
  cases he
  by_contra hx'
  exact hh x (c.held h rfl hx) hx' hx

/-- With nothing named in memory, nothing is live: the log may go. -/
theorem clear (c : Covered ⟨live, disk, some h⟩) (hh : h = ∅) : Covered ⟨live, ∅, some h⟩ :=
  ⟨hh ▸ c.held h rfl, c.held⟩

/-- Without a log on disk, every resource is as it was found. -/
theorem live_empty (c : Covered ⟨live, ∅, held⟩) : live = ∅ :=
  Set.subset_empty_iff.mp c.disk

/-- Nothing live and nothing named: a log may begin. -/
theorem start (c : Covered ⟨live, ∅, held⟩) : Covered ⟨live, ∅, some h⟩ :=
  ⟨c.disk, fun _ _ => by simp only [c.live_empty]; exact Set.empty_subset _⟩

end Log.Covered

end Effects
