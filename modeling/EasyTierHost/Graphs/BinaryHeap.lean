import Mathlib.Data.List.Sort
import Mathlib.Data.Multiset.AddSub

/- Heaps of scored entries: what they hold as a multiset, and a `pop` that takes out one
   with the least score. Which of several it takes is left open. -/
namespace Graphs

/-- A heap of scored nodes that pops a least one. -/
structure BinaryHeap (K V : Type) [LE K] where
  Heap : Type
  new : Heap
  push : Heap → K × V → Heap
  pop : Heap → Option ((K × V) × Heap)
  items : Heap → Multiset (K × V)
  items_new : items new = 0
  items_push : ∀ h x, items (push h x) = x ::ₘ items h
  pop_none : ∀ h, pop h = none → items h = 0
  pop_some : ∀ h x h', pop h = some (x, h') → items h = x ::ₘ items h' ∧ ∀ y ∈ items h, x.1 ≤ y.1

variable {K V : Type} [LinearOrder K]

instance totalByScore : Std.Total (fun a b : K × V => a.1 ≤ b.1) := ⟨fun a b => le_total a.1 b.1⟩
instance transByScore : IsTrans (K × V) (fun a b => a.1 ≤ b.1) := ⟨fun _ _ _ => le_trans⟩

/-- An ordered list is such a heap. -/
def sortedHeap (K V : Type) [LinearOrder K] : BinaryHeap K V where
  Heap := { l : List (K × V) // l.Pairwise (fun a b => a.1 ≤ b.1) }
  new := ⟨[], List.Pairwise.nil⟩
  push := fun h x => ⟨h.1.orderedInsert (fun a b => a.1 ≤ b.1) x, h.2.orderedInsert x h.1⟩
  pop := fun h =>
    match h with
    | ⟨[], _⟩ => none
    | ⟨x :: l, hl⟩ => some (x, ⟨l, (List.pairwise_cons.mp hl).2⟩)
  items := fun h => (h.1 : Multiset (K × V))
  items_new := rfl
  items_push := fun h x => Multiset.coe_eq_coe.mpr (List.perm_orderedInsert _ x h.1)
  pop_none := by
    rintro ⟨l, hl⟩ h
    cases l with
    | nil => rfl
    | cons x l => cases h
  pop_some := by
    rintro ⟨l, hl⟩ x h' h
    cases l with
    | nil => cases h
    | cons y l =>
      cases h
      refine ⟨rfl, ?_⟩
      intro z hz
      rcases List.mem_cons.mp (Multiset.mem_coe.mp hz) with rfl | hz
      · exact le_rfl
      · exact (List.pairwise_cons.mp hl).1 z hz

end Graphs
