import Mathlib.Algebra.Order.Group.Defs
import Mathlib.Data.List.AList
import Mathlib.Data.List.Induction

/- Keys that were last seen less than a grace period ago. A history is a list of
   sightings, each at a time and naming some keys; a dictionary of time stamps is
   kept up to date by one step for each of them. `lookup_history` says what such a
   dictionary holds after any history whose clock does not go back: the time of the
   last sighting of a key, as long as that is recent. What the dictionary has
   forgotten on the way does not matter, since what is not recent now will not be
   recent later. -/
namespace Effects

/-- Some keys are seen at one time. -/
structure Sighting (K T : Type) where
  now : T
  seen : List K

namespace Recency
variable {K T : Type} [DecidableEq K]

/-! ## Dictionaries -/

theorem lookup_foldl_insert (t : T) (k : K) : ∀ (l : List K) (d : AList (fun _ : K => T)),
    (l.foldl (fun d x => d.insert x t) d).lookup k = if k ∈ l then some t else d.lookup k
  | [], d => rfl
  | x :: l, d => by
    rw [List.foldl_cons, lookup_foldl_insert t k l]
    by_cases hl : k ∈ l
    · simp [hl]
    · by_cases hx : k = x
      · subst hx
        simp [hl]
      · simp [hl, hx]

theorem lookup_foldl_erase (k : K) : ∀ (l : List K) (d : AList (fun _ : K => T)),
    (l.foldl (fun d x => d.erase x) d).lookup k = if k ∈ l then none else d.lookup k
  | [], d => rfl
  | x :: l, d => by
    rw [List.foldl_cons, lookup_foldl_erase k l]
    by_cases hl : k ∈ l
    · simp [hl]
    · by_cases hx : k = x
      · subst hx
        simp [hl]
      · simp [hl, hx]

/-! ## Histories -/

/-- The time of the last sighting of `k`. -/
def latest (k : K) (history : List (Sighting K T)) : Option T :=
  history.foldl (fun last s => if k ∈ s.seen then some s.now else last) none

theorem latest_concat (k : K) (history : List (Sighting K T)) (s : Sighting K T) :
    latest k (history ++ [s]) = if k ∈ s.seen then some s.now else latest k history := by
  simp [latest, List.foldl_append]

variable [AddCommGroup T] [LinearOrder T]

/-- A step that stamps the keys just seen and forgets what is not recent. -/
def Refreshes (grace : T) (step : AList (fun _ : K => T) → Sighting K T → AList (fun _ : K => T)) : Prop :=
  ∀ d s k, (step d s).lookup k =
    (if k ∈ s.seen then some s.now else d.lookup k).filter (fun t => decide (s.now - t < grace))

variable [IsOrderedAddMonoid T] {grace : T}
  {step : AList (fun _ : K => T) → Sighting K T → AList (fun _ : K => T)}

/-- What was not recent is not recent later. -/
theorem filter_recent {now later : T} (h : now ≤ later) (o : Option T) :
    (o.filter (fun t => decide (now - t < grace))).filter (fun t => decide (later - t < grace)) =
      o.filter (fun t => decide (later - t < grace)) := by
  cases o with
  | none => rfl
  | some t =>
    by_cases hlater : later - t < grace
    · have hnow : now - t < grace := lt_of_le_of_lt (sub_le_sub_right h t) hlater
      simp [Option.filter, hlater, hnow]
    · by_cases hnow : now - t < grace
      · simp [Option.filter, hlater, hnow]
      · simp [Option.filter, hlater, hnow]

/-- After a history whose clock does not go back, the dictionary has exactly the keys
whose last sighting is recent. -/
theorem lookup_history (hstep : Refreshes grace step) (k : K) (history : List (Sighting K T)) (s : Sighting K T)
    (hclock : (history ++ [s]).Pairwise (fun a b => a.now ≤ b.now)) :
    ((history ++ [s]).foldl step ∅).lookup k =
      (latest k (history ++ [s])).filter (fun t => decide (s.now - t < grace)) := by
  -- from the last sighting back: the one before it has left what was recent then
  induction history using List.reverseRecOn generalizing s with
  | nil => simp [hstep ∅ s k, latest]
  | append_singleton history s' ih =>
    have hbefore := ih s' (List.pairwise_append.mp hclock).1
    have hle : s'.now ≤ s.now := (List.pairwise_append.mp hclock).2.2 s' (by simp) s (by simp)
    rw [List.foldl_append, List.foldl_cons, List.foldl_nil, hstep, hbefore,
      latest_concat k (history ++ [s']) s]
    by_cases hseen : k ∈ s.seen
    · simp only [hseen, if_true]
    · simp only [hseen, if_false, filter_recent hle]

end Recency

end Effects
