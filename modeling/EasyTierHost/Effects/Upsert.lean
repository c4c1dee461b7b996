import Mathlib.Data.List.AList
import Mathlib.Order.Lattice

/- Dictionaries filled by offers: an offer for a key is taken when there is none yet or
   when it beats what is there. Offers for other keys do not matter, so what ends up
   at a key comes from its own offers in their order; where beating is a lower rank,
   it is one of the lowest. -/
namespace Effects

variable {K C V : Type} [DecidableEq K]

/-- Take the value of the offer unless what is there is kept. -/
def upsert (beats : C → V → Bool) (value : C → V) (m : AList (fun _ : K => V)) (k : K) (c : C) :
    AList (fun _ : K => V) :=
  match m.lookup k with
  | none => m.insert k (value c)
  | some old => if beats c old then m.insert k (value c) else m

/-- The same for one place. -/
def choose (beats : C → V → Bool) (value : C → V) : Option V → C → Option V
  | none, c => some (value c)
  | some old, c => if beats c old then some (value c) else some old

variable (beats : C → V → Bool) (value : C → V)

theorem lookup_upsert (m : AList (fun _ : K => V)) (k k' : K) (c : C) :
    (upsert beats value m k c).lookup k' = if k' = k then choose beats value (m.lookup k) c else m.lookup k' := by
  unfold upsert
  by_cases hk : k' = k
  · subst hk
    rw [if_pos rfl]
    cases hold : m.lookup k' with
    | none => simp [choose]
    | some old =>
      by_cases hb : beats c old = true
      · simp [choose, hb]
      · simp [choose, hb, hold]
  · rw [if_neg hk]
    cases hold : m.lookup k with
    | none => simp [hk]
    | some old =>
      by_cases hb : beats c old = true
      · simp [hb, hk]
      · simp [hb]

/-- Only the offers for a key decide what is there. -/
theorem lookup_foldl_upsert (k : K) : ∀ (offers : List (K × C)) (m : AList (fun _ : K => V)),
    (offers.foldl (fun m o => upsert beats value m o.1 o.2) m).lookup k =
      ((offers.filter (fun o => o.1 = k)).map (·.2)).foldl (choose beats value) (m.lookup k)
  | [], _ => rfl
  | o :: offers, m => by
    rw [List.foldl_cons, lookup_foldl_upsert k offers, lookup_upsert]
    by_cases hk : o.1 = k
    · rw [List.filter_cons_of_pos (by simpa using hk), if_pos hk.symm, List.map_cons, List.foldl_cons, hk]
    · rw [List.filter_cons_of_neg (by simpa using hk), if_neg (Ne.symm hk)]

/-- Keep the entries that pass. -/
def retain (keep : K → V → Bool) (m : AList (fun _ : K => V)) : AList (fun _ : K => V) :=
  ⟨m.entries.filter fun e => keep e.1 e.2, m.nodupKeys.sublist List.filter_sublist⟩

omit [DecidableEq K] in
theorem mem_entries_retain {keep : K → V → Bool} {m : AList (fun _ : K => V)} {e : Sigma fun _ : K => V} :
    e ∈ (retain keep m).entries ↔ e ∈ m.entries ∧ keep e.1 e.2 = true := List.mem_filter

theorem lookup_retain (keep : K → V → Bool) (m : AList (fun _ : K => V)) (k : K) :
    (retain keep m).lookup k = (m.lookup k).filter (keep k) := by
  apply Option.ext
  intro v
  rw [← Option.mem_def, AList.mem_lookup_iff, mem_entries_retain, ← AList.mem_lookup_iff, Option.mem_def,
    Option.filter_eq_some_iff]

section Ranked
variable {R : Type} [LinearOrder R] (rank : V → R) (good : C → Prop) (fair : V → Prop)

/-- Where an offer is taken only if it is not worse and left only if it is not better,
the choice is one of the lowest. -/
theorem foldl_choose_lowest (hfair : ∀ c, good c → fair (value c))
    (htaken : ∀ c old, good c → fair old → beats c old = true → rank (value c) ≤ rank old)
    (hleft : ∀ c old, good c → fair old → beats c old = false → rank old ≤ rank (value c)) :
    ∀ (cs : List C) (old : V), fair old → (∀ c ∈ cs, good c) →
      ∃ x, cs.foldl (choose beats value) (some old) = some x ∧ (x = old ∨ ∃ c ∈ cs, x = value c) ∧
        rank x ≤ rank old ∧ ∀ c ∈ cs, rank x ≤ rank (value c)
  | [], old, _, _ => ⟨old, rfl, Or.inl rfl, le_rfl, by simp⟩
  | c :: cs, old, hold, hcs => by
    have hc : good c := hcs c List.mem_cons_self
    have hrest : ∀ d ∈ cs, good d := fun d hd => hcs d (List.mem_cons_of_mem c hd)
    cases hb : beats c old with
    | true =>
      obtain ⟨x, hx, hmem, hle, hall⟩ := foldl_choose_lowest hfair htaken hleft cs (value c) (hfair c hc) hrest
      refine ⟨x, by rw [List.foldl_cons, choose, if_pos hb, hx], Or.inr ?_, hle.trans (htaken c old hc hold hb), ?_⟩
      · rcases hmem with rfl | ⟨d, hd, rfl⟩
        · exact ⟨c, List.mem_cons_self, rfl⟩
        · exact ⟨d, List.mem_cons_of_mem c hd, rfl⟩
      · intro d hd
        rcases List.mem_cons.mp hd with rfl | hd
        · exact hle
        · exact hall d hd
    | false =>
      obtain ⟨x, hx, hmem, hle, hall⟩ := foldl_choose_lowest hfair htaken hleft cs old hold hrest
      refine ⟨x, by rw [List.foldl_cons, choose, if_neg (by rw [hb]; exact Bool.false_ne_true), hx], ?_, hle, ?_⟩
      · rcases hmem with rfl | ⟨d, hd, rfl⟩
        · exact Or.inl rfl
        · exact Or.inr ⟨d, List.mem_cons_of_mem c hd, rfl⟩
      · intro d hd
        rcases List.mem_cons.mp hd with rfl | hd
        · exact hle.trans (hleft d old hc hold hb)
        · exact hall d hd

end Ranked

end Effects
