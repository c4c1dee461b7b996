import EasyTierHost.Effects.Upsert

/- Dictionaries of versioned values filled by hearsay. Every key has an owner, who alone
   makes new versions of its value, and everyone keeps the newest version heard of.
   `say` is what the owners have said at each version and `top` how far they have come.
   A `blank` value stands for a key that has only been mentioned; its version is 0. -/
namespace Effects

variable {K V C : Type} [DecidableEq K]

/-- The version held for a key. -/
def heldVersion (version : V → Nat) (m : AList (fun _ : K => V)) (k : K) : Nat := ((m.lookup k).map version).getD 0

variable {version : V → Nat} {blank : V → Prop}

theorem heldVersion_of_lookup {m : AList (fun _ : K => V)} {k : K} {v : V} (h : m.lookup k = some v) :
    heldVersion version m k = version v := by
  rw [heldVersion, h]
  rfl

theorem heldVersion_insert (m : AList (fun _ : K => V)) (k k' : K) (v : V) :
    heldVersion version (m.insert k v) k' = if k' = k then version v else heldVersion version m k' := by
  by_cases h : k' = k
  · subst h
    rw [if_pos rfl, heldVersion_of_lookup (AList.lookup_insert m)]
  · rw [if_neg h, heldVersion, AList.lookup_insert_ne h, heldVersion]

/-! ## Learning -/

/-- From `m` to `m'` by taking offers and by mentioning keys; no version goes down. -/
structure Learned (version : V → Nat) (blank : V → Prop) (offered : K → V → Prop) (m m' : AList (fun _ : K => V)) : Prop where
  mono : ∀ k, heldVersion version m k ≤ heldVersion version m' k
  origin : ∀ k v, m'.lookup k = some v → m.lookup k = some v ∨ blank v ∨ offered k v

namespace Learned
variable {offered offered' : K → V → Prop} {m m' m'' : AList (fun _ : K => V)}

theorem refl (m : AList (fun _ : K => V)) : Learned version blank offered m m :=
  ⟨fun _ => Nat.le_refl _, fun _ _ h => .inl h⟩

theorem trans (h : Learned version blank offered m m') (h' : Learned version blank offered m' m'') :
    Learned version blank offered m m'' where
  mono := fun k => (h.mono k).trans (h'.mono k)
  origin := by
    intro k v hv
    rcases h'.origin k v hv with hv | hv
    · exact h.origin k v hv
    · exact .inr hv

theorem weaken (h : Learned version blank offered m m') (hsub : ∀ k v, offered k v → offered' k v) :
    Learned version blank offered' m m' :=
  ⟨h.mono, fun k v hv => (h.origin k v hv).imp_right fun h => h.imp_right fun h => hsub k v h⟩

/-- Writing a value that is blank or offered, over none or an older one. -/
theorem insert {k : K} {v : V} (ho : blank v ∨ offered k v) (hnew : ∀ old, m.lookup k = some old → version old < version v) :
    Learned version blank offered m (m.insert k v) where
  mono := by
    intro k'
    rw [heldVersion_insert]
    split_ifs with hk
    · subst hk
      cases hold : m.lookup k' with
      | none => rw [heldVersion, hold]; exact Nat.zero_le _
      | some old => rw [heldVersion_of_lookup hold]; exact (hnew old hold).le
    · exact Nat.le_refl _
  origin := by
    intro k' v' hv'
    by_cases hk : k' = k
    · subst hk
      rw [AList.lookup_insert] at hv'
      cases hv'
      exact .inr ho
    · rw [AList.lookup_insert_ne hk] at hv'
      exact .inl hv'

/-- What holds of all that was held, of blanks and of offers, still holds of all that is held. -/
theorem all {P : K → V → Prop} (h : Learned version blank offered m m') (hm : ∀ k v, m.lookup k = some v → P k v)
    (hblank : ∀ k v, blank v → P k v) (ho : ∀ k v, offered k v → P k v) : ∀ k v, m'.lookup k = some v → P k v := by
  intro k v hv
  rcases h.origin k v hv with hold | hb | hoff
  · exact hm k v hold
  · exact hblank k v hb
  · exact ho k v hoff

/-- Nobody learns more about a key than what is offered for it. -/
theorem heldVersion_eq (h : Learned version blank offered m m') (hblank : ∀ v, blank v → version v = 0) {k : K}
    (hle : ∀ v, offered k v → version v ≤ heldVersion version m k) : heldVersion version m' k = heldVersion version m k := by
  refine Nat.le_antisymm ?_ (h.mono k)
  cases hv : m'.lookup k with
  | none => rw [heldVersion, hv]; exact Nat.zero_le _
  | some v =>
    rw [heldVersion_of_lookup hv]
    rcases h.origin k v hv with hold | hb | ho
    · rw [heldVersion_of_lookup hold]
    · rw [hblank v hb]
      exact Nat.zero_le _
    · exact hle v ho

end Learned

/-! ## What is held was said -/

/-- The owners count up in what they say, and nothing is said beyond how far its owner has come. -/
structure Counted (history : List (K × Nat × C)) (top : K → Nat) : Prop where
  up : history.Pairwise fun a b => a.1 = b.1 → a.2.1 < b.2.1
  le : ∀ k n c, (k, n, c) ∈ history → n ≤ top k

/-- The value is blank, or its owner has said it at its version. -/
def Told (version : V → Nat) (blank : V → Prop) (content : V → C) (history : List (K × Nat × C)) (k : K) (v : V) : Prop :=
  blank v ∨ (version v ≠ 0 ∧ (k, version v, content v) ∈ history)

/-- All that is held was said. -/
def Authentic (version : V → Nat) (blank : V → Prop) (content : V → C) (history : List (K × Nat × C))
    (m : AList (fun _ : K => V)) : Prop :=
  ∀ k v, m.lookup k = some v → Told version blank content history k v

section Said
variable {content : V → C} {history history' : List (K × Nat × C)} {top top' : K → Nat} {m m' : AList (fun _ : K => V)}

omit [DecidableEq K] in
theorem Counted.nil (top : K → Nat) : Counted ([] : List (K × Nat × C)) top :=
  ⟨.nil, fun _ _ _ h => absurd h List.not_mem_nil⟩

omit [DecidableEq K] in
theorem Counted.mono (h : Counted history top) (hle : ∀ k, top k ≤ top' k) : Counted history top' :=
  ⟨h.up, fun k n c hc => (h.le k n c hc).trans (hle k)⟩

omit [DecidableEq K] in
/-- One owner says its next version. -/
theorem Counted.next (h : Counted history top) {k : K} {n : Nat} (c : C) (hlt : top k < n) (hn : n ≤ top' k)
    (hle : ∀ k, top k ≤ top' k) : Counted (history ++ [(k, n, c)]) top' := by
  constructor
  · refine List.pairwise_append.mpr ⟨h.up, List.pairwise_singleton _ _, ?_⟩
    intro a ha b hb
    rw [List.mem_singleton.mp hb]
    rintro rfl
    exact (h.le a.1 a.2.1 a.2.2 ha).trans_lt hlt
  · intro k' n' c' hc'
    rcases List.mem_append.mp hc' with hold | hnew
    · exact (h.le k' n' c' hold).trans (hle k')
    · cases List.mem_singleton.mp hnew
      exact hn

omit [DecidableEq K] in
/-- At one version an owner has said one thing. -/
theorem Counted.unique (h : Counted history top) {k : K} {n : Nat} {c c' : C} (hc : (k, n, c) ∈ history)
    (hc' : (k, n, c') ∈ history) : c = c' := by
  by_contra hne
  have hdistinct : history.Pairwise fun a b => a.1 = b.1 → a.2.1 ≠ b.2.1 := h.up.imp fun hlt heq => (hlt heq).ne
  have hsymm : Std.Symm fun a b : K × Nat × C => a.1 = b.1 → a.2.1 ≠ b.2.1 := ⟨fun _ _ hab heq => (hab heq.symm).symm⟩
  have hpair : (k, n, c) ≠ (k, n, c') := fun heq => hne (congrArg (fun a : K × Nat × C => a.2.2) heq)
  exact hdistinct.forall hc hc' hpair rfl rfl

omit [DecidableEq K] in
theorem Told.le (hblank : ∀ v, blank v → version v = 0) (hcount : Counted history top) {k : K} {v : V}
    (h : Told version blank content history k v) : version v ≤ top k := by
  rcases h with hb | ⟨-, hc⟩
  · rw [hblank v hb]
    exact Nat.zero_le _
  · exact hcount.le k _ _ hc

omit [DecidableEq K] in
theorem Told.more (hsub : history ⊆ history') {k : K} {v : V} (h : Told version blank content history k v) :
    Told version blank content history' k v :=
  h.imp_right fun ⟨h0, hc⟩ => ⟨h0, hsub hc⟩

theorem Authentic.more (hsub : history ⊆ history') (h : Authentic version blank content history m) :
    Authentic version blank content history' m := fun k v hv => (h k v hv).more hsub

theorem Authentic.learned {offered : K → V → Prop} (h : Authentic version blank content history m)
    (hl : Learned version blank offered m m') (ho : ∀ k v, offered k v → Told version blank content history k v) :
    Authentic version blank content history m' := hl.all h (fun _ _ hb => .inl hb) ho

/-- An owner keeps what it says itself. -/
theorem Authentic.insert (h : Authentic version blank content history m) {k : K} {v : V}
    (hv : Told version blank content history k v) : Authentic version blank content history (m.insert k v) := by
  intro k' v' hv'
  by_cases hk : k' = k
  · subst hk
    rw [AList.lookup_insert] at hv'
    cases hv'
    exact hv
  · rw [AList.lookup_insert_ne hk] at hv'
    exact h k' v' hv'

/-- What is known of a key is what was said at the version held. -/
theorem Authentic.known (hblank : ∀ v, blank v → version v = 0) (hcount : Counted history top)
    (h : Authentic version blank content history m) (k : K) (c : C) :
    ((m.lookup k).filter fun v => version v ≠ 0).map content = some c ↔
      heldVersion version m k ≠ 0 ∧ (k, heldVersion version m k, c) ∈ history := by
  cases hv : m.lookup k with
  | none =>
    rw [heldVersion, hv]
    exact ⟨fun hc => (nomatch hc), fun hc => absurd rfl hc.1⟩
  | some v =>
    rw [heldVersion_of_lookup hv, Option.filter_some]
    by_cases h0 : version v = 0
    · rw [if_neg (by simp [h0])]
      exact ⟨fun hc => (nomatch hc), fun hc => absurd h0 hc.1⟩
    · rw [if_pos (by simp [h0]), Option.map_some, Option.some_inj]
      have hsaid : (k, version v, content v) ∈ history := ((h k v hv).resolve_left fun hb => h0 (hblank v hb)).2
      constructor
      · rintro rfl
        exact ⟨h0, hsaid⟩
      · exact fun hc => hcount.unique hsaid hc.2

/-- Who holds the same version knows the same. -/
theorem Authentic.agree (hblank : ∀ v, blank v → version v = 0) (hcount : Counted history top)
    (h : Authentic version blank content history m) (h' : Authentic version blank content history m') {k : K}
    (heq : heldVersion version m k = heldVersion version m' k) :
    ((m.lookup k).filter fun v => version v ≠ 0).map content = ((m'.lookup k).filter fun v => version v ≠ 0).map content := by
  ext c
  rw [Authentic.known hblank hcount h, Authentic.known hblank hcount h', heq]

end Said

end Effects
