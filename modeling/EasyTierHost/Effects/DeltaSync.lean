import EasyTierHost.Effects.Upsert

/- Passing a dictionary on in parts. Every entry has a version and the time it was last
   written, and the entries stand newest first, which is where `AList.insert` puts them.
   A pass looks no further than the entries written since the last pass that went
   through. It offers what is not settled yet, and puts off by key and version what may
   not go out; those put off are tried again in every pass until they are settled.

   `has` is the version the other side has of each key. Nothing is lost as long as it
   never goes down: an entry is new, or put off, or the other side has it. -/
namespace Effects

variable {K V : Type} [DecidableEq K]

/-- Written before the last pass. -/
def stale (since written : Option Nat) : Bool :=
  match since, written with
  | some s, some t => t < s
  | _, _ => false

/-- The last pass, when one begun at `t` has gone through. -/
def later (since : Option Nat) (t : Nat) : Option Nat :=
  match since with
  | some s => if s < t then some t else some s
  | none => some t

theorem later_cases (since : Option Nat) (t : Nat) : later since t = some t ∨ later since t = since := by
  unfold later
  cases since with
  | none => exact .inl rfl
  | some s =>
    by_cases h : s < t
    · exact .inl (if_pos h)
    · exact .inr (if_neg h)

section Passes
variable (version : V → Nat) (written : V → Option Nat)

/-- The entries from the newest to the first stale one: what is offered, and who is put off. -/
def scan (since : Option Nat) (settledEntry : K → V → Bool) (ready : K → Bool) :
    List (Sigma fun _ : K => V) → AList (fun _ : K => Nat) → List (Sigma fun _ : K => V) × AList (fun _ : K => Nat)
  | [], putOff => ([], putOff)
  | e :: es, putOff =>
    if stale since (written e.2) then ([], putOff)
    else if settledEntry e.1 e.2 then scan since settledEntry ready es putOff
    else if ready e.1 then
      let r := scan since settledEntry ready es putOff
      (e :: r.1, r.2)
    else scan since settledEntry ready es (putOff.insert e.1 (version e.2))

/-- What those put off would have out now. -/
def retried (ready : K → Bool) (m : AList (fun _ : K => V)) (putOff : AList (fun _ : K => Nat)) :
    List (Sigma fun _ : K => V) :=
  putOff.entries.filterMap fun e => if ready e.1 then (m.lookup e.1).map (Sigma.mk e.1) else none

/-- One pass: the new entries, then those put off, of which the settled and the removed are forgotten. -/
def offer (since : Option Nat) (settledEntry : K → V → Bool) (settled : K → Nat → Bool) (ready : K → Bool)
    (m : AList (fun _ : K => V)) (putOff : AList (fun _ : K => Nat)) :
    List (Sigma fun _ : K => V) × AList (fun _ : K => Nat) :=
  let r := scan version written since settledEntry ready m.entries putOff
  let kept := retain (fun k w => !settled k w && (m.lookup k).isSome) r.2
  (r.1 ++ retried ready m kept, kept)

end Passes

/-! ## What is kept -/

section Kept
variable (version : V → Nat) (written : V → Option Nat)

/-- Every entry was written by `now`, none before the one behind it. -/
def NewestFirst (now : Nat) (es : List (Sigma fun _ : K => V)) : Prop :=
  (∀ e ∈ es, ∃ t ≤ now, written e.2 = some t) ∧
    es.Pairwise fun a b => ∀ s t, written a.2 = some s → written b.2 = some t → t ≤ s

/-- The other side has version `n`, or the key is put off at that version or above. -/
def Owed (has : K → Nat) (putOff : AList (fun _ : K => Nat)) (k : K) (n : Nat) : Prop :=
  n ≤ has k ∨ ∃ w, putOff.lookup k = some w ∧ n ≤ w

/-- Nothing stale is lost. -/
def Covered (m : AList (fun _ : K => V)) (has : K → Nat) (putOff : AList (fun _ : K => Nat)) (since : Option Nat) : Prop :=
  ∀ k v, m.lookup k = some v → stale since (written v) = false ∨ Owed has putOff k (version v)

/-- Nothing will be lost once what a pass begun at `t` has offered is there. -/
def Awaited (m : AList (fun _ : K => V)) (has : K → Nat) (putOff : AList (fun _ : K => Nat)) (offered : K → Nat → Prop)
    (t : Nat) : Prop :=
  ∀ k v, m.lookup k = some v →
    stale (some t) (written v) = false ∨ Owed has putOff k (version v) ∨ ∃ n, offered k n ∧ version v ≤ n

/-- Changes that write entries at `now` and remove others. -/
inductive Writes (now : Nat) (m : AList (fun _ : K => V)) : AList (fun _ : K => V) → Prop where
  | refl : Writes now m m
  | insert {m' : AList (fun _ : K => V)} (k : K) {v : V} : Writes now m m' → written v = some now →
      Writes now m (m'.insert k v)
  | erase {m' : AList (fun _ : K => V)} (k : K) : Writes now m m' → Writes now m (m'.erase k)

variable {version written}

theorem Writes.trans {now : Nat} {m m' m'' : AList (fun _ : K => V)} (h : Writes written now m m')
    (h' : Writes written now m' m'') : Writes written now m m'' := by
  induction h' with
  | refl => exact h
  | insert k _ hv ih => exact ih.insert k hv
  | erase k _ ih => exact ih.erase k

theorem Writes.lookup {now : Nat} {m m' : AList (fun _ : K => V)} (h : Writes written now m m') {k : K} {v : V}
    (hv : m'.lookup k = some v) : m.lookup k = some v ∨ written v = some now := by
  induction h with
  | refl => exact .inl hv
  | insert k' _ hw ih =>
    by_cases hk : k = k'
    · subst hk
      rw [AList.lookup_insert] at hv
      cases hv
      exact .inr hw
    · rw [AList.lookup_insert_ne hk] at hv
      exact ih hv
  | erase k' _ ih =>
    by_cases hk : k = k'
    · subst hk
      rw [AList.lookup_erase] at hv
      cases hv
    · rw [AList.lookup_erase_ne hk] at hv
      exact ih hv

theorem NewestFirst.kerase {now : Nat} {es : List (Sigma fun _ : K => V)} (h : NewestFirst written now es) (k : K) :
    NewestFirst written now (es.kerase k) :=
  ⟨fun e he => h.1 e ((List.kerase_sublist k es).subset he), h.2.sublist (List.kerase_sublist k es)⟩

theorem NewestFirst.writes {now : Nat} {m m' : AList (fun _ : K => V)} (h : Writes written now m m')
    (hm : NewestFirst written now m.entries) : NewestFirst written now m'.entries := by
  induction h with
  | refl => exact hm
  | erase k _ ih => exact ih.kerase k
  | @insert m' k v _ hv ih =>
    rw [AList.entries_insert]
    refine ⟨?_, List.pairwise_cons.mpr ⟨?_, (ih.kerase k).2⟩⟩
    · intro e he
      rcases List.mem_cons.mp he with rfl | he
      · exact ⟨now, Nat.le_refl now, hv⟩
      · exact (ih.kerase k).1 e he
    · intro b hb s t hs ht
      obtain ⟨u, hu, hbu⟩ := (ih.kerase k).1 b hb
      rw [hv] at hs
      rw [hbu] at ht
      cases hs
      cases ht
      exact hu

omit [DecidableEq K] in
theorem NewestFirst.mono {now now' : Nat} {es : List (Sigma fun _ : K => V)} (h : NewestFirst written now es)
    (hle : now ≤ now') : NewestFirst written now' es :=
  ⟨fun e he => let ⟨t, ht, hw⟩ := h.1 e he; ⟨t, ht.trans hle, hw⟩, h.2⟩

theorem stale_now {since : Option Nat} {now : Nat} (h : ∀ t, since = some t → t ≤ now) :
    stale since (some now) = false := by
  cases since with
  | none => rfl
  | some t => exact decide_eq_false (Nat.not_lt.mpr (h t rfl))

theorem Owed.mono {has has' : K → Nat} {putOff : AList (fun _ : K => Nat)} {k : K} {n : Nat} (h : Owed has putOff k n)
    (hle : ∀ k, has k ≤ has' k) : Owed has' putOff k n := h.imp_left fun hn => hn.trans (hle k)

/-- Covered survives writes made now, and whatever the other side learns. -/
theorem Covered.writes {now : Nat} {m m' : AList (fun _ : K => V)} {has has' : K → Nat} {putOff : AList (fun _ : K => Nat)}
    {since : Option Nat} (h : Covered version written m has putOff since) (hm : Writes written now m m')
    (hnow : ∀ t, since = some t → t ≤ now) (hle : ∀ k, has k ≤ has' k) :
    Covered version written m' has' putOff since := by
  intro k v hv
  rcases hm.lookup hv with hold | hnew
  · exact (h k v hold).imp_right fun ho => ho.mono hle
  · rw [hnew]
    exact .inl (stale_now hnow)

theorem Awaited.writes {now t : Nat} {m m' : AList (fun _ : K => V)} {has has' : K → Nat} {putOff : AList (fun _ : K => Nat)}
    {offered : K → Nat → Prop} (h : Awaited version written m has putOff offered t) (hm : Writes written now m m')
    (hnow : t ≤ now) (hle : ∀ k, has k ≤ has' k) : Awaited version written m' has' putOff offered t := by
  intro k v hv
  rcases hm.lookup hv with hold | hnew
  · exact (h k v hold).imp_right fun ho => ho.imp_left fun ho => ho.mono hle
  · rw [hnew]
    exact .inl (stale_now fun s hs => by cases hs; exact hnow)

/-- What was awaited has come: the pass counts. -/
theorem Covered.confirm {m : AList (fun _ : K => V)} {has : K → Nat} {putOff : AList (fun _ : K => Nat)}
    {since : Option Nat} {offered : K → Nat → Prop} {t : Nat} (h : Covered version written m has putOff since)
    (ha : Awaited version written m has putOff offered t) (hcame : ∀ k n, offered k n → n ≤ has k) :
    Covered version written m has putOff (later since t) := by
  intro k v hv
  rcases later_cases since t with heq | heq
  · rw [heq]
    rcases ha k v hv with hs | ho | ⟨n, hn, hle⟩
    · exact .inl hs
    · exact .inr ho
    · exact .inr (.inl (hle.trans (hcame k n hn)))
  · rw [heq]
    exact h k v hv

theorem covered_none (m : AList (fun _ : K => V)) (has : K → Nat) (putOff : AList (fun _ : K => Nat)) :
    Covered version written m has putOff none := fun _ _ _ => .inl rfl

end Kept

/-! ## What a pass does -/

section Scan
variable (version : V → Nat) (written : V → Option Nat) (since : Option Nat) (settledEntry : K → V → Bool)
  (ready : K → Bool)

theorem lookup_scan (k : K) : ∀ (es : List (Sigma fun _ : K => V)) (putOff : AList (fun _ : K => Nat)), es.NodupKeys →
    (scan version written since settledEntry ready es putOff).2.lookup k = putOff.lookup k ∨
      ∃ e ∈ es, e.1 = k ∧ (scan version written since settledEntry ready es putOff).2.lookup k = some (version e.2)
  | [], _, _ => .inl rfl
  | e :: es, putOff, hnd => by
    have hrest := List.nodupKeys_cons.mp hnd
    have hlift : ∀ putOff', (scan version written since settledEntry ready es putOff').2.lookup k = putOff'.lookup k ∨
        (∃ e' ∈ e :: es, e'.1 = k ∧
          (scan version written since settledEntry ready es putOff').2.lookup k = some (version e'.2)) := by
      intro putOff'
      exact (lookup_scan k es putOff' hrest.2).imp_right fun ⟨e', he', h⟩ => ⟨e', List.mem_cons_of_mem e he', h⟩
    rw [scan]
    split_ifs
    · exact .inl rfl
    · exact hlift putOff
    · exact hlift putOff
    · by_cases hk : k = e.1
      · -- no later entry has the key, so it stays put off as written here
        rcases lookup_scan k es (putOff.insert e.1 (version e.2)) hrest.2 with h | ⟨e', he', hek, -⟩
        · subst hk
          rw [AList.lookup_insert] at h
          exact .inr ⟨e, List.mem_cons_self, rfl, h⟩
        · exact absurd (List.mem_keys_of_mem he') (by rw [hek, hk]; exact hrest.1)
      · rcases hlift (putOff.insert e.1 (version e.2)) with h | h
        · rw [AList.lookup_insert_ne hk] at h
          exact .inl h
        · exact .inr h

/-- A fresh entry that is not settled goes out, or is put off when it may not. -/
theorem mem_scan {now : Nat} : ∀ {es : List (Sigma fun _ : K => V)} (putOff : AList (fun _ : K => Nat)), es.NodupKeys →
    NewestFirst written now es → ∀ e ∈ es, stale since (written e.2) = false → settledEntry e.1 e.2 = false →
    (ready e.1 = true → e ∈ (scan version written since settledEntry ready es putOff).1) ∧
      (ready e.1 = false →
        (scan version written since settledEntry ready es putOff).2.lookup e.1 = some (version e.2))
  | [], _, _, _, e, he, _, _ => absurd he List.not_mem_nil
  | d :: es, putOff, hnd, hnew, e, he, hstale, hset => by
    have hrest := List.nodupKeys_cons.mp hnd
    have hnew' : NewestFirst written now es :=
      ⟨fun e he => hnew.1 e (List.mem_cons_of_mem d he), (List.pairwise_cons.mp hnew.2).2⟩
    -- the entries before a fresh one are fresh
    have hd : stale since (written d.2) = false := by
      rcases List.mem_cons.mp he with rfl | he
      · exact hstale
      · obtain ⟨s, -, hs⟩ := hnew.1 d List.mem_cons_self
        obtain ⟨t, -, ht⟩ := hnew.1 e (List.mem_cons_of_mem d he)
        have hle := (List.pairwise_cons.mp hnew.2).1 e he s t hs ht
        rw [ht] at hstale
        rw [hs]
        cases since with
        | none => rfl
        | some u =>
          have hut : ¬ t < u := of_decide_eq_false hstale
          exact decide_eq_false (by omega)
    rw [scan, if_neg (by rw [hd]; exact Bool.false_ne_true)]
    rcases List.mem_cons.mp he with rfl | he
    · rw [if_neg (by rw [hset]; exact Bool.false_ne_true)]
      constructor
      · intro hr
        rw [if_pos hr]
        exact List.mem_cons_self
      · intro hr
        rw [if_neg (by rw [hr]; exact Bool.false_ne_true)]
        rcases lookup_scan version written since settledEntry ready e.1 es (putOff.insert e.1 (version e.2)) hrest.2 with
          h | ⟨e', he', hek, -⟩
        · rw [h, AList.lookup_insert]
        · exact absurd (List.mem_keys_of_mem he') (by rw [hek]; exact hrest.1)
    · split_ifs
      · exact mem_scan putOff hrest.2 hnew' e he hstale hset
      · have ih := mem_scan putOff hrest.2 hnew' e he hstale hset
        exact ⟨fun hr => List.mem_cons_of_mem d (ih.1 hr), ih.2⟩
      · exact mem_scan _ hrest.2 hnew' e he hstale hset

theorem mem_entries_of_scan : ∀ {es : List (Sigma fun _ : K => V)} {putOff : AList (fun _ : K => Nat)}
    {e : Sigma fun _ : K => V}, e ∈ (scan version written since settledEntry ready es putOff).1 → e ∈ es
  | [], _, _, he => absurd he List.not_mem_nil
  | d :: es, putOff, e, he => by
    rw [scan] at he
    split_ifs at he
    · exact absurd he List.not_mem_nil
    · exact List.mem_cons_of_mem d (mem_entries_of_scan he)
    · rcases List.mem_cons.mp he with rfl | he
      · exact List.mem_cons_self
      · exact List.mem_cons_of_mem d (mem_entries_of_scan he)
    · exact List.mem_cons_of_mem d (mem_entries_of_scan he)

theorem ready_of_scan : ∀ {es : List (Sigma fun _ : K => V)} {putOff : AList (fun _ : K => Nat)}
    {e : Sigma fun _ : K => V}, e ∈ (scan version written since settledEntry ready es putOff).1 → ready e.1 = true
  | [], _, _, he => absurd he List.not_mem_nil
  | d :: es, putOff, e, he => by
    rw [scan] at he
    split_ifs at he with _ _ hr
    · exact absurd he List.not_mem_nil
    · exact ready_of_scan he
    · rcases List.mem_cons.mp he with rfl | he
      · exact hr
      · exact ready_of_scan he
    · exact ready_of_scan he

end Scan

section Offer
variable {version : V → Nat} {written : V → Option Nat} {since : Option Nat} {settledEntry : K → V → Bool}
  {settled : K → Nat → Bool} {ready : K → Bool} {m : AList (fun _ : K => V)} {has : K → Nat}
  {putOff : AList (fun _ : K => Nat)}

/-- Only what the other side has is settled. -/
structure Settles (version : V → Nat) (settledEntry : K → V → Bool) (settled : K → Nat → Bool)
    (m : AList (fun _ : K => V)) (has : K → Nat) : Prop where
  entry : ∀ k v, m.lookup k = some v → settledEntry k v = true → version v ≤ has k
  putOff : ∀ k v w, m.lookup k = some v → settled k w = true → version v ≤ w → version v ≤ has k

/-- Putting a key off is not forgotten before the other side has it. -/
theorem Owed.retained (hs : Settles version settledEntry settled m has) {k : K} {v : V} (hv : m.lookup k = some v)
    (h : Owed has putOff k (version v)) :
    Owed has (retain (fun k w => !settled k w && (m.lookup k).isSome) putOff) k (version v) := by
  rcases h with hhas | ⟨w, hw, hle⟩
  · exact .inl hhas
  · cases hset : settled k w with
    | true => exact .inl (hs.putOff k v w hv hset hle)
    | false =>
      refine .inr ⟨w, ?_, hle⟩
      rw [lookup_retain, hw, Option.filter_some, hset, hv]
      rfl

/-- A pass keeps what is owed. -/
theorem Owed.offered (hs : Settles version settledEntry settled m has) {k : K} {v : V} (hv : m.lookup k = some v)
    (h : Owed has putOff k (version v)) :
    Owed has (offer version written since settledEntry settled ready m putOff).2 k (version v) := by
  refine Owed.retained hs hv ?_
  rcases h with hhas | ⟨w, hw, hle⟩
  · exact .inl hhas
  · rcases lookup_scan version written since settledEntry ready k m.entries putOff m.nodupKeys with h | ⟨e, he, hek, h⟩
    · exact .inr ⟨w, h.trans hw, hle⟩
    · have hlook : m.lookup e.1 = some e.2 := AList.mem_lookup_iff.mpr he
      rw [hek, hv] at hlook
      cases hlook
      exact .inr ⟨version e.2, h, Nat.le_refl _⟩

theorem Covered.offered (hs : Settles version settledEntry settled m has) (hc : Covered version written m has putOff since) :
    Covered version written m has (offer version written since settledEntry settled ready m putOff).2 since :=
  fun k v hv => (hc k v hv).imp_right fun ho => ho.offered hs hv

theorem Awaited.offered (hs : Settles version settledEntry settled m has) {offered : K → Nat → Prop} {t : Nat}
    (ha : Awaited version written m has putOff offered t) :
    Awaited version written m has (offer version written since settledEntry settled ready m putOff).2 offered t :=
  fun k v hv => (ha k v hv).imp_right fun ho => ho.imp_left fun ho => ho.offered hs hv

/-- Only entries go out. -/
theorem lookup_of_offer {e : Sigma fun _ : K => V}
    (he : e ∈ (offer version written since settledEntry settled ready m putOff).1) : m.lookup e.1 = some e.2 := by
  rcases List.mem_append.mp he with hscan | hretried
  · exact AList.mem_lookup_iff.mpr (mem_entries_of_scan version written since settledEntry ready hscan)
  · obtain ⟨d, -, hd⟩ := List.mem_filterMap.mp hretried
    split_ifs at hd
    obtain ⟨v, hv, rfl⟩ := Option.map_eq_some_iff.mp hd
    exact hv

/-- Only what may go out does. -/
theorem ready_of_offer {e : Sigma fun _ : K => V}
    (he : e ∈ (offer version written since settledEntry settled ready m putOff).1) : ready e.1 = true := by
  rcases List.mem_append.mp he with hscan | hretried
  · exact ready_of_scan version written since settledEntry ready hscan
  · obtain ⟨d, -, hd⟩ := List.mem_filterMap.mp hretried
    split_ifs at hd with hr
    obtain ⟨v, -, rfl⟩ := Option.map_eq_some_iff.mp hd
    exact hr

/-- Everything is with the other side, owed, or goes out. -/
theorem offer_complete {now : Nat} (hs : Settles version settledEntry settled m has)
    (hnew : NewestFirst written now m.entries) (hc : Covered version written m has putOff since) {k : K} {v : V}
    (hv : m.lookup k = some v) :
    Owed has (offer version written since settledEntry settled ready m putOff).2 k (version v) ∨
      Sigma.mk k v ∈ (offer version written since settledEntry settled ready m putOff).1 := by
  rcases hc k v hv with hfresh | howed
  · have hmem : Sigma.mk k v ∈ m.entries := AList.mem_lookup_iff.mp hv
    cases hset : settledEntry k v with
    | true => exact .inl (.inl (hs.entry k v hv hset))
    | false =>
      have hscan := mem_scan version written since settledEntry ready putOff m.nodupKeys hnew _ hmem hfresh hset
      cases hr : ready k with
      | true => exact .inr (List.mem_append_left _ (hscan.1 hr))
      | false => exact .inl (Owed.retained hs hv (.inr ⟨_, hscan.2 hr, Nat.le_refl _⟩))
  · exact .inl (howed.offered hs hv)

end Offer

/-! ## The record of a link -/

/-- What one side keeps of the other: the versions known to be there (`saved`), those put off, the last pass that went
through, and the passes that may still do (`pending`, what they offered and when they began). -/
structure Tracked (version : V → Nat) (written : V → Option Nat) (now : Nat) (m : AList (fun _ : K => V)) (has : K → Nat)
    (saved putOff : AList (fun _ : K => Nat)) (since : Option Nat) (pending : (K → Nat → Prop) → Nat → Prop) : Prop where
  order : NewestFirst written now m.entries
  since_le : ∀ t, since = some t → t ≤ now
  saved_le : ∀ k w, saved.lookup k = some w → w ≤ has k
  covered : Covered version written m has putOff since
  awaited : ∀ offered t, pending offered t → t ≤ now ∧ Awaited version written m has putOff offered t

namespace Tracked
variable {version : V → Nat} {written : V → Option Nat} {now now' : Nat} {m m' : AList (fun _ : K => V)}
  {has has' : K → Nat} {saved saved' putOff : AList (fun _ : K => Nat)} {since : Option Nat}
  {pending pending' : (K → Nat → Prop) → Nat → Prop}

/-- With nothing held, known or on its way. -/
theorem start (now : Nat) (has : K → Nat) (hnone : ∀ offered t, ¬ pending offered t) :
    Tracked version written now (∅ : AList (fun _ : K => V)) has ∅ ∅ none pending where
  order := ⟨fun e he => absurd he List.not_mem_nil, List.Pairwise.nil⟩
  since_le := fun t ht => by cases ht
  saved_le := fun k w hw => by cases hw
  covered := covered_none _ has ∅
  awaited := fun offered t hp => absurd hp (hnone offered t)

/-- Time passes, this side writes, the other side learns. -/
theorem writes (h : Tracked version written now m has saved putOff since pending) (hnow : now ≤ now')
    (hm : Writes written now' m m') (hle : ∀ k, has k ≤ has' k) :
    Tracked version written now' m' has' saved putOff since pending where
  order := (h.order.mono hnow).writes hm
  since_le := fun t ht => (h.since_le t ht).trans hnow
  saved_le := fun k w hw => (h.saved_le k w hw).trans (hle k)
  covered := h.covered.writes hm (fun t ht => (h.since_le t ht).trans hnow) hle
  awaited := fun offered t hp =>
    ⟨(h.awaited offered t hp).1.trans hnow, (h.awaited offered t hp).2.writes hm ((h.awaited offered t hp).1.trans hnow) hle⟩

theorem fewer (h : Tracked version written now m has saved putOff since pending)
    (hsub : ∀ offered t, pending' offered t → pending offered t) :
    Tracked version written now m has saved putOff since pending' :=
  ⟨h.order, h.since_le, h.saved_le, h.covered, fun offered t hp => h.awaited offered t (hsub offered t hp)⟩

theorem save (h : Tracked version written now m has saved putOff since pending)
    (hs : ∀ k w, saved'.lookup k = some w → w ≤ has k) : Tracked version written now m has saved' putOff since pending :=
  ⟨h.order, h.since_le, hs, h.covered, h.awaited⟩

/-- A pass is made; its offer may be pending afterwards. -/
theorem pass {settledEntry : K → V → Bool} {settled : K → Nat → Bool} (ready : K → Bool) (out : K → Nat → Prop)
    (h : Tracked version written now m has saved putOff since pending)
    (hs : Settles version settledEntry settled m has)
    (hout : ∀ k v, Sigma.mk k v ∈ (offer version written since settledEntry settled ready m putOff).1 →
      version v ≤ has k ∨ ∃ n, out k n ∧ version v ≤ n)
    (hp : ∀ offered t, pending' offered t → pending offered t ∨ (offered = out ∧ t = now)) :
    Tracked version written now m has saved (offer version written since settledEntry settled ready m putOff).2 since
      pending' where
  order := h.order
  since_le := h.since_le
  saved_le := h.saved_le
  covered := h.covered.offered hs
  awaited := by
    intro offered t hpt
    rcases hp offered t hpt with hold | ⟨rfl, rfl⟩
    · exact ⟨(h.awaited offered t hold).1, (h.awaited offered t hold).2.offered hs⟩
    · refine ⟨Nat.le_refl _, ?_⟩
      intro k v hv
      have hall : Owed has (offer version written since settledEntry settled ready m putOff).2 k (version v) ∨
          Sigma.mk k v ∈ (offer version written since settledEntry settled ready m putOff).1 :=
        offer_complete hs h.order h.covered hv
      rcases hall with ho | hmem
      · exact .inr (.inl ho)
      · rcases hout k v hmem with hhas | hn
        · exact .inr (.inl (.inl hhas))
        · exact .inr (.inr hn)

/-- A pending pass has gone through. -/
theorem confirm {offered : K → Nat → Prop} {t : Nat} (h : Tracked version written now m has saved putOff since pending)
    (hp : pending offered t) (hcame : ∀ k n, offered k n → n ≤ has k) :
    Tracked version written now m has saved putOff (later since t) pending where
  order := h.order
  since_le := by
    intro s hs
    rcases later_cases since t with heq | heq
    · rw [heq] at hs
      cases hs
      exact (h.awaited offered t hp).1
    · rw [heq] at hs
      exact h.since_le s hs
  saved_le := h.saved_le
  covered := h.covered.confirm (h.awaited offered t hp).2 hcame
  awaited := h.awaited

/-- The record is dropped. Passes still pending stay good only if nothing was put off. -/
theorem drop (h : Tracked version written now m has saved putOff since pending)
    (hkeep : ∀ offered t, pending' offered t → pending offered t ∧ putOff = ∅) :
    Tracked version written now m has ∅ ∅ none pending' where
  order := h.order
  since_le := fun t ht => by cases ht
  saved_le := fun k w hw => by cases hw
  covered := covered_none m has ∅
  awaited := by
    intro offered t hp
    obtain ⟨hp, rfl⟩ := hkeep offered t hp
    exact h.awaited offered t hp

end Tracked

end Effects
