import EasyTierHost.Instance.Dhcp

/- The allocator of dhcp_range.rs in full. `candidate` walks a `RangeInclusive<u32>` one
   step at a time and builds the address it stops at with a checked constructor, so
   two things could go wrong beside the choice itself: a walk that does not end at the
   top of the address space, and the `unwrap`. Neither can, and what is chosen is the
   lowest address of the pool that nobody uses. -/
namespace EasyTierHost

/-! ## Ranges of 32-bit numbers -/

/-- `RangeInclusive<u32>`. `exhausted` is set when the end itself has been given out:
there may be no number above it to move on to. -/
structure RangeInclusive where
  start : UInt32
  «end» : UInt32
  exhausted : Bool
  deriving DecidableEq, Repr

namespace RangeInclusive

/-- `RangeInclusive::next`. -/
def next (r : RangeInclusive) : Option (UInt32 × RangeInclusive) :=
  if r.exhausted ∨ r.end < r.start then none
  else if r.start < r.end then some (r.start, { r with start := r.start + 1 })
  else some (r.start, { r with exhausted := true })

/-- `Iterator::find`, for `fuel` steps at most; without a result it is still walking. -/
def find (p : UInt32 → Bool) : Nat → RangeInclusive → Option (Option UInt32)
  | 0, _ => none
  | fuel + 1, r =>
    match r.next with
    | none => some none
    | some (n, rest) => if p n then some (some n) else find p fuel rest

/-- The numbers a range has yet to give out. -/
def remaining (r : RangeInclusive) : List UInt32 :=
  if r.exhausted then []
  else (List.range' r.start.toNat (r.end.toNat + 1 - r.start.toNat)).map UInt32.ofNat

theorem remaining_of_next_none {r : RangeInclusive} (h : r.next = none) : r.remaining = [] := by
  rw [next] at h
  split at h
  · next hend =>
    rw [remaining]
    rcases hend with he | he
    · rw [if_pos he]
    · have hlt := UInt32.lt_iff_toNat_lt.mp he
      have hnone : r.end.toNat + 1 - r.start.toNat = 0 := by omega
      rw [hnone]
      simp
  · split at h
    · cases h
    · cases h

/-- A step gives out the first of the numbers that remain. -/
theorem remaining_of_next_some {r rest : RangeInclusive} {n : UInt32} (h : r.next = some (n, rest)) :
    r.remaining = n :: rest.remaining := by
  rw [next] at h
  split at h
  · cases h
  · next hgoing =>
    rw [not_or, Bool.not_eq_true, UInt32.not_lt, UInt32.le_iff_toNat_le] at hgoing
    obtain ⟨hfresh, hle⟩ := hgoing
    split at h
    · next hlt =>
      -- there is a number above the start, so adding one does not wrap
      obtain ⟨rfl, rfl⟩ := Prod.mk.inj (Option.some.inj h)
      rw [UInt32.lt_iff_toNat_lt] at hlt
      have hend := r.end.toNat_lt
      have hnext : (r.start + 1).toNat = r.start.toNat + 1 := by
        rw [UInt32.toNat_add, UInt32.toNat_one, Nat.mod_eq_of_lt (by omega)]
      have hcount : r.end.toNat + 1 - r.start.toNat = (r.end.toNat + 1 - (r.start.toNat + 1)) + 1 := by omega
      simp only [remaining, hfresh, Bool.false_eq_true, if_false, hnext, hcount, List.range'_succ, List.map_cons,
        UInt32.ofNat_toNat]
    · next hlast =>
      obtain ⟨rfl, rfl⟩ := Prod.mk.inj (Option.some.inj h)
      rw [UInt32.lt_iff_toNat_lt] at hlast
      have hcount : r.end.toNat + 1 - r.start.toNat = 1 := by omega
      simp [remaining, hfresh, hcount]

/-- The walk ends within as many steps as there are numbers, and one to see the end. -/
theorem find_eq (p : UInt32 → Bool) (fuel : Nat) :
    ∀ r : RangeInclusive, r.remaining.length < fuel → find p fuel r = some (r.remaining.find? p) := by
  induction fuel with
  | zero => exact fun r h => absurd h (Nat.not_lt_zero _)
  | succ fuel ih =>
    intro r h
    rw [find]
    cases hn : r.next with
    | none => rw [remaining_of_next_none hn, List.find?_nil]
    | some step =>
      obtain ⟨n, rest⟩ := step
      rw [remaining_of_next_some hn, List.length_cons] at h
      rw [remaining_of_next_some hn]
      show (if p n = true then some (some n) else find p fuel rest) = _
      by_cases hp : p n = true
      · rw [if_pos hp, List.find?_cons_of_pos hp]
      · rw [if_neg hp, List.find?_cons_of_neg hp, ih rest (by omega)]

end RangeInclusive

/-! ## The allocator of the source -/

namespace DhcpRange

/-- The numbers `candidate` walks over. -/
def walk (range : DhcpRange) : RangeInclusive := ⟨range.start, range.end, false⟩

/-- `candidate` for `fuel` steps of its walk: nothing if it is still walking, an error if
the `unwrap` panics. -/
def candidateWalk (L : InetLib) (range : DhcpRange) (used : List Ipv4Inet) (fuel : Nat) :
    Option (Except String (Option Ipv4Inet)) :=
  (range.walk.find (fun ip => !(used.map Ipv4Inet.address).contains ip) fuel).map (fun found =>
    match found with
    | none => .ok none
    | some ip => (L.new ip range.network.networkLength).map some)

variable {L : InetLib} {range : DhcpRange} {used : List Ipv4Inet}

theorem remaining_walk : range.walk.remaining = range.addresses := rfl

/-- The walk ends, and the `unwrap` does not panic. -/
theorem candidateWalk_eq {fuel : Nat} (h : range.addresses.length < fuel) :
    range.candidateWalk L used fuel = some (.ok (range.candidate used)) := by
  rw [candidateWalk, RangeInclusive.find_eq _ _ _ (by rwa [remaining_walk]), remaining_walk, Option.map_some,
    candidate]
  cases range.addresses.find? (fun ip => !(used.map Ipv4Inet.address).contains ip) with
  | none => rfl
  | some ip => simp [L.new_ok _ _ range.network.bound, Except.map]

/-- The addresses of a pool ascend. -/
theorem addresses_ascending : range.addresses.Pairwise (· < ·) := by
  rw [addresses, List.pairwise_map]
  refine List.Pairwise.imp_of_mem ?_ (List.pairwise_lt_range' (s := range.start.toNat))
  intro a b ha hb hab
  obtain ⟨i, hi, ha⟩ := List.mem_range'.mp ha
  obtain ⟨j, hj, hb⟩ := List.mem_range'.mp hb
  have hend := range.end.toNat_lt
  rw [UInt32.lt_iff_toNat_lt, UInt32.toNat_ofNat', UInt32.toNat_ofNat', Nat.mod_eq_of_lt (by omega),
    Nat.mod_eq_of_lt (by omega)]
  exact hab

/-- No lower address of the pool is free. -/
theorem candidate_lowest {inet : Ipv4Inet} (h : range.candidate used = some inet) {ip : Ipv4Addr}
    (hc : range.contains ip = true) (hlt : ip < inet.address) : ∃ u ∈ used, u.address = ip := by
  obtain ⟨a, ha, he⟩ := Option.map_eq_some_iff.mp h
  subst he
  obtain ⟨-, lower, higher, hsplit, hused⟩ := List.find?_eq_some_iff_append.mp ha
  have hm : ip ∈ lower ++ a :: higher := hsplit ▸ mem_addresses.mpr hc
  have hord : range.addresses.Pairwise (· < ·) := addresses_ascending
  rw [hsplit, List.pairwise_append, List.pairwise_cons] at hord
  rcases List.mem_append.mp hm with hm | hm
  · have hu := hused ip hm
    simp only [Bool.not_not, List.contains_eq_mem, decide_eq_true_eq] at hu
    exact List.mem_map.mp hu
  · rcases List.mem_cons.mp hm with rfl | hm
    · exact absurd hlt (UInt32.lt_irrefl _)
    · exact absurd hlt (UInt32.lt_asymm (hord.2.1.1 ip hm))

/-! ## The allocator -/

/-- What the allocator returns for a valid pool and any addresses in use, and that it
does return. -/
theorem candidate_spec (L : InetLib) (range : DhcpRange) (hv : range.validate L = .ok ())
    (used : List Ipv4Inet) :
    (∀ inet, range.candidate used = some inet ↔
      inet.networkLength = range.network.networkLength ∧
        (range.start ≤ inet.address ∧ inet.address ≤ range.end) ∧
        (∀ u ∈ used, u.address ≠ inet.address) ∧
        ∀ ip, range.start ≤ ip → ip < inet.address → ∃ u ∈ used, u.address = ip) ∧
    (range.candidate used = none ↔
      ∀ ip, range.start ≤ ip → ip ≤ range.end → ∃ u ∈ used, u.address = ip) ∧
    (∀ inet, range.candidate used = some inet →
      L.contains (L.network range.network) inet.address = true ∧
        inet.address ≠ L.firstAddress range.network ∧ inet.address ≠ L.lastAddress range.network ∧
        range.contains inet.address = true) ∧
    ∃ steps, ∀ fuel, steps ≤ fuel → range.candidateWalk L used fuel = some (.ok (range.candidate used)) := by
  have hin : ∀ {ip : Ipv4Addr}, range.start ≤ ip → ip ≤ range.end → range.contains ip = true := by
    intro ip hlo hhi
    exact contains_iff.mpr ⟨UInt32.le_iff_toNat_le.mp hlo, UInt32.le_iff_toNat_le.mp hhi⟩
  have hends : ∀ {ip : Ipv4Addr}, range.contains ip = true → range.start ≤ ip ∧ ip ≤ range.end := by
    intro ip hc
    exact ⟨UInt32.le_iff_toNat_le.mpr (contains_iff.mp hc).1, UInt32.le_iff_toNat_le.mpr (contains_iff.mp hc).2⟩
  refine ⟨fun inet => ⟨fun h => ?_, fun h => ?_⟩, ⟨fun h => ?_, fun h => ?_⟩, fun inet h => ?_, ?_⟩
  · obtain ⟨hc, hlen, hfree⟩ := candidate_some h
    refine ⟨hlen, hends hc, hfree, fun ip hlo hlt => ?_⟩
    exact candidate_lowest h (hin hlo (UInt32.le_trans (UInt32.le_of_lt hlt) (hends hc).2)) hlt
  · obtain ⟨hlen, ⟨hlo, hhi⟩, hfree, hlowest⟩ := h
    cases hcand : range.candidate used with
    | none =>
      obtain ⟨u, hu, he⟩ := candidate_none hcand (hin hlo hhi)
      exact absurd he (hfree u hu)
    | some other =>
      obtain ⟨hc, hlen', hfree'⟩ := candidate_some hcand
      -- neither is below the other: what is below either is in use
      have haddr : other.address = inet.address := by
        rcases Nat.lt_trichotomy other.address.toNat inet.address.toNat with hlt | heq | hlt
        · obtain ⟨u, hu, he⟩ := hlowest other.address (hends hc).1 (UInt32.lt_iff_toNat_lt.mpr hlt)
          exact absurd he (hfree' u hu)
        · exact UInt32.toNat_inj.mp heq
        · obtain ⟨u, hu, he⟩ := candidate_lowest hcand (hin hlo hhi) (UInt32.lt_iff_toNat_lt.mpr hlt)
          exact absurd he (hfree u hu)
      cases inet
      cases other
      simp only at haddr hlen hlen'
      simp [haddr, hlen, hlen']
  · exact fun ip hlo hhi => candidate_none h (hin hlo hhi)
  · cases hcand : range.candidate used with
    | none => rfl
    | some inet =>
      obtain ⟨hc, -, hfree⟩ := candidate_some hcand
      obtain ⟨u, hu, he⟩ := h inet.address (hends hc).1 (hends hc).2
      exact absurd he (hfree u hu)
  · obtain ⟨hc, -, -⟩ := candidate_some h
    obtain ⟨hfirst, hlast⟩ := inner_of_contains hv hc
    refine ⟨network_of_contains hv hc, ?_, ?_, hc⟩
    · exact (UInt32.ne_of_lt hfirst).symm
    · exact UInt32.ne_of_lt hlast
  · exact ⟨range.addresses.length + 1, fun fuel h => candidateWalk_eq h⟩

/-- A pool at the top of the address space, with an address in use under another prefix. -/
theorem candidate_at_the_top :
    let top : DhcpRange := ⟨⟨0xFFFFFF00, 24, by decide⟩, 0xFFFFFFFD, 0xFFFFFFFE⟩
    top.candidate [⟨0xFFFFFFFD, 8, by decide⟩] = some ⟨0xFFFFFFFE, 24, by decide⟩ ∧
      ∃ steps, ∀ fuel, steps ≤ fuel →
        top.candidateWalk maskedInets [⟨0xFFFFFFFD, 8, by decide⟩] fuel
          = some (.ok (some ⟨0xFFFFFFFE, 24, by decide⟩)) := by
  intro top
  have hcand : top.candidate [⟨0xFFFFFFFD, 8, by decide⟩] = some ⟨0xFFFFFFFE, 24, by decide⟩ := by decide +kernel
  refine ⟨hcand, ?_⟩
  rw [← hcand]
  exact (candidate_spec maskedInets top (by decide +kernel) [⟨0xFFFFFFFD, 8, by decide⟩]).2.2.2

end DhcpRange

end EasyTierHost
