import Mathlib.Data.List.Sort
import Mathlib.Data.Set.Insert
import EasyTierHost.Abstractions.AddressText
import EasyTierHost.Core.Configuration

/- The address check of NodeReadiness.cs: which of the local addresses lie in the
   overlay, and whether they are what the role of the node calls for. The source
   collects the texts of the addresses, each once and in ordinal order (the texts
   are ASCII, where that is the order of the characters), and works on the texts;
   what decides is the set of addresses behind them. -/
namespace EasyTierHost

/-- `NodeReadinessResult`. -/
structure NodeReadinessResult where
  ready : Bool
  reason : String
  overlayIp : Option String := none
  deriving DecidableEq, Repr

namespace NodeReadiness

/-- `overlay`: the texts of the overlay addresses. -/
def overlay (addresses : List IPAddress) : List String :=
  (((addresses.filter (fun ip => ip.isV4 && OverlayAddressPlan.isOverlay ip)).map
    IPAddress.text).eraseDups).insertionSort (· ≤ ·)

/-- The text of the address a dedicated server owns; no index is written as nothing. -/
def dedicatedText (index : Option Int) : String := "10.10.0." ++ (index.map toString).getD ""

/-- The `switch` on the role, for the one overlay address there is. -/
def judge (profile : NetworkProfile) (own : String) (actual : IPAddress) : NodeReadinessResult :=
  match profile.role with
  | .gateway =>
    if own = OverlayAddressPlan.gateway then ⟨true, "Gateway overlay address ready", some own⟩
    else ⟨false, "Gateway must own " ++ OverlayAddressPlan.gateway, some own⟩
  | .dedicated =>
    if (profile.dedicatedIndex.any (fun i => decide (2 ≤ i ∧ i ≤ 10))) = true ∧
        own = dedicatedText profile.dedicatedIndex then
      ⟨true, "Dedicated server overlay address ready", some own⟩
    else ⟨false, "Dedicated server must own " ++ dedicatedText profile.dedicatedIndex, some own⟩
  | .client =>
    if OverlayAddressPlan.isClient actual then
      ⟨true, "Client DHCP overlay address ready", some own⟩
    else ⟨false, "Client overlay address is outside the DHCP client range", some own⟩
  | .seed => ⟨false, "Unsupported node role", some own⟩

/-- `NodeReadiness.Evaluate`; `IPAddress.Parse` may throw. -/
def evaluate (profile : NetworkProfile) (addresses : List IPAddress) :
    Except Err NodeReadinessResult :=
  let overlay := overlay addresses
  if profile.role = .seed then
    match overlay with
    | [] => .ok ⟨true, "Seed has no overlay TUN address", none⟩
    | first :: _ => .ok ⟨false, "Seed must not own an overlay TUN address", some first⟩
  else
    match overlay with
    | [own] =>
      match IPAddress.tryParse own with
      | some actual => .ok (judge profile own actual)
      | none => .error .format
    | _ => .ok ⟨false, "Expected exactly one overlay address, found " ++ toString overlay.length,
        overlay.head?⟩

example : (evaluate { networkName := "home", secretFile := "secret", role := .gateway }
    [.v4 192 168 1 2, .v4 10 10 0 1, .v6 "fe80::1", .v4 10 10 0 1]).toOption =
    some ⟨true, "Gateway overlay address ready", some "10.10.0.1"⟩ := by decide +kernel

/-! ## The addresses behind the texts -/

/-- The IPv4 addresses of 10.10.0.0/16 in a list. -/
def overlaySet (addresses : List IPAddress) : Set IPAddress :=
  {ip | ip ∈ addresses ∧ ∃ c d, ip = .v4 10 10 c d}

/-- The test of the first sixteen bits is the test of the first two octets. -/
theorem isOverlay_iff {ip : IPAddress} :
    (ip.isV4 && OverlayAddressPlan.isOverlay ip) = true ↔ ∃ c d, ip = .v4 10 10 c d := by
  cases ip with
  | v6 t => simp [IPAddress.isV4]
  | v4 a b c d =>
    have hb := b.toNat_lt
    have hc := c.toNat_lt
    have hd := d.toNat_lt
    have hdiv : (a.toNat * 2^24 + b.toNat * 2^16 + c.toNat * 2^8 + d.toNat) / 2^16 =
        a.toNat * 256 + b.toNat := by omega
    show (true && (a.toNat * 2^24 + b.toNat * 2^16 + c.toNat * 2^8 + d.toNat) / 2^16 == 0x0a0a) =
      true ↔ _
    rw [hdiv, Bool.true_and, beq_iff_eq]
    constructor
    · intro h
      refine ⟨c, d, ?_⟩
      have ha : a = 10 := UInt8.toNat_inj.1 (by show a.toNat = 10; omega)
      have hb : b = 10 := UInt8.toNat_inj.1 (by show b.toNat = 10; omega)
      rw [ha, hb]
    · intro h
      obtain ⟨c', d', h⟩ := h
      cases h
      rfl

theorem nodup_overlay (addresses : List IPAddress) : (overlay addresses).Nodup := by
  have hperm := List.perm_insertionSort (· ≤ ·) (((addresses.filter (fun ip =>
    ip.isV4 && OverlayAddressPlan.isOverlay ip)).map IPAddress.text).eraseDups)
  exact hperm.nodup_iff.mpr (nodup_eraseDups _)

theorem mem_overlay {addresses : List IPAddress} {s : String} :
    s ∈ overlay addresses ↔ ∃ ip ∈ overlaySet addresses, ip.text = s := by
  rw [overlay, List.mem_insertionSort, List.mem_eraseDups, List.mem_map]
  constructor
  · intro h
    obtain ⟨ip, hip, ht⟩ := h
    obtain ⟨hmem, hv⟩ := List.mem_filter.mp hip
    exact ⟨ip, ⟨hmem, isOverlay_iff.mp hv⟩, ht⟩
  · intro h
    obtain ⟨ip, hip, ht⟩ := h
    exact ⟨ip, List.mem_filter.mpr ⟨hip.1, isOverlay_iff.mpr hip.2⟩, ht⟩

/-- Two overlay addresses with one text are one address. -/
theorem text_inj {addresses : List IPAddress} {ip ip' : IPAddress} (h : ip ∈ overlaySet addresses)
    (h' : ip' ∈ overlaySet addresses) (ht : ip.text = ip'.text) : ip = ip' := by
  obtain ⟨-, c, d, rfl⟩ := h
  obtain ⟨-, c', d', rfl⟩ := h'
  exact IPAddress.text_v4_inj ht

theorem overlay_eq_nil {addresses : List IPAddress} :
    overlay addresses = [] ↔ overlaySet addresses = ∅ := by
  rw [List.eq_nil_iff_forall_not_mem, Set.eq_empty_iff_forall_notMem]
  constructor
  · intro h ip hip
    exact h ip.text (mem_overlay.mpr ⟨ip, hip, rfl⟩)
  · intro h s hs
    obtain ⟨ip, hip, -⟩ := mem_overlay.mp hs
    exact h ip hip

/-- One text is left when there is one address. -/
theorem overlay_eq_singleton {addresses : List IPAddress} {s : String} :
    overlay addresses = [s] ↔ ∃ c d, overlaySet addresses = {.v4 10 10 c d} ∧
      (IPAddress.v4 10 10 c d).text = s := by
  constructor
  · intro h
    have hs : s ∈ overlay addresses := by rw [h]; exact List.mem_singleton_self s
    obtain ⟨ip, hip, ht⟩ := mem_overlay.mp hs
    obtain ⟨c, d, he⟩ := hip.2
    refine ⟨c, d, ?_, he ▸ ht⟩
    rw [← he, Set.eq_singleton_iff_unique_mem]
    refine ⟨hip, ?_⟩
    intro ip' hip'
    have hs' : ip'.text ∈ overlay addresses := mem_overlay.mpr ⟨ip', hip', rfl⟩
    rw [h, List.mem_singleton] at hs'
    exact text_inj hip' hip (hs'.trans ht.symm)
  · intro h
    obtain ⟨c, d, hset, ht⟩ := h
    apply List.perm_singleton.mp
    rw [List.perm_ext_iff_of_nodup (nodup_overlay addresses) (List.nodup_singleton s)]
    intro t
    rw [mem_overlay, hset, List.mem_singleton]
    constructor
    · intro h
      obtain ⟨ip, hip, hts⟩ := h
      cases Set.mem_singleton_iff.mp hip
      exact hts.symm.trans ht
    · intro h
      exact ⟨_, rfl, ht.trans h.symm⟩

/-! ## What readiness is -/

theorem evaluate_seed {profile : NetworkProfile} (hrole : profile.role = .seed)
    (addresses : List IPAddress) : ∃ result, evaluate profile addresses = .ok result ∧
      (result.ready = true ↔ overlaySet addresses = ∅) := by
  rw [← overlay_eq_nil]
  simp only [evaluate, if_pos hrole]
  cases overlay addresses with
  | nil => exact ⟨_, rfl, by simp⟩
  | cons first rest => exact ⟨_, rfl, by simp⟩

/-- For the other roles exactly one overlay address must be there, and the role
decides on it; its text always parses. -/
theorem evaluate_owner {profile : NetworkProfile} (hrole : profile.role ≠ .seed)
    (addresses : List IPAddress) : ∃ result, evaluate profile addresses = .ok result ∧
      (result.ready = true ↔ ∃ c d, overlaySet addresses = {.v4 10 10 c d} ∧
        (judge profile (IPAddress.v4 10 10 c d).text (.v4 10 10 c d)).ready = true) := by
  by_cases hone : ∃ s, overlay addresses = [s]
  · obtain ⟨s, hs⟩ := hone
    obtain ⟨c, d, hset, rfl⟩ := overlay_eq_singleton.mp hs
    simp only [evaluate, if_neg hrole, hs, IPAddress.tryParse_text]
    refine ⟨_, rfl, ?_⟩
    constructor
    · intro h
      exact ⟨c, d, hset, h⟩
    · intro h
      obtain ⟨c', d', hset', hj⟩ := h
      cases Set.singleton_injective (hset.symm.trans hset')
      exact hj
  · have hnone : ¬ ∃ c d, overlaySet addresses = {.v4 10 10 c d} ∧
        (judge profile (IPAddress.v4 10 10 c d).text (.v4 10 10 c d)).ready = true := by
      intro h
      obtain ⟨c, d, hset, -⟩ := h
      exact hone ⟨_, overlay_eq_singleton.mpr ⟨c, d, hset, rfl⟩⟩
    simp only [evaluate, if_neg hrole]
    split
    next s hs => exact absurd ⟨s, hs⟩ hone
    next =>
      refine ⟨_, rfl, ?_⟩
      simp [hnone]

end NodeReadiness
end EasyTierHost
