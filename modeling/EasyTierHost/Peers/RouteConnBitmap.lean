import EasyTierHost.Bits.Bitmap
import EasyTierHost.Effects.Upsert
import EasyTierHost.Peers.SyncedRouteInfo
import Mathlib.Data.Finset.Basic
import Mathlib.Data.List.Sort

/- Who is connected to whom as a matrix of bits (peers/peer_ospf_route.rs): row and column
   stand for the listed peers, and bit `i * n + j` says that peer `i` is connected to peer
   `j`. The list has every reachable peer that has said something, under its version,
   and every peer one of them is connected to, under version 0 if it has no other. -/
namespace EasyTierHost.Peers
open Bits Effects

structure RouteConnBitmap where
  peer_ids : List PeerIdVersion
  bitmap : List Byte
deriving DecidableEq

namespace RouteConnBitmap

/-! ## Reading -/

/-- `none` is an index beyond the bytes, where the source panics. -/
def get_bit (b : RouteConnBitmap) (idx : Nat) : Option Bool := getBit? b.bitmap idx

def get_connected_peers (b : RouteConnBitmap) (peer_idx : Nat) : Option (Finset PeerId) :=
  b.peer_ids.zipIdx.foldlM (fun connected_peers x => do
    let bit ← b.get_bit (peer_idx * b.peer_ids.length + x.2)
    return if bit then insert x.1.peer_id connected_peers else connected_peers) ∅

/-! ## Writing -/

/-- Who is to be listed: the reachable peers under their versions, then those they are connected to under 0. -/
def found (reachable : PeerId → Bool) (conn_map : AList (fun _ : PeerId => RouteConnInfo)) : List (PeerId × Nat) :=
  (conn_map.entries.filter fun e => reachable e.1).flatMap fun e =>
    (e.1, e.2.version) :: (e.2.connected_peers.sort (· ≤ ·)).map (·, 0)

/-- The listed peers in order, each under the highest version found for it. -/
def allPeerIds (reachable : PeerId → Bool) (conn_map : AList (fun _ : PeerId => RouteConnInfo)) : List PeerIdVersion :=
  let all_peer_ids := (found reachable conn_map).foldl
    (fun m x => upsert (fun version old => decide (old < version)) id m x.1 x.2) (∅ : AList (fun _ : PeerId => Nat))
  (all_peer_ids.entries.insertionSort (fun a b => a.1 ≤ b.1)).map fun e => ⟨e.1, e.2⟩

/-- The bits to be set. -/
def connBits (peer_ids : List PeerIdVersion) (conn_map : AList (fun _ : PeerId => RouteConnInfo)) : List Nat :=
  peer_ids.zipIdx.flatMap fun x =>
    match conn_map.lookup x.1.peer_id with
    | none => []
    | some connected =>
      (peer_ids.zipIdx.filter fun y => y.1.peer_id ∈ connected.connected_peers).map fun y => x.2 * peer_ids.length + y.2

/-- The peers and versions are read first, the connections then from what the map is by that time. -/
def build (reachable : PeerId → Bool) (conn_map locked_conn_map : AList (fun _ : PeerId => RouteConnInfo)) :
    RouteConnBitmap :=
  let peer_ids := allPeerIds reachable conn_map
  { peer_ids := peer_ids
    bitmap := (connBits peer_ids locked_conn_map).foldl setBit
      (List.replicate ((peer_ids.length * peer_ids.length + 7) / 8) 0) }

/-! ## What is read back -/

variable {reachable : PeerId → Bool} {conn_map locked_conn_map : AList (fun _ : PeerId => RouteConnInfo)}

/-- Row and column of a bit. -/
theorem cell_unique {n i j i' j' : Nat} (hj : j < n) (hj' : j' < n) (h : i * n + j = i' * n + j') : i = i' ∧ j = j' := by
  have hi : (i * n + j) / n = i := by
    rw [Nat.mul_comm, Nat.mul_add_div (by omega), Nat.div_eq_of_lt hj, Nat.add_zero]
  have hi' : (i' * n + j') / n = i' := by
    rw [Nat.mul_comm, Nat.mul_add_div (by omega), Nat.div_eq_of_lt hj', Nat.add_zero]
  have hrow : i = i' := by rw [← hi, h, hi']
  subst hrow
  exact ⟨rfl, by omega⟩

theorem cell_lt {n i j : Nat} (hi : i < n) (hj : j < n) : i * n + j < n * n :=
  calc i * n + j < i * n + n := by omega
    _ = (i + 1) * n := by rw [Nat.succ_mul]
    _ ≤ n * n := Nat.mul_le_mul_right n hi

theorem mem_connBits {peer_ids : List PeerIdVersion} {b : Nat} : b ∈ connBits peer_ids locked_conn_map ↔
    ∃ i j x y c, peer_ids[i]? = some x ∧ peer_ids[j]? = some y ∧ locked_conn_map.lookup x.peer_id = some c ∧
      y.peer_id ∈ c.connected_peers ∧ b = i * peer_ids.length + j := by
  unfold connBits
  rw [List.mem_flatMap]
  constructor
  · rintro ⟨x, hx, hb⟩
    have hx' := List.mem_zipIdx_iff_getElem?.mp hx
    cases hc : locked_conn_map.lookup x.1.peer_id with
    | none => rw [hc] at hb; exact absurd hb List.not_mem_nil
    | some c =>
      rw [hc] at hb
      obtain ⟨y, hy, rfl⟩ := List.mem_map.mp hb
      obtain ⟨hy, hconn⟩ := List.mem_filter.mp hy
      exact ⟨x.2, y.2, x.1, y.1, c, hx', List.mem_zipIdx_iff_getElem?.mp hy, hc, of_decide_eq_true hconn, rfl⟩
  · rintro ⟨i, j, x, y, c, hx, hy, hc, hconn, rfl⟩
    refine ⟨(x, i), List.mem_zipIdx_iff_getElem?.mpr hx, ?_⟩
    rw [hc]
    exact List.mem_map.mpr ⟨(y, j), List.mem_filter.mpr ⟨List.mem_zipIdx_iff_getElem?.mpr hy, decide_eq_true hconn⟩, rfl⟩

theorem build_length (n : Nat) : n * n ≤ 8 * ((n * n + 7) / 8) := by omega

/-- A bit says what the map said when the rows were filled. -/
theorem get_bit_build {i j : Nat} {x y : PeerIdVersion} (hx : (build reachable conn_map locked_conn_map).peer_ids[i]? = some x)
    (hy : (build reachable conn_map locked_conn_map).peer_ids[j]? = some y) :
    (build reachable conn_map locked_conn_map).get_bit (i * (build reachable conn_map locked_conn_map).peer_ids.length + j) =
      some (decide (∃ c, locked_conn_map.lookup x.peer_id = some c ∧ y.peer_id ∈ c.connected_peers)) := by
  have hi := (List.getElem?_eq_some_iff.mp hx).1
  have hj := (List.getElem?_eq_some_iff.mp hy).1
  set peer_ids := allPeerIds reachable conn_map with hids
  have hbits : ∀ b ∈ connBits peer_ids locked_conn_map,
      b < 8 * (List.replicate ((peer_ids.length * peer_ids.length + 7) / 8) (0 : Byte)).length := by
    intro b hb
    obtain ⟨i, j, x, y, c, hx, hy, -, -, rfl⟩ := mem_connBits.mp hb
    rw [List.length_replicate]
    exact (cell_lt (List.getElem?_eq_some_iff.mp hx).1 (List.getElem?_eq_some_iff.mp hy).1).trans_le (build_length _)
  show getBit? ((connBits peer_ids locked_conn_map).foldl setBit _) (i * peer_ids.length + j) = _
  rw [getBit?_eq_some, bit_foldl_setBit hbits, bit_replicate, Bool.or_false]
  · congr 1
    apply decide_eq_decide.mpr
    rw [mem_connBits]
    constructor
    · rintro ⟨i', j', x', y', c, hx', hy', hc, hconn, heq⟩
      obtain ⟨rfl, rfl⟩ := cell_unique hj (List.getElem?_eq_some_iff.mp hy').1 heq
      cases hx.symm.trans hx'
      cases hy.symm.trans hy'
      exact ⟨c, hc, hconn⟩
    · rintro ⟨c, hc, hconn⟩
      exact ⟨i, j, x, y, c, hx, hy, hc, hconn, rfl⟩
  · rw [length_foldl_setBit, List.length_replicate]
    exact (cell_lt hi hj).trans_le (build_length _)

/-- A row of readable bits is read as a set. -/
theorem foldlM_row (read : Nat → Option Bool) (set : PeerId → Bool) : ∀ (l : List (PeerIdVersion × Nat)) (s : Finset PeerId),
    (∀ x ∈ l, read x.2 = some (set x.1.peer_id)) →
    l.foldlM (fun s x => do
      let bit ← read x.2
      return if bit then insert x.1.peer_id s else s) s =
      some (s ∪ ((l.map (·.1.peer_id)).filter set).toFinset)
  | [], s, _ => by simp
  | x :: l, s, h => by
    have hx := h x List.mem_cons_self
    rw [List.foldlM_cons, hx]
    show l.foldlM _ (if set x.1.peer_id then insert x.1.peer_id s else s) = _
    rw [foldlM_row read set l _ fun y hy => h y (List.mem_cons_of_mem x hy), List.map_cons]
    cases hs : set x.1.peer_id with
    | true =>
      rw [if_pos rfl, List.filter_cons_of_pos hs, List.toFinset_cons, Finset.union_insert, Finset.insert_union]
    | false =>
      rw [if_neg Bool.false_ne_true, List.filter_cons_of_neg (by rw [hs]; exact Bool.false_ne_true)]

/-- The listed peers among those it was connected to. -/
theorem get_connected_peers_build {i : Nat} {x : PeerIdVersion}
    (hx : (build reachable conn_map locked_conn_map).peer_ids[i]? = some x) :
    (build reachable conn_map locked_conn_map).get_connected_peers i =
      some ((((build reachable conn_map locked_conn_map).peer_ids.map (·.peer_id)).filter fun q =>
        decide (∃ c, locked_conn_map.lookup x.peer_id = some c ∧ q ∈ c.connected_peers)).toFinset) := by
  unfold get_connected_peers
  rw [foldlM_row (fun j => get_bit _ (i * (build reachable conn_map locked_conn_map).peer_ids.length + j))
    (fun q => decide (∃ c, locked_conn_map.lookup x.peer_id = some c ∧ q ∈ c.connected_peers))]
  · rw [Finset.empty_union]
    congr 3
    show (List.zipIdx _).map (PeerIdVersion.peer_id ∘ Prod.fst) = _
    rw [← List.map_map, List.zipIdx_map_fst]
  · intro y hy
    exact get_bit_build hx (List.mem_zipIdx_iff_getElem?.mp hy)

/-! ## Who is listed -/

theorem mem_found {p : PeerId} {v : Nat} : (p, v) ∈ found reachable conn_map ↔
    (reachable p = true ∧ ∃ c, conn_map.lookup p = some c ∧ c.version = v) ∨
      (v = 0 ∧ ∃ q c, reachable q = true ∧ conn_map.lookup q = some c ∧ p ∈ c.connected_peers) := by
  unfold found
  rw [List.mem_flatMap]
  constructor
  · rintro ⟨⟨q, c⟩, he, hp⟩
    obtain ⟨he, hr⟩ := List.mem_filter.mp he
    have hc : conn_map.lookup q = some c := AList.mem_lookup_iff.mpr he
    rcases List.mem_cons.mp hp with heq | hp
    · cases heq
      exact .inl ⟨hr, c, hc, rfl⟩
    · obtain ⟨p', hp', heq⟩ := List.mem_map.mp hp
      cases heq
      exact .inr ⟨rfl, q, c, hr, hc, (Finset.mem_sort _).mp hp'⟩
  · rintro (⟨hr, c, hc, rfl⟩ | ⟨rfl, q, c, hr, hc, hp⟩)
    · exact ⟨⟨p, c⟩, List.mem_filter.mpr ⟨AList.mem_lookup_iff.mp hc, hr⟩, List.mem_cons_self⟩
    · refine ⟨⟨q, c⟩, List.mem_filter.mpr ⟨AList.mem_lookup_iff.mp hc, hr⟩, List.mem_cons_of_mem _ ?_⟩
      exact List.mem_map.mpr ⟨p, (Finset.mem_sort _).mpr hp, rfl⟩

/-- The highest of some versions. -/
theorem foldl_choose_max : ∀ (vs : List Nat) (v : Nat),
    ∃ w, vs.foldl (choose (fun version old => decide (old < version)) id) (some v) = some w ∧ v ≤ w ∧
      (∀ u ∈ vs, u ≤ w) ∧ w ∈ v :: vs
  | [], v => ⟨v, rfl, Nat.le_refl v, by simp, List.mem_cons_self⟩
  | u :: vs, v => by
    rw [List.foldl_cons, choose]
    by_cases huv : v < u
    · obtain ⟨w, hw, hle, hall, hmem⟩ := foldl_choose_max vs u
      rw [if_pos (decide_eq_true huv)]
      refine ⟨w, hw, by omega, ?_, List.mem_cons_of_mem v hmem⟩
      intro x hx
      rcases List.mem_cons.mp hx with rfl | hx
      · exact hle
      · exact hall x hx
    · obtain ⟨w, hw, hle, hall, hmem⟩ := foldl_choose_max vs v
      rw [if_neg (by rw [decide_eq_true_eq]; exact huv)]
      refine ⟨w, hw, hle, ?_, ?_⟩
      · intro x hx
        rcases List.mem_cons.mp hx with rfl | hx
        · omega
        · exact hall x hx
      · rcases List.mem_cons.mp hmem with rfl | hmem
        · exact List.mem_cons_self
        · exact List.mem_cons_of_mem v (List.mem_cons_of_mem u hmem)

/-- The versions found for a peer. -/
def versionsOf (l : List (PeerId × Nat)) (p : PeerId) : List Nat := (l.filter fun o => o.1 = p).map (·.2)

theorem mem_versionsOf {l : List (PeerId × Nat)} {p : PeerId} {v : Nat} : v ∈ versionsOf l p ↔ (p, v) ∈ l := by
  unfold versionsOf
  rw [List.mem_map]
  constructor
  · rintro ⟨o, ho, rfl⟩
    obtain ⟨ho, hp⟩ := List.mem_filter.mp ho
    rw [← of_decide_eq_true hp]
    exact ho
  · intro h
    exact ⟨_, List.mem_filter.mpr ⟨h, decide_eq_true rfl⟩, rfl⟩

/-- A peer is listed under the highest version found for it. -/
theorem mem_allPeerIds {x : PeerIdVersion} : x ∈ allPeerIds reachable conn_map ↔
    (x.peer_id, x.version) ∈ found reachable conn_map ∧
      ∀ v, (x.peer_id, v) ∈ found reachable conn_map → v ≤ x.version := by
  set m := (found reachable conn_map).foldl (fun m x => upsert (fun version old => decide (old < version)) id m x.1 x.2)
    (∅ : AList (fun _ : PeerId => Nat)) with hm
  have hmem : x ∈ allPeerIds reachable conn_map ↔ m.lookup x.peer_id = some x.version := by
    show x ∈ (m.entries.insertionSort _).map _ ↔ _
    rw [List.mem_map]
    constructor
    · rintro ⟨e, he, rfl⟩
      exact AList.mem_lookup_iff.mpr ((List.mem_insertionSort _).mp he)
    · intro h
      exact ⟨⟨x.peer_id, x.version⟩, (List.mem_insertionSort _).mpr (AList.mem_lookup_iff.mp h), rfl⟩
  rw [hmem, hm, lookup_foldl_upsert, AList.lookup_empty]
  simp only [← mem_versionsOf]
  show (versionsOf (found reachable conn_map) x.peer_id).foldl _ none = _ ↔ _
  cases versionsOf (found reachable conn_map) x.peer_id with
  | nil => simp
  | cons v vs =>
    obtain ⟨w, hw, hle, hall, hin⟩ := foldl_choose_max vs v
    have hup : ∀ u ∈ v :: vs, u ≤ w := by
      intro u hu
      rcases List.mem_cons.mp hu with rfl | hu
      · exact hle
      · exact hall u hu
    rw [List.foldl_cons, choose, id, hw, Option.some_inj]
    constructor
    · rintro rfl
      exact ⟨hin, hup⟩
    · rintro ⟨hxin, hxup⟩
      exact Nat.le_antisymm (hxup w hin) (hup _ hxin)

/-- A peer listed under a version that is not 0 is reachable and at that version. -/
theorem lookup_of_mem {x : PeerIdVersion} (hx : x ∈ allPeerIds reachable conn_map) (h0 : x.version ≠ 0) :
    reachable x.peer_id = true ∧ ∃ c, conn_map.lookup x.peer_id = some c ∧ c.version = x.version := by
  rcases mem_found.mp (mem_allPeerIds.mp hx).1 with h | ⟨h, -⟩
  · exact h
  · exact absurd h h0

/-- Every reachable peer with an entry is listed under its version. -/
theorem mem_of_lookup {p : PeerId} {c : RouteConnInfo} (hr : reachable p = true) (hc : conn_map.lookup p = some c) :
    ⟨p, c.version⟩ ∈ allPeerIds reachable conn_map := by
  refine mem_allPeerIds.mpr ⟨mem_found.mpr (.inl ⟨hr, c, hc, rfl⟩), ?_⟩
  intro v hv
  rcases mem_found.mp hv with ⟨-, c', hc', rfl⟩ | ⟨rfl, -⟩
  · cases hc.symm.trans hc'
    exact Nat.le_refl _
  · exact Nat.zero_le _

theorem found_listed {p : PeerId} {v : Nat} (h : (p, v) ∈ found reachable conn_map) :
    ∃ x ∈ allPeerIds reachable conn_map, x.peer_id = p := by
  have hmem : v ∈ versionsOf (found reachable conn_map) p := mem_versionsOf.mpr h
  obtain ⟨u, us, hus⟩ := List.exists_cons_of_ne_nil (List.ne_nil_of_mem hmem)
  obtain ⟨w, -, hle, hall, hin⟩ := foldl_choose_max us u
  refine ⟨⟨p, w⟩, mem_allPeerIds.mpr ⟨mem_versionsOf.mp (by rw [hus]; exact hin), ?_⟩, rfl⟩
  intro v' hv'
  have hv'' := mem_versionsOf.mpr hv'
  rw [hus] at hv''
  rcases List.mem_cons.mp hv'' with rfl | hv'
  · exact hle
  · exact hall v' hv'

/-- Read back from one state of the map, a reachable peer has the connections it had. -/
theorem get_connected_peers_of_reachable {i : Nat} {x : PeerIdVersion} {c : RouteConnInfo}
    (hx : (build reachable conn_map conn_map).peer_ids[i]? = some x) (hr : reachable x.peer_id = true)
    (hc : conn_map.lookup x.peer_id = some c) :
    (build reachable conn_map conn_map).get_connected_peers i = some c.connected_peers := by
  rw [get_connected_peers_build hx]
  congr 1
  ext q
  rw [List.mem_toFinset, List.mem_filter, List.mem_map, decide_eq_true_eq]
  constructor
  · rintro ⟨-, c', hc', hq⟩
    cases hc.symm.trans hc'
    exact hq
  · intro hq
    exact ⟨found_listed (mem_found.mpr (.inr ⟨rfl, x.peer_id, c, hr, hc, hq⟩)), c, hc, hq⟩

theorem get_connected_peers_of_mem {i : Nat} {x : PeerIdVersion}
    (hx : (build reachable conn_map conn_map).peer_ids[i]? = some x) (h0 : x.version ≠ 0) :
    ∃ c, conn_map.lookup x.peer_id = some c ∧ c.version = x.version ∧
      (build reachable conn_map conn_map).get_connected_peers i = some c.connected_peers := by
  obtain ⟨hr, c, hc, hv⟩ := lookup_of_mem (List.mem_of_getElem? hx) h0
  exact ⟨c, hc, hv, get_connected_peers_of_reachable hx hr hc⟩

/-- A bitmap says what the map says: every reachable peer with an entry is in a row, under its version and with just its
connections; no row panics; and no row says more, but for rows under version 0, which nobody takes. -/
theorem round_trip (reachable : PeerId → Bool) (conn_map : AList (fun _ : PeerId => RouteConnInfo)) :
    let b := build reachable conn_map conn_map
    (∀ p c, reachable p = true → conn_map.lookup p = some c →
      ∃ i, b.peer_ids[i]? = some ⟨p, c.version⟩ ∧ b.get_connected_peers i = some c.connected_peers) ∧
    ∀ i x, b.peer_ids[i]? = some x → ∃ connected_peers, b.get_connected_peers i = some connected_peers ∧
      (x.version ≠ 0 → reachable x.peer_id = true ∧
        ∃ c, conn_map.lookup x.peer_id = some c ∧ c.version = x.version ∧ c.connected_peers = connected_peers) := by
  intro b
  constructor
  · intro p c hr hc
    obtain ⟨i, hi⟩ := List.mem_iff_getElem?.mp (mem_of_lookup hr hc)
    exact ⟨i, hi, get_connected_peers_of_reachable hi hr hc⟩
  · intro i x hx
    refine ⟨_, get_connected_peers_build hx, ?_⟩
    intro h0
    obtain ⟨c, hc, hv, hget⟩ := get_connected_peers_of_mem hx h0
    exact ⟨(lookup_of_mem (List.mem_of_getElem? hx) h0).1, c, hc, hv,
      Option.some_inj.mp (hget.symm.trans (get_connected_peers_build hx))⟩

end RouteConnBitmap

end EasyTierHost.Peers
