import EasyTierHost.Effects.DeltaSync
import EasyTierHost.Effects.Hearsay
import EasyTierHost.Peers.RouteConnBitmap

/- How a peer's link state changes (peers/peer_ospf_route.rs): by what it is sent, by what
   it says of itself, and by forgetting. Entries are kept in the order of their last
   insertion; the list of an `AList` has the last one first. Times are in nanoseconds, and one call
   reads the clock once. Versions are 32 bits wide and wrap around. -/
namespace EasyTierHost.Peers
open Effects

structure PeerConnInfo where
  peer_id : Option PeerIdVersion
  connected_peer_ids : List PeerId
deriving DecidableEq

inductive ConnInfo where
  | ConnBitmap (conn_bitmap : RouteConnBitmap)
  | ConnPeerList (peer_conn_infos : List PeerConnInfo)
deriving DecidableEq

def UPDATE_PEER_INFO_PERIOD : Nat := 3600 * 10 ^ 9

namespace RoutePeerInfo
variable {D : Type}

/-- What a peer says of itself: the fields read from its configuration, under its own ids. -/
def new_updated_self (my_peer_id peer_route_id : Nat) (config : RoutePeerInfo D) : RoutePeerInfo D :=
  { config with peer_id := my_peer_id, peer_route_id := peer_route_id, version := 0, last_update := none }

def try_update_new_peer_info [DecidableEq D] (now : Nat) (old new : RoutePeerInfo D) : Bool × RoutePeerInfo D :=
  let last_update := old.last_update.getD 0
  let need_update_periodically :=
    if last_update ≤ now then decide (UPDATE_PEER_INFO_PERIOD < now - last_update) else true
  let new := { new with version := old.version, last_update := old.last_update }
  if new ≠ old ∨ need_update_periodically = true then (true, { new with version := Version.inc new.version })
  else (false, new)

theorem try_update_ids [DecidableEq D] (now : Nat) (old new : RoutePeerInfo D) :
    (try_update_new_peer_info now old new).2.peer_id = new.peer_id ∧
      (try_update_new_peer_info now old new).2.peer_route_id = new.peer_route_id := by
  unfold try_update_new_peer_info
  dsimp only
  generalize (if old.last_update.getD 0 ≤ now then _ else true) = periodically
  split_ifs
  · exact ⟨rfl, rfl⟩
  · exact ⟨rfl, rfl⟩

end RoutePeerInfo

namespace SyncedRouteInfo
variable {D : Type}

def inc_version (s : SyncedRouteInfo D) (need_inc_version : Bool) : SyncedRouteInfo D :=
  if need_inc_version then { s with version := Version.inc s.version } else s

/-! ## Mentioned peers -/

/-- A peer that is only mentioned gets entries with nothing in them. -/
def fill_empty_one [Inhabited D] (now : Nat) (p : PeerId) (s : SyncedRouteInfo D) : SyncedRouteInfo D :=
  let s := if s.peer_infos.lookup p = none then
      { s with peer_infos := s.peer_infos.insert p { (RoutePeerInfo.new : RoutePeerInfo D) with last_update := some now } }
    else s
  if s.conn_map.lookup p = none then { s with conn_map := s.conn_map.insert p ⟨∅, 0, now⟩ } else s

def fill_empty_peer_info [Inhabited D] (now : Nat) (peer_ids : Finset PeerId) (s : SyncedRouteInfo D) : SyncedRouteInfo D :=
  ((peer_ids.sort (· ≤ ·)).foldl (fun s p => fill_empty_one now p s) s).inc_version
    (decide (∃ p ∈ peer_ids, s.peer_infos.lookup p = none ∨ s.conn_map.lookup p = none))

/-! ## What others say -/

def check_duplicate_peer_id (s : SyncedRouteInfo D) (my_peer_id my_peer_route_id dst_peer_id : Nat)
    (dst_peer_route_id : Option Nat) (info : RoutePeerInfo D) : Option SyncFault :=
  if info.peer_id = my_peer_id then
    if info.peer_route_id ≠ my_peer_route_id ∧ s.get_peer_info_version_with_default info.peer_id < info.version then
      some (.panic "my peer id is duplicated")
    else none
  else if info.peer_id = dst_peer_id then
    match dst_peer_route_id with
    | none => none
    | some dst_peer_route_id =>
      if dst_peer_route_id ≠ info.peer_route_id ∧ info.version < s.get_peer_info_version_with_default info.peer_id then
        some .DuplicatePeerId
      else none
  else none

def update_one_peer_info (now : Nat) (info : RoutePeerInfo D) (s : SyncedRouteInfo D) : Bool × SyncedRouteInfo D :=
  if (s.peer_infos.lookup info.peer_id).all (fun old => old.version < info.version) then
    (true, { s with peer_infos := s.peer_infos.insert info.peer_id { info with last_update := some now } })
  else (false, s)

/-- The infos one after another. An info that is refused ends the call at once: those
before it stay, and the version is not counted up for them. -/
def update_peer_infos (now my_peer_id my_peer_route_id dst_peer_id : Nat) :
    List (RoutePeerInfo D) → Bool → SyncedRouteInfo D → Option SyncFault × SyncedRouteInfo D
  | [], need_inc_version, s => (none, s.inc_version need_inc_version)
  | info :: infos, need_inc_version, s =>
    let dst_peer_route_id :=
      if info.peer_id = dst_peer_id then (s.peer_infos.lookup dst_peer_id).map (·.peer_route_id) else none
    match s.check_duplicate_peer_id my_peer_id my_peer_route_id dst_peer_id dst_peer_route_id info with
    | some fault => (some fault, s)
    | none =>
      let r := update_one_peer_info now info s
      update_peer_infos now my_peer_id my_peer_route_id dst_peer_id infos (need_inc_version || r.1) r.2

def update_conn_info_one_peer (now : Nat) (peer_id_version : PeerIdVersion) (connected_peers : Finset PeerId)
    (s : SyncedRouteInfo D) : Bool × SyncedRouteInfo D :=
  if (s.conn_map.lookup peer_id_version.peer_id).all (fun old => old.version < peer_id_version.version) then
    (true, { s with conn_map := s.conn_map.insert peer_id_version.peer_id ⟨connected_peers, peer_id_version.version, now⟩ })
  else (false, s)

/-- One peer's connections: everyone they name is mentioned, then they are taken if they are newer. -/
def update_conn_info_row [Inhabited D] (now : Nat) (peer_id_version : PeerIdVersion) (connected_peers : Finset PeerId)
    (acc : Bool × SyncedRouteInfo D) : Bool × SyncedRouteInfo D :=
  let r := update_conn_info_one_peer now peer_id_version connected_peers (fill_empty_peer_info now connected_peers acc.2)
  (acc.1 || r.1, r.2)

/-- `none` is an index beyond the bitmap. -/
def update_conn_info_with_bitmap [Inhabited D] (now : Nat) (conn_bitmap : RouteConnBitmap) (s : SyncedRouteInfo D) :
    Option (SyncedRouteInfo D) := do
  let s := s.fill_empty_peer_info now (conn_bitmap.peer_ids.map (·.peer_id)).toFinset
  let r ← conn_bitmap.peer_ids.zipIdx.foldlM (fun acc x => do
    let connected_peers ← conn_bitmap.get_connected_peers x.2
    return update_conn_info_row now x.1 connected_peers acc) (false, s)
  return r.2.inc_version r.1

def update_conn_info_with_list [Inhabited D] (now : Nat) (peer_conn_infos : List PeerConnInfo) (s : SyncedRouteInfo D) :
    SyncedRouteInfo D :=
  let r := peer_conn_infos.foldl (fun acc x =>
    match x.peer_id with
    | none => acc
    | some peer_id_version => update_conn_info_row now peer_id_version x.connected_peer_ids.toFinset acc) (false, s)
  r.2.inc_version r.1

def update_conn_info [Inhabited D] (now : Nat) (conn_info : ConnInfo) (s : SyncedRouteInfo D) : Option (SyncedRouteInfo D) :=
  match conn_info with
  | .ConnBitmap conn_bitmap => s.update_conn_info_with_bitmap now conn_bitmap
  | .ConnPeerList peer_conn_infos => some (s.update_conn_info_with_list now peer_conn_infos)

/-! ## What the peer says of itself -/

def update_my_peer_info [DecidableEq D] (now my_peer_id my_peer_route_id : Nat) (config : RoutePeerInfo D)
    (s : SyncedRouteInfo D) : Bool × SyncedRouteInfo D :=
  let new := RoutePeerInfo.new_updated_self my_peer_id my_peer_route_id config
  let old := s.peer_infos.lookup my_peer_id
  let new_version := Version.inc ((old.map (·.version)).getD 0)
  let r :=
    match old with
    | some old => RoutePeerInfo.try_update_new_peer_info now old new
    | none => (true, new)
  if r.1 then
    (true, { s with
      peer_infos := s.peer_infos.insert my_peer_id { r.2 with last_update := some now, version := new_version }
      version := Version.inc s.version })
  else (false, s)

def update_my_conn_info [Inhabited D] (now my_peer_id : Nat) (connected_peers : Finset PeerId) (s : SyncedRouteInfo D) :
    Bool × SyncedRouteInfo D :=
  let s := s.fill_empty_peer_info now connected_peers
  let my_conn_info := s.conn_map.lookup my_peer_id
  let new_version := Version.inc ((my_conn_info.map (·.version)).getD 0)
  if my_conn_info.all (fun old => old.connected_peers ≠ connected_peers) then
    (true, { s with
      conn_map := s.conn_map.insert my_peer_id ⟨connected_peers, new_version, now⟩
      version := Version.inc s.version })
  else (false, s)

/-! ## Forgetting -/

def remove_peers (peer_ids : List PeerId) (s : SyncedRouteInfo D) : SyncedRouteInfo D :=
  if peer_ids = [] then s
  else
    { peer_infos := peer_ids.foldl (fun m p => m.erase p) s.peer_infos
      conn_map := peer_ids.foldl (fun m p => m.erase p) s.conn_map
      version := Version.inc s.version }

/-! ## What an update does -/

abbrev infoVersion (info : RoutePeerInfo D) : Nat := info.version
abbrev infoWritten (info : RoutePeerInfo D) : Option Nat := info.last_update
abbrev connVersion (conn : RouteConnInfo) : Nat := conn.version
abbrev connWritten (conn : RouteConnInfo) : Option Nat := some conn.last_update

/-- An entry for a peer that is only mentioned. -/
def BlankInfo (info : RoutePeerInfo D) : Prop := info.version = 0 ∧ info.peer_id = 0
def BlankConn (conn : RouteConnInfo) : Prop := conn.version = 0

/-- Both maps have taken newer offers and mentioned peers, all at `now`. -/
structure Updated (now : Nat) (infos : PeerId → RoutePeerInfo D → Prop) (conns : PeerId → RouteConnInfo → Prop)
    (s s' : SyncedRouteInfo D) : Prop where
  infos_learned : Learned infoVersion BlankInfo infos s.peer_infos s'.peer_infos
  infos_written : Writes infoWritten now s.peer_infos s'.peer_infos
  conns_learned : Learned connVersion BlankConn conns s.conn_map s'.conn_map
  conns_written : Writes connWritten now s.conn_map s'.conn_map

section Rules
variable {now : Nat} {infos infos' : PeerId → RoutePeerInfo D → Prop} {conns conns' : PeerId → RouteConnInfo → Prop}
  {s s' s'' : SyncedRouteInfo D}

theorem Updated.refl (s : SyncedRouteInfo D) : Updated now infos conns s s := ⟨.refl _, .refl, .refl _, .refl⟩

theorem Updated.trans (h : Updated now infos conns s s') (h' : Updated now infos conns s' s'') :
    Updated now infos conns s s'' :=
  ⟨h.infos_learned.trans h'.infos_learned, h.infos_written.trans h'.infos_written,
    h.conns_learned.trans h'.conns_learned, h.conns_written.trans h'.conns_written⟩

theorem Updated.weaken (h : Updated now infos conns s s') (hi : ∀ p i, infos p i → infos' p i)
    (hc : ∀ p c, conns p c → conns' p c) : Updated now infos' conns' s s' :=
  ⟨h.infos_learned.weaken hi, h.infos_written, h.conns_learned.weaken hc, h.conns_written⟩

@[simp] theorem inc_version_peer_infos (s : SyncedRouteInfo D) (b : Bool) : (s.inc_version b).peer_infos = s.peer_infos := by
  unfold inc_version
  split <;> rfl

@[simp] theorem inc_version_conn_map (s : SyncedRouteInfo D) (b : Bool) : (s.inc_version b).conn_map = s.conn_map := by
  unfold inc_version
  split <;> rfl

theorem Updated.inc (h : Updated now infos conns s s') (b : Bool) : Updated now infos conns s (s'.inc_version b) := by
  constructor
  · rw [inc_version_peer_infos]
    exact h.infos_learned
  · rw [inc_version_peer_infos]
    exact h.infos_written
  · rw [inc_version_conn_map]
    exact h.conns_learned
  · rw [inc_version_conn_map]
    exact h.conns_written

theorem Updated.info {p : PeerId} {i : RoutePeerInfo D} (hi : infos p i) (hw : i.last_update = some now)
    (hnew : ∀ old, s.peer_infos.lookup p = some old → old.version < i.version) :
    Updated now infos conns s { s with peer_infos := s.peer_infos.insert p i } :=
  ⟨.insert (.inr hi) hnew, .insert p .refl hw, .refl _, .refl⟩

theorem Updated.conn {p : PeerId} {c : RouteConnInfo} (hc : conns p c) (hw : c.last_update = now)
    (hnew : ∀ old, s.conn_map.lookup p = some old → old.version < c.version) :
    Updated now infos conns s { s with conn_map := s.conn_map.insert p c } :=
  ⟨.refl _, .refl, .insert (.inr hc) hnew, .insert p .refl (congrArg some hw)⟩

theorem Updated.fill_one [Inhabited D] (now : Nat) (p : PeerId) (s : SyncedRouteInfo D) :
    Updated now infos conns s (fill_empty_one now p s) := by
  have hconn : ∀ s : SyncedRouteInfo D, Updated now infos conns s
      (if s.conn_map.lookup p = none then { s with conn_map := s.conn_map.insert p ⟨∅, 0, now⟩ } else s) := by
    intro s
    split_ifs with h
    · exact ⟨.refl _, .refl, .insert (.inl rfl) (by rw [h]; rintro old ⟨⟩), .insert p .refl rfl⟩
    · exact .refl s
  refine Updated.trans ?_ (hconn _)
  split_ifs with h
  · exact ⟨.insert (.inl ⟨rfl, rfl⟩) (by rw [h]; rintro old ⟨⟩), .insert p .refl rfl, .refl _, .refl⟩
  · exact .refl s

theorem Updated.fill [Inhabited D] (now : Nat) (peer_ids : Finset PeerId) (s : SyncedRouteInfo D) :
    Updated now infos conns s (fill_empty_peer_info now peer_ids s) := by
  have hloop : ∀ (l : List PeerId) (s : SyncedRouteInfo D),
      Updated now infos conns s (l.foldl (fun s p => fill_empty_one now p s) s) := by
    intro l
    induction l with
    | nil => exact fun s => .refl s
    | cons p l ih => exact fun s => (Updated.fill_one now p s).trans (ih _)
  exact (hloop _ s).inc _

/-- Mentioning peers changes no version. -/
theorem heldVersion_fill [Inhabited D] (now : Nat) (peer_ids : Finset PeerId) (s : SyncedRouteInfo D) (p : PeerId) :
    heldVersion connVersion (fill_empty_peer_info now peer_ids s).conn_map p = heldVersion connVersion s.conn_map p := by
  have hfill : Updated now (fun _ _ => False) (fun _ _ => False) s (fill_empty_peer_info now peer_ids s) :=
    Updated.fill now peer_ids s
  exact hfill.conns_learned.heldVersion_eq (fun _ hb => hb) fun _ hc => hc.elim

end Rules

/-! ## Infos -/

section Infos
variable {now my_peer_id my_peer_route_id dst_peer_id : Nat}

/-- The infos of a message, as they are kept. -/
def Offered (now : Nat) (l : List (RoutePeerInfo D)) (p : PeerId) (i : RoutePeerInfo D) : Prop :=
  ∃ j ∈ l, p = j.peer_id ∧ i = { j with last_update := some now }

theorem Updated.one_info (now : Nat) (info : RoutePeerInfo D) (s : SyncedRouteInfo D) :
    Updated now (Offered now [info]) (fun _ _ => False) s (update_one_peer_info now info s).2 := by
  unfold update_one_peer_info
  split_ifs with hnew
  · refine Updated.info ⟨info, List.mem_singleton_self info, rfl, rfl⟩ rfl ?_
    intro old hold
    rw [hold] at hnew
    exact of_decide_eq_true hnew
  · exact .refl s

theorem held_of_update_one (now : Nat) (info : RoutePeerInfo D) (s : SyncedRouteInfo D) :
    info.version ≤ heldVersion infoVersion (update_one_peer_info now info s).2.peer_infos info.peer_id := by
  unfold update_one_peer_info
  split_ifs with hnew
  · show info.version ≤ heldVersion infoVersion (s.peer_infos.insert info.peer_id _) info.peer_id
    rw [heldVersion_insert, if_pos rfl]
  · cases hold : s.peer_infos.lookup info.peer_id with
    | none => rw [hold] at hnew; exact absurd rfl hnew
    | some old =>
      rw [hold] at hnew
      rw [heldVersion_of_lookup hold]
      exact Nat.not_lt.mp fun h => hnew (decide_eq_true h)

theorem Updated.peer_infos : ∀ (l : List (RoutePeerInfo D)) (b : Bool) (s : SyncedRouteInfo D),
    Updated now (Offered now l) (fun _ _ => False) s (update_peer_infos now my_peer_id my_peer_route_id dst_peer_id l b s).2
  | [], b, s => (Updated.refl s).inc b
  | info :: l, b, s => by
    rw [update_peer_infos]
    split
    · exact .refl s
    · refine ((Updated.one_info now info s).weaken ?_ fun _ _ h => h).trans
        ((Updated.peer_infos l _ _).weaken ?_ fun _ _ h => h)
      · rintro p i ⟨j, hj, h⟩
        rw [List.mem_singleton.mp hj] at h
        exact ⟨info, List.mem_cons_self, h⟩
      · rintro p i ⟨j, hj, h⟩
        exact ⟨j, List.mem_cons_of_mem info hj, h⟩

/-- After a call that refuses nothing, every info of the message is there at its version or above. -/
theorem held_of_update_peer_infos : ∀ {l : List (RoutePeerInfo D)} {b : Bool} {s : SyncedRouteInfo D},
    (update_peer_infos now my_peer_id my_peer_route_id dst_peer_id l b s).1 = none → ∀ i ∈ l,
      i.version ≤ heldVersion infoVersion (update_peer_infos now my_peer_id my_peer_route_id dst_peer_id l b s).2.peer_infos
        i.peer_id
  | [], _, _, _, i, hi => absurd hi List.not_mem_nil
  | info :: l, b, s, hok, i, hi => by
    rw [update_peer_infos] at hok ⊢
    split at hok
    · cases hok
    · dsimp only
      rcases List.mem_cons.mp hi with rfl | hi
      · exact (held_of_update_one now i s).trans ((Updated.peer_infos l _ _).infos_learned.mono _)
      · exact held_of_update_peer_infos hok i hi

/-- The info is of a peer only mentioned, or carries the ids of its peer. -/
def Genuine (route : PeerId → Nat) (p : PeerId) (i : RoutePeerInfo D) : Prop :=
  BlankInfo i ∨ (i.peer_id = p ∧ i.peer_route_id = route p)

theorem Genuine.own_key {route : PeerId → Nat} {p : PeerId} {i : RoutePeerInfo D} (h : Genuine route p i) :
    Genuine route i.peer_id i := by
  rcases h with hblank | ⟨rfl, hroute⟩
  · exact .inl hblank
  · exact .inr ⟨rfl, hroute⟩

theorem check_genuine {route : PeerId → Nat} {s : SyncedRouteInfo D} {info : RoutePeerInfo D}
    (hs : ∀ p i, s.peer_infos.lookup p = some i → Genuine route p i) (hinfo : Genuine route info.peer_id info)
    (h0 : dst_peer_id ≠ 0) :
    s.check_duplicate_peer_id my_peer_id (route my_peer_id) dst_peer_id
      (if info.peer_id = dst_peer_id then (s.peer_infos.lookup dst_peer_id).map (·.peer_route_id) else none) info = none := by
  unfold check_duplicate_peer_id get_peer_info_version_with_default
  split_ifs with hmine hdup hdst
  · rcases hinfo with hblank | ⟨-, hroute⟩
    · have hv := hblank.1
      omega
    · exact absurd (hmine ▸ hroute) hdup.1
  · rfl
  · cases hstored : s.peer_infos.lookup dst_peer_id with
    | none => rfl
    | some stored =>
      dsimp only [Option.map_some]
      refine if_neg ?_
      rintro ⟨hne, hlt⟩
      rw [hdst, hstored, Option.map_some, Option.getD_some] at hlt
      rcases hinfo with hblank | ⟨-, hroute⟩
      · exact h0 (hdst.symm.trans hblank.2)
      · rcases hs dst_peer_id stored hstored with hblank | ⟨-, hroute'⟩
        · have hv := hblank.1
          omega
        · exact hne (hroute'.trans (hdst ▸ hroute).symm)
  · rfl

/-- Peers that keep to their own ids are never taken for others. -/
theorem update_peer_infos_ok {route : PeerId → Nat} (h0 : dst_peer_id ≠ 0) :
    ∀ {l : List (RoutePeerInfo D)} {b : Bool} {s : SyncedRouteInfo D},
    (∀ p i, s.peer_infos.lookup p = some i → Genuine route p i) → (∀ i ∈ l, Genuine route i.peer_id i) →
    (update_peer_infos now my_peer_id (route my_peer_id) dst_peer_id l b s).1 = none
  | [], _, _, _, _ => rfl
  | info :: l, b, s, hs, hl => by
    have hhead := hl info List.mem_cons_self
    rw [update_peer_infos, check_genuine hs hhead h0]
    refine update_peer_infos_ok h0 ?_ fun i hi => hl i (List.mem_cons_of_mem info hi)
    refine (Updated.one_info now info s).infos_learned.all hs (fun _ _ hb => .inl hb) ?_
    rintro p i ⟨j, hj, rfl, rfl⟩
    rw [List.mem_singleton.mp hj]
    exact hhead

end Infos

/-! ## Connections -/

section Conns
variable [Inhabited D]

/-- What a message says of connections, a peer at a time. -/
def rows : ConnInfo → Option (List (PeerIdVersion × Finset PeerId))
  | .ConnBitmap conn_bitmap => conn_bitmap.peer_ids.zipIdx.mapM fun x => (conn_bitmap.get_connected_peers x.2).map (x.1, ·)
  | .ConnPeerList peer_conn_infos =>
    some (peer_conn_infos.filterMap fun x => x.peer_id.map (·, x.connected_peer_ids.toFinset))

/-- A peer's row, as it is kept. -/
def Row (l : List (PeerIdVersion × Finset PeerId)) (p : PeerId) (c : RouteConnInfo) : Prop :=
  (⟨p, c.version⟩, c.connected_peers) ∈ l

theorem Updated.row (now : Nat) (x : PeerIdVersion) (connected_peers : Finset PeerId) (acc : Bool × SyncedRouteInfo D) :
    Updated now (fun _ _ => False) (Row [(x, connected_peers)]) acc.2 (update_conn_info_row now x connected_peers acc).2 := by
  refine (Updated.fill now connected_peers acc.2).trans ?_
  unfold update_conn_info_row update_conn_info_one_peer
  dsimp only
  split_ifs with hnew
  · refine Updated.conn (List.mem_singleton.mpr rfl) rfl ?_
    intro old hold
    rw [hold] at hnew
    exact of_decide_eq_true hnew
  · exact .refl _

theorem held_of_row (now : Nat) (x : PeerIdVersion) (connected_peers : Finset PeerId) (acc : Bool × SyncedRouteInfo D) :
    x.version ≤ heldVersion connVersion (update_conn_info_row now x connected_peers acc).2.conn_map x.peer_id := by
  unfold update_conn_info_row update_conn_info_one_peer
  dsimp only
  split_ifs with hnew
  · rw [heldVersion_insert, if_pos rfl]
  · cases hold : (fill_empty_peer_info now connected_peers acc.2).conn_map.lookup x.peer_id with
    | none => rw [hold] at hnew; exact absurd rfl hnew
    | some old =>
      rw [hold] at hnew
      rw [heldVersion_of_lookup hold]
      exact Nat.not_lt.mp fun h => hnew (decide_eq_true h)

theorem updated_rows (now : Nat) : ∀ (l : List (PeerIdVersion × Finset PeerId)) (acc : Bool × SyncedRouteInfo D),
    Updated now (fun _ _ => False) (Row l) acc.2 (l.foldl (fun acc r => update_conn_info_row now r.1 r.2 acc) acc).2 ∧
      ∀ r ∈ l, r.1.version ≤
        heldVersion connVersion (l.foldl (fun acc r => update_conn_info_row now r.1 r.2 acc) acc).2.conn_map r.1.peer_id
  | [], acc => ⟨.refl acc.2, fun r hr => absurd hr List.not_mem_nil⟩
  | r :: l, acc => by
    obtain ⟨hup, hheld⟩ := updated_rows now l (update_conn_info_row now r.1 r.2 acc)
    constructor
    · refine ((Updated.row now r.1 r.2 acc).weaken (fun _ _ h => h) ?_).trans
        (hup.weaken (fun _ _ h => h) fun p c h => List.mem_cons_of_mem r h)
      intro p c h
      exact List.mem_cons.mpr (.inl (List.mem_singleton.mp h))
    · intro r' hr'
      rcases List.mem_cons.mp hr' with rfl | hr'
      · exact (held_of_row now r'.1 r'.2 acc).trans (hup.conns_learned.mono _)
      · exact hheld r' hr'

theorem foldlM_rows {A : Type} (f : A → PeerIdVersion → Finset PeerId → A) (g : PeerIdVersion × Nat → Option (Finset PeerId)) :
    ∀ (l : List (PeerIdVersion × Nat)) (a : A),
    l.foldlM (fun acc x => do
      let c ← g x
      return f acc x.1 c) a = (l.mapM fun x => (g x).map (x.1, ·)).map fun rs => rs.foldl (fun acc r => f acc r.1 r.2) a
  | [], _ => rfl
  | x :: l, a => by
    rw [List.foldlM_cons, List.mapM_cons]
    cases hx : g x with
    | none => rfl
    | some c =>
      show l.foldlM _ (f a x.1 c) = Option.map _ (Option.bind (l.mapM fun x => (g x).map (x.1, ·)) _)
      rw [foldlM_rows f g l]
      cases l.mapM fun x => (g x).map (x.1, ·) with
      | none => rfl
      | some rs => rfl

/-- A message about connections fails only where its rows cannot be read; else they are all taken in, and nothing more. -/
theorem update_conn_info_spec (now : Nat) (ci : ConnInfo) (s : SyncedRouteInfo D) :
    (rows ci = none ∧ update_conn_info now ci s = none) ∨
      ∃ rs s', rows ci = some rs ∧ update_conn_info now ci s = some s' ∧ Updated now (fun _ _ => False) (Row rs) s s' ∧
        ∀ r ∈ rs, r.1.version ≤ heldVersion connVersion s'.conn_map r.1.peer_id := by
  cases ci with
  | ConnBitmap b =>
    set s₀ := s.fill_empty_peer_info now (b.peer_ids.map (·.peer_id)).toFinset with hs₀
    have hrun : update_conn_info now (.ConnBitmap b) s = (rows (.ConnBitmap b)).map fun rs =>
        let r := rs.foldl (fun acc r => update_conn_info_row now r.1 r.2 acc) (false, s₀)
        r.2.inc_version r.1 := by
      show (List.foldlM (m := Option) _ _ _).bind _ = _
      rw [foldlM_rows (fun acc x c => update_conn_info_row now x c acc) (fun x => b.get_connected_peers x.2)]
      show (Option.map _ (rows (.ConnBitmap b))).bind _ = _
      cases rows (.ConnBitmap b) with
      | none => rfl
      | some rs => rfl
    cases hr : rows (.ConnBitmap b) with
    | none => exact .inl ⟨rfl, by rw [hrun, hr]; rfl⟩
    | some rs =>
      obtain ⟨hup, hheld⟩ := updated_rows now rs (false, s₀)
      refine .inr ⟨rs, _, rfl, by rw [hrun, hr]; rfl, ((Updated.fill now _ s).trans hup).inc _, ?_⟩
      intro r hr
      rw [inc_version_conn_map]
      exact hheld r hr
  | ConnPeerList l =>
    obtain ⟨hup, hheld⟩ := updated_rows now
      (l.filterMap fun x => x.peer_id.map (·, x.connected_peer_ids.toFinset)) (false, s)
    have hrun : (l.filterMap fun x => x.peer_id.map (·, x.connected_peer_ids.toFinset)).foldl
        (fun acc r => update_conn_info_row now r.1 r.2 acc) (false, s) = l.foldl (fun acc x =>
          match x.peer_id with
          | none => acc
          | some x' => update_conn_info_row now x' x.connected_peer_ids.toFinset acc) (false, s) := by
      rw [List.foldl_filterMap]
      congr 1
      funext acc x
      cases x.peer_id with
      | none => rfl
      | some x' => rfl
    rw [hrun] at hup hheld
    refine .inr ⟨_, _, rfl, rfl, hup.inc _, ?_⟩
    intro r hr
    refine (hheld r hr).trans (le_of_eq ?_)
    rw [update_conn_info_with_list, inc_version_conn_map]

end Conns

/-! ## The peer's own entries -/

theorem update_my_peer_info_cases [DecidableEq D] (now my_peer_id my_peer_route_id : Nat) (config : RoutePeerInfo D)
    (s : SyncedRouteInfo D) :
    (update_my_peer_info now my_peer_id my_peer_route_id config s) = (false, s) ∨
      (update_my_peer_info now my_peer_id my_peer_route_id config s).1 = true ∧
      ∃ i, (update_my_peer_info now my_peer_id my_peer_route_id config s).2.peer_infos = s.peer_infos.insert my_peer_id i ∧
        (update_my_peer_info now my_peer_id my_peer_route_id config s).2.conn_map = s.conn_map ∧
        i.version = Version.inc (heldVersion infoVersion s.peer_infos my_peer_id) ∧ i.last_update = some now ∧
        i.peer_id = my_peer_id ∧ i.peer_route_id = my_peer_route_id := by
  unfold update_my_peer_info
  extract_lets new old new_version r
  have hr : r.2.peer_id = my_peer_id ∧ r.2.peer_route_id = my_peer_route_id := by
    subst r
    cases old with
    | none => exact ⟨rfl, rfl⟩
    | some old => exact RoutePeerInfo.try_update_ids now old new
  split_ifs
  · exact .inr ⟨rfl, _, rfl, rfl, rfl, rfl, hr.1, hr.2⟩
  · exact .inl rfl

theorem update_my_conn_info_cases [Inhabited D] (now my_peer_id : Nat) (connected_peers : Finset PeerId)
    (s : SyncedRouteInfo D) :
    (update_my_conn_info now my_peer_id connected_peers s) = (false, fill_empty_peer_info now connected_peers s) ∨
      (update_my_conn_info now my_peer_id connected_peers s).1 = true ∧
      ∃ c, (update_my_conn_info now my_peer_id connected_peers s).2.peer_infos =
          (fill_empty_peer_info now connected_peers s).peer_infos ∧
        (update_my_conn_info now my_peer_id connected_peers s).2.conn_map =
          (fill_empty_peer_info now connected_peers s).conn_map.insert my_peer_id c ∧
        c.connected_peers = connected_peers ∧ c.version = Version.inc (heldVersion connVersion s.conn_map my_peer_id) ∧
        c.last_update = now := by
  rw [← heldVersion_fill now connected_peers s]
  unfold update_my_conn_info
  dsimp only
  split_ifs
  · exact .inr ⟨rfl, _, rfl, rfl, rfl, rfl, rfl⟩
  · exact .inl rfl

/-- Both maps are written at `now`, and no version goes down. -/
structure Advanced (now : Nat) (s s' : SyncedRouteInfo D) : Prop where
  infos_written : Writes infoWritten now s.peer_infos s'.peer_infos
  conns_written : Writes connWritten now s.conn_map s'.conn_map
  infos_mono : ∀ p, heldVersion infoVersion s.peer_infos p ≤ heldVersion infoVersion s'.peer_infos p
  conns_mono : ∀ p, heldVersion connVersion s.conn_map p ≤ heldVersion connVersion s'.conn_map p

theorem Updated.grown {now : Nat} {infos : PeerId → RoutePeerInfo D → Prop} {conns : PeerId → RouteConnInfo → Prop}
    {s s' : SyncedRouteInfo D} (h : Updated now infos conns s s') : Advanced now s s' :=
  ⟨h.infos_written, h.conns_written, h.infos_learned.mono, h.conns_learned.mono⟩

theorem advanced_update_my_peer_info [DecidableEq D] {now my_peer_id my_peer_route_id : Nat} {config : RoutePeerInfo D}
    {s : SyncedRouteInfo D} (hv : heldVersion infoVersion s.peer_infos my_peer_id + 1 < 2 ^ 32) :
    Advanced now s (update_my_peer_info now my_peer_id my_peer_route_id config s).2 := by
  rcases update_my_peer_info_cases now my_peer_id my_peer_route_id config s with
    hsame | ⟨-, i, hi, hconn, hnext, hw, -, -⟩
  · rw [hsame]
    exact ⟨.refl, .refl, fun _ => Nat.le_refl _, fun _ => Nat.le_refl _⟩
  · constructor
    · rw [hi]
      exact .insert _ .refl hw
    · rw [hconn]
      exact .refl
    · intro p
      rw [hi, heldVersion_insert]
      split_ifs with hp
      · show _ ≤ i.version
        rw [hp, hnext, Version.inc_eq hv]
        exact Nat.le_succ _
      · exact Nat.le_refl _
    · intro p
      rw [hconn]

theorem advanced_update_my_conn_info [Inhabited D] {now my_peer_id : Nat} {connected_peers : Finset PeerId}
    {s : SyncedRouteInfo D} (hv : heldVersion connVersion s.conn_map my_peer_id + 1 < 2 ^ 32) :
    Advanced now s (update_my_conn_info now my_peer_id connected_peers s).2 := by
  have hfill : Updated now (fun _ _ => False) (fun _ _ => False) s (fill_empty_peer_info now connected_peers s) :=
    Updated.fill now connected_peers s
  rcases update_my_conn_info_cases now my_peer_id connected_peers s with hsame | ⟨-, c, hi, hconn, -, hnext, hw⟩
  · rw [hsame]
    exact hfill.grown
  · constructor
    · rw [hi]
      exact hfill.infos_written
    · rw [hconn]
      exact hfill.conns_written.insert _ (congrArg some hw)
    · intro p
      rw [hi]
      exact hfill.infos_learned.mono p
    · intro p
      refine (hfill.conns_learned.mono p).trans ?_
      rw [hconn, heldVersion_insert]
      split_ifs with hp
      · show _ ≤ c.version
        rw [hp, hnext, Version.inc_eq hv, heldVersion_fill]
        exact Nat.le_succ _
      · exact Nat.le_refl _

/-! ## Forgetting -/

section Forgetting
variable {V : Type} {written : V → Option Nat}

theorem lookup_foldl_erase : ∀ (peer_ids : List PeerId) (m : AList (fun _ : PeerId => V)) (p : PeerId),
    (peer_ids.foldl (fun m p => m.erase p) m).lookup p = if p ∈ peer_ids then none else m.lookup p
  | [], _, _ => rfl
  | q :: peer_ids, m, p => by
    rw [List.foldl_cons, lookup_foldl_erase peer_ids]
    by_cases hp : p ∈ peer_ids
    · rw [if_pos hp, if_pos (List.mem_cons_of_mem q hp)]
    · rw [if_neg hp]
      by_cases hq : p = q
      · subst hq
        rw [AList.lookup_erase, if_pos List.mem_cons_self]
      · rw [AList.lookup_erase_ne hq, if_neg (by simp [hq, hp])]

theorem writes_foldl_erase (now : Nat) : ∀ (peer_ids : List PeerId) (m : AList (fun _ : PeerId => V)),
    Writes written now m (peer_ids.foldl (fun m p => m.erase p) m)
  | [], _ => .refl
  | q :: peer_ids, _ => (Writes.erase q .refl).trans (writes_foldl_erase now peer_ids _)

theorem remove_peers_maps (peer_ids : List PeerId) (s : SyncedRouteInfo D) :
    (remove_peers peer_ids s).peer_infos = peer_ids.foldl (fun m p => m.erase p) s.peer_infos ∧
      (remove_peers peer_ids s).conn_map = peer_ids.foldl (fun m p => m.erase p) s.conn_map := by
  unfold remove_peers
  split_ifs with h
  · subst h
    exact ⟨rfl, rfl⟩
  · exact ⟨rfl, rfl⟩

end Forgetting

end SyncedRouteInfo

end EasyTierHost.Peers
