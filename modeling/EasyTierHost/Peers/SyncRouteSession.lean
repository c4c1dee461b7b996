import EasyTierHost.Peers.LinkStateUpdates

/- One peer's record of another it syncs its link state with, what it sends it, and what it
   does with what it is sent (peers/peer_ospf_route.rs). From a credential peer it takes only
   what that one says of itself, and rewrites two fields of it.
   Left out: foreign networks, the initiator flags, the raw copies that carry fields this
   version does not know, and a switch that only tests set. Which saved versions have gone untouched for a minute, whom the
   route table reaches, and what is known of a sender, is open at every call. -/
namespace EasyTierHost.Peers
open Effects

structure SyncRouteSession where
  dst_peer_id : PeerId
  my_session_id : Nat
  dst_session_id : Nat
  dst_saved_peer_info_versions : AList (fun _ : PeerId => Nat)
  dst_saved_conn_info_version : AList (fun _ : PeerId => Nat)
  unreachable_peers_for_peer_info : AList (fun _ : PeerId => Nat)
  unreachable_peers_for_conn_info : AList (fun _ : PeerId => Nat)
  last_sync_succ_timestamp : Option Nat

namespace SyncRouteSession

def new (dst_peer_id : PeerId) (my_session_id : Nat) : SyncRouteSession := ⟨dst_peer_id, my_session_id, 0, ∅, ∅, ∅, ∅, none⟩

def check_saved (saved : AList (fun _ : PeerId => Nat)) (dst_peer_id peer_id : PeerId) (version : Nat) : Bool :=
  version = 0 || peer_id = dst_peer_id || (saved.lookup peer_id).any (version ≤ ·)

def check_saved_peer_info_update_to_date (session : SyncRouteSession) (peer_id : PeerId) (version : Nat) : Bool :=
  check_saved session.dst_saved_peer_info_versions session.dst_peer_id peer_id version

def check_saved_conn_version_update_to_date (session : SyncRouteSession) (peer_id : PeerId) (version : Nat) : Bool :=
  check_saved session.dst_saved_conn_info_version session.dst_peer_id peer_id version

/-- The highest versions of the peers of a message, but for the other side itself. -/
def update_dst_saved (dst_peer_id : PeerId) (items : List PeerIdVersion) (saved : AList (fun _ : PeerId => Nat)) :
    AList (fun _ : PeerId => Nat) :=
  items.foldl (fun saved x =>
    if x.peer_id = dst_peer_id then saved
    else saved.insert x.peer_id (max ((saved.lookup x.peer_id).getD 0) x.version)) saved

def infoVersions {D : Type} (infos : List (RoutePeerInfo D)) : List PeerIdVersion := infos.map fun i => ⟨i.peer_id, i.version⟩

def connVersions : ConnInfo → List PeerIdVersion
  | .ConnBitmap conn_bitmap => conn_bitmap.peer_ids
  | .ConnPeerList peer_conn_infos => peer_conn_infos.filterMap (·.peer_id)

def update_dst_saved_peer_info_version {D : Type} (infos : List (RoutePeerInfo D)) (dst_peer_id : PeerId)
    (session : SyncRouteSession) : SyncRouteSession :=
  { session with dst_saved_peer_info_versions :=
      update_dst_saved dst_peer_id (infoVersions infos) session.dst_saved_peer_info_versions }

def update_dst_saved_conn_info_version (conn_info : ConnInfo) (dst_peer_id : PeerId) (session : SyncRouteSession) :
    SyncRouteSession :=
  { session with dst_saved_conn_info_version :=
      update_dst_saved dst_peer_id (connVersions conn_info) session.dst_saved_conn_info_version }

def update_dst_session_id (session_id : Nat) (session : SyncRouteSession) : SyncRouteSession :=
  if session_id ≠ session.dst_session_id then
    { session with
      dst_session_id := session_id
      dst_saved_conn_info_version := ∅
      dst_saved_peer_info_versions := ∅
      last_sync_succ_timestamp := none
      unreachable_peers_for_peer_info := ∅
      unreachable_peers_for_conn_info := ∅ }
  else session

def clean_dst_saved_map (expired_info expired_conn : PeerId → Bool) (session : SyncRouteSession) : SyncRouteSession :=
  { session with
    dst_saved_peer_info_versions := retain (fun p _ => !expired_info p) session.dst_saved_peer_info_versions
    dst_saved_conn_info_version := retain (fun p _ => !expired_conn p) session.dst_saved_conn_info_version }

def update_last_sync_succ_timestamp (next_last_sync_succ_timestamp : Nat) (session : SyncRouteSession) : SyncRouteSession :=
  { session with last_sync_succ_timestamp := later session.last_sync_succ_timestamp next_last_sync_succ_timestamp }

end SyncRouteSession

structure TrustedCredentialPubkey where
  allowed_proxy_cidrs : List String
  allow_relay : Bool

/-- Who a request comes from. A credential may be one that nobody has announced. -/
inductive Sender where
  | admin
  | credential (credential_info : Option TrustedCredentialPubkey)

structure SyncRouteInfoRequest (D : Type) where
  my_peer_id : PeerId
  my_session_id : Nat
  peer_infos : Option (List (RoutePeerInfo D))
  conn_info : Option ConnInfo

structure PeerRouteServiceImpl (D : Type) where
  my_peer_id : PeerId
  my_peer_route_id : Nat
  sessions : PeerId → SyncRouteSession
  synced_route_info : SyncedRouteInfo D
  cached_local_conn_map : RouteConnBitmap
  cached_local_conn_map_version : Nat

/-- A bitmap lists nobody above the version the map has. -/
theorem RouteConnBitmap.version_le_of_mem {reachable : PeerId → Bool} {m : AList (fun _ : PeerId => RouteConnInfo)}
    {x : PeerIdVersion} (hx : x ∈ (RouteConnBitmap.build reachable m m).peer_ids) :
    x.version ≤ heldVersion SyncedRouteInfo.connVersion m x.peer_id := by
  by_cases h0 : x.version = 0
  · rw [h0]
    exact Nat.zero_le _
  · obtain ⟨-, c, hc, hv⟩ := RouteConnBitmap.lookup_of_mem hx h0
    rw [heldVersion_of_lookup hc]
    exact hv.ge

namespace PeerRouteServiceImpl
open SyncRouteSession SyncedRouteInfo
variable {D : Type}

/-- The version and the peers are read from what the link state was `before`, the connections
from what it is now. The bitmap is replaced unless one of a version as high is there. -/
def update_cached_local_conn_bitmap (reachable : PeerId → Bool) (before : SyncedRouteInfo D)
    (n : PeerRouteServiceImpl D) : PeerRouteServiceImpl D :=
  if n.cached_local_conn_map_version < before.version then
    { n with
      cached_local_conn_map := .build reachable before.conn_map n.synced_route_info.conn_map
      cached_local_conn_map_version := before.version }
  else n

/-! ## Sending -/

/-- The infos to be sent, newest first, then those put off before; and who is put off now. -/
def offer_route_info (reachable : PeerId → Bool) (s : SyncedRouteInfo D) (session : SyncRouteSession) :=
  offer infoVersion infoWritten session.last_sync_succ_timestamp
    (fun _ info => session.check_saved_peer_info_update_to_date info.peer_id info.version)
    session.check_saved_peer_info_update_to_date reachable s.peer_infos session.unreachable_peers_for_peer_info

def build_route_info (reachable : PeerId → Bool) (s : SyncedRouteInfo D) (session : SyncRouteSession) :
    Option (List (RoutePeerInfo D)) × SyncRouteSession :=
  let r := offer_route_info reachable s session
  (if r.1.isEmpty then none else some (r.1.map (·.2)), { session with unreachable_peers_for_peer_info := r.2 })

def offer_conn_info (reachable : PeerId → Bool) (s : SyncedRouteInfo D) (session : SyncRouteSession) :=
  offer connVersion connWritten session.last_sync_succ_timestamp
    (fun p c => session.check_saved_conn_version_update_to_date p c.version)
    session.check_saved_conn_version_update_to_date reachable s.conn_map session.unreachable_peers_for_conn_info

def peer_conn_info (e : Sigma fun _ : PeerId => RouteConnInfo) : PeerConnInfo :=
  ⟨some ⟨e.1, e.2.version⟩, e.2.connected_peers.sort (· ≤ ·)⟩

/-- The connections to be sent as a list, and the bytes this takes. -/
def build_conn_peer_list (reachable : PeerId → Bool) (s : SyncedRouteInfo D) (session : SyncRouteSession) :
    Option (List PeerConnInfo × Nat) × SyncRouteSession :=
  let r := offer_conn_info reachable s session
  (if r.1.isEmpty then none
   else some (r.1.map peer_conn_info,
     r.1.foldl (fun estimated_size e => estimated_size + 8 + e.2.connected_peers.card * 4) 0),
   { session with unreachable_peers_for_conn_info := r.2 })

def estimate_conn_bitmap_size (n : PeerRouteServiceImpl D) : Nat :=
  n.cached_local_conn_map.bitmap.length + n.cached_local_conn_map.peer_ids.length * 8

/-- The list where the other side reads lists and it is smaller, else the whole bitmap. -/
def build_conn_info (reachable : PeerId → Bool) (dst_peer_id : PeerId) (session : SyncRouteSession)
    (n : PeerRouteServiceImpl D) : Option ConnInfo × SyncRouteSession :=
  let dst_supports_peer_list := (((n.synced_route_info.peer_infos.lookup dst_peer_id).bind (·.feature_flag)).map
    (·.support_conn_list_sync)).getD false
  let r := build_conn_peer_list reachable n.synced_route_info session
  (r.1.map fun l =>
    if l.2 < n.estimate_conn_bitmap_size ∧ dst_supports_peer_list = true then .ConnPeerList l.1
    else .ConnBitmap n.cached_local_conn_map, r.2)

theorem build_route_info_infos (reachable : PeerId → Bool) (s : SyncedRouteInfo D) (session : SyncRouteSession) :
    ((build_route_info reachable s session).1).getD [] = (offer_route_info reachable s session).1.map (·.2) := by
  unfold build_route_info
  dsimp only
  split_ifs with h
  · rw [List.isEmpty_iff.mp h]
    rfl
  · rfl

theorem build_conn_info_cases (reachable : PeerId → Bool) (dst_peer_id : PeerId) (session : SyncRouteSession)
    (n : PeerRouteServiceImpl D) :
    ((offer_conn_info reachable n.synced_route_info session).1 = [] ∧
        (n.build_conn_info reachable dst_peer_id session).1 = none) ∨
      (n.build_conn_info reachable dst_peer_id session).1 =
        some (.ConnPeerList ((offer_conn_info reachable n.synced_route_info session).1.map peer_conn_info)) ∨
      (n.build_conn_info reachable dst_peer_id session).1 = some (.ConnBitmap n.cached_local_conn_map) := by
  unfold build_conn_info build_conn_peer_list
  dsimp only
  by_cases h : (offer_conn_info reachable n.synced_route_info session).1.isEmpty = true
  · rw [if_pos h]
    exact .inl ⟨List.isEmpty_iff.mp h, rfl⟩
  · rw [if_neg h, Option.map_some]
    right
    split_ifs
    · exact .inl rfl
    · exact .inr rfl

def build_sync_request (reachable : PeerId → Bool) (dst_peer_id : PeerId) (n : PeerRouteServiceImpl D) :
    SyncRouteInfoRequest D × SyncRouteSession :=
  let infos := build_route_info reachable n.synced_route_info (n.sessions dst_peer_id)
  let conns := n.build_conn_info reachable dst_peer_id infos.2
  (⟨n.my_peer_id, (n.sessions dst_peer_id).my_session_id, infos.1, conns.1⟩, conns.2)

def set_session (p : PeerId) (session : SyncRouteSession) (n : PeerRouteServiceImpl D) : PeerRouteServiceImpl D :=
  { n with sessions := Function.update n.sessions p session }

/-- Up to the call of the other side: nothing is sent if there is nothing to say. -/
def sync_route_with_peer (reachable : PeerId → Bool) (need_sync : Bool) (dst_peer_id : PeerId) (n : PeerRouteServiceImpl D) :
    Option (SyncRouteInfoRequest D) × PeerRouteServiceImpl D :=
  let r := n.build_sync_request reachable dst_peer_id
  (if r.1.peer_infos.isNone && r.1.conn_info.isNone && !need_sync then none else some r.1, n.set_session dst_peer_id r.2)

/-- The other side has taken the request. -/
def synced (request : SyncRouteInfoRequest D) (next_last_sync_succ_timestamp : Nat) (session_id : Nat)
    (session : SyncRouteSession) : SyncRouteSession :=
  let session := session.update_dst_session_id session_id
  let session := match request.peer_infos with
    | some peer_infos => session.update_dst_saved_peer_info_version peer_infos session.dst_peer_id
    | none => session
  let session := match request.conn_info with
    | some conn_info => session.update_dst_saved_conn_info_version conn_info session.dst_peer_id
    | none => session
  session.update_last_sync_succ_timestamp next_last_sync_succ_timestamp

/-! ## Being sent -/

/-- The infos of a request; with none of them nothing is done. -/
def sync_peer_infos (now : Nat) (request : SyncRouteInfoRequest D) (n : PeerRouteServiceImpl D) :
    Option SyncFault × SyncedRouteInfo D × SyncRouteSession :=
  let from_peer_id := request.my_peer_id
  let session := (n.sessions from_peer_id).update_dst_session_id request.my_session_id
  let peer_infos := request.peer_infos.getD []
  if peer_infos.isEmpty then (none, n.synced_route_info, session)
  else
    let r := n.synced_route_info.update_peer_infos now n.my_peer_id n.my_peer_route_id from_peer_id peer_infos false
    if r.1.isSome then (r.1, r.2, session)
    else (none, r.2, session.update_dst_saved_peer_info_version peer_infos from_peer_id)

/-- The fault it ends in is returned first; after a panic nothing else counts. -/
def sync_taken [Inhabited D] (now : Nat) (request : SyncRouteInfoRequest D) (n : PeerRouteServiceImpl D) :
    Option SyncFault × PeerRouteServiceImpl D :=
  let r := n.sync_peer_infos now request
  match r.1 with
  | some fault => (some fault, { n with synced_route_info := r.2.1 }.set_session request.my_peer_id r.2.2)
  | none =>
    match request.conn_info with
    | none => (none, { n with synced_route_info := r.2.1 }.set_session request.my_peer_id r.2.2)
    | some conn_info =>
      match r.2.1.update_conn_info now conn_info with
      | none => (some (.panic "index out of bounds"), n)
      | some s =>
        (none, { n with synced_route_info := s }.set_session request.my_peer_id
          (r.2.2.update_dst_saved_conn_info_version conn_info request.my_peer_id))

def mark_credential_peer (is_credential_peer : Bool) (info : RoutePeerInfo D) : RoutePeerInfo D :=
  { info with feature_flag := some { info.feature_flag.getD default with is_credential_peer := is_credential_peer } }

/-- What a credential peer says of itself, with the proxy networks it may have. -/
def extract_credential_peer_info (cidr_is_subset_str : String → String → Bool) (from_peer_id : PeerId)
    (peer_infos : List (RoutePeerInfo D)) (credential : TrustedCredentialPubkey) : Option (RoutePeerInfo D) :=
  (peer_infos.find? fun p => p.peer_id = from_peer_id).map fun info =>
    let allowed_cidrs := credential.allowed_proxy_cidrs
    let proxy_cidrs :=
      if allowed_cidrs.isEmpty then []
      else info.proxy_cidrs.filter fun cidr => allowed_cidrs.any fun allowed => cidr_is_subset_str cidr allowed
    mark_credential_peer true { info with proxy_cidrs := proxy_cidrs }

/-- What is taken of a request: all of it, or of a credential peer its own info, and its
connections if it may relay. -/
def taken (cidr_is_subset_str : String → String → Bool) (request : SyncRouteInfoRequest D) :
    Sender → Option (SyncRouteInfoRequest D)
  | .admin => some request
  | .credential none => none
  | .credential (some credential) =>
    some { request with
      peer_infos := request.peer_infos.map fun peer_infos =>
        (extract_credential_peer_info cidr_is_subset_str request.my_peer_id peer_infos credential).toList
      conn_info := if credential.allow_relay then request.conn_info else none }

def do_sync_route_info [Inhabited D] (now : Nat) (cidr_is_subset_str : String → String → Bool)
    (request : SyncRouteInfoRequest D) (sender : Sender) (n : PeerRouteServiceImpl D) :
    Option SyncFault × PeerRouteServiceImpl D :=
  match taken cidr_is_subset_str request sender with
  | none => (some .Stopped, n)
  | some request => n.sync_taken now request

/-- The record after a request that was taken. -/
def heard (request : SyncRouteInfoRequest D) (session : SyncRouteSession) : SyncRouteSession :=
  let session := (session.update_dst_session_id request.my_session_id).update_dst_saved_peer_info_version
    (request.peer_infos.getD []) request.my_peer_id
  match request.conn_info with
  | none => session
  | some conn_info => session.update_dst_saved_conn_info_version conn_info request.my_peer_id

theorem rows_versions {ci : ConnInfo} {rs : List (PeerIdVersion × Finset PeerId)} (h : rows ci = some rs) :
    connVersions ci = rs.map (·.1) := by
  cases ci with
  | ConnPeerList l =>
    cases h
    rw [connVersions, List.map_filterMap]
    congr 1
    funext x
    cases x.peer_id with
    | none => rfl
    | some v => rfl
  | ConnBitmap b =>
    have hmap : ∀ (l : List (PeerIdVersion × Nat)) (rs : List (PeerIdVersion × Finset PeerId)),
        (l.mapM fun x => (b.get_connected_peers x.2).map (x.1, ·)) = some rs → l.map (·.1) = rs.map (·.1) := by
      intro l
      induction l with
      | nil =>
        rintro rs ⟨⟩
        rfl
      | cons x l ih =>
        intro rs hrs
        rw [List.mapM_cons] at hrs
        obtain ⟨y, hy, hrs⟩ := Option.bind_eq_some_iff.mp hrs
        obtain ⟨ys, hys, hrs⟩ := Option.bind_eq_some_iff.mp hrs
        cases hrs
        obtain ⟨c, -, rfl⟩ := Option.map_eq_some_iff.mp hy
        rw [List.map_cons, List.map_cons, ih ys hys]
    rw [← hmap _ rs h, List.zipIdx_map_fst]
    rfl

theorem sync_peer_infos_spec {now : Nat} {request : SyncRouteInfoRequest D} {n : PeerRouteServiceImpl D}
    (hinfos : (n.synced_route_info.update_peer_infos now n.my_peer_id n.my_peer_route_id request.my_peer_id
      (request.peer_infos.getD []) false).1 = none) :
    ∃ s', n.sync_peer_infos now request = (none, s', ((n.sessions request.my_peer_id).update_dst_session_id
        request.my_session_id).update_dst_saved_peer_info_version (request.peer_infos.getD []) request.my_peer_id) ∧
      Updated now (Offered now (request.peer_infos.getD [])) (fun _ _ => False) n.synced_route_info s' ∧
      ∀ i ∈ request.peer_infos.getD [], i.version ≤ heldVersion infoVersion s'.peer_infos i.peer_id := by
  unfold sync_peer_infos
  dsimp only
  by_cases hempty : (request.peer_infos.getD []).isEmpty = true
  · rw [if_pos hempty]
    rw [List.isEmpty_iff] at hempty
    rw [hempty]
    exact ⟨_, rfl, .refl _, fun i hi => absurd hi List.not_mem_nil⟩
  · rw [if_neg hempty, hinfos]
    exact ⟨_, rfl, Updated.peer_infos _ false _, held_of_update_peer_infos hinfos⟩

/-- The rows of a message, as they are kept. -/
def ConnOffered (conn_info : Option ConnInfo) (p : PeerId) (c : RouteConnInfo) : Prop :=
  ∃ ci rs, conn_info = some ci ∧ rows ci = some rs ∧ Row rs p c

/-- A request nothing is wrong with: all it offers is taken in, nothing else, and the record is kept. -/
theorem sync_taken_spec [Inhabited D] {now : Nat} {request : SyncRouteInfoRequest D} {n : PeerRouteServiceImpl D}
    (hinfos : (n.synced_route_info.update_peer_infos now n.my_peer_id n.my_peer_route_id request.my_peer_id
      (request.peer_infos.getD []) false).1 = none)
    (hconns : ∀ ci, request.conn_info = some ci → ∃ rs, rows ci = some rs) :
    ∃ s', n.sync_taken now request =
        (none, { n with synced_route_info := s' }.set_session request.my_peer_id
          (heard request (n.sessions request.my_peer_id))) ∧
      Updated now (Offered now (request.peer_infos.getD [])) (ConnOffered request.conn_info) n.synced_route_info s' ∧
      (∀ i ∈ request.peer_infos.getD [], i.version ≤ heldVersion infoVersion s'.peer_infos i.peer_id) ∧
      ∀ ci, request.conn_info = some ci → ∀ x ∈ connVersions ci, x.version ≤ heldVersion connVersion s'.conn_map x.peer_id := by
  obtain ⟨s₁, hrun₁, hup₁, hheld₁⟩ := sync_peer_infos_spec hinfos
  have hup₁' : Updated now (Offered now (request.peer_infos.getD [])) (ConnOffered request.conn_info) n.synced_route_info s₁ :=
    hup₁.weaken (fun _ _ h => h) fun _ _ h => h.elim
  unfold sync_taken heard
  rw [hrun₁]
  cases hci : request.conn_info with
  | none => exact ⟨s₁, rfl, hci ▸ hup₁', hheld₁, fun ci h => by cases h⟩
  | some ci =>
    obtain ⟨rs, hrs⟩ := hconns ci hci
    rcases update_conn_info_spec now ci s₁ with ⟨hnone, -⟩ | ⟨rs', s₂, hrs', hrun₂, hup₂, hheld₂⟩
    · rw [hnone] at hrs
      cases hrs
    · cases hrs.symm.trans hrs'
      rw [hci] at hup₁'
      dsimp only
      rw [hrun₂]
      refine ⟨s₂, rfl, hup₁'.trans (hup₂.weaken (fun _ _ h => h.elim) fun p c h => ⟨ci, rs, rfl, hrs, h⟩), ?_, ?_⟩
      · intro i hi
        exact (hheld₁ i hi).trans (hup₂.infos_learned.mono _)
      · rintro _ ⟨⟩ x hx
        rw [rows_versions hrs] at hx
        obtain ⟨r, hr, rfl⟩ := List.mem_map.mp hx
        exact hheld₂ r hr

/-! ## What is taken -/

section Taken
variable {cidr_is_subset_str : String → String → Bool} {request request' : SyncRouteInfoRequest D} {sender : Sender}

/-- Nothing but the network fields and the flags of an info are rewritten, and connections are taken as they come. -/
theorem taken_spec (h : taken cidr_is_subset_str request sender = some request') :
    request'.my_peer_id = request.my_peer_id ∧ request'.my_session_id = request.my_session_id ∧
      (∀ i ∈ request'.peer_infos.getD [], ∃ j ∈ request.peer_infos.getD [], i.peer_id = j.peer_id ∧
        i.peer_route_id = j.peer_route_id ∧ i.version = j.version) ∧
      ∀ ci, request'.conn_info = some ci → request.conn_info = some ci := by
  cases sender with
  | admin =>
    cases h
    exact ⟨rfl, rfl, fun i hi => ⟨i, hi, rfl, rfl, rfl⟩, fun _ h => h⟩
  | credential credential_info =>
    cases credential_info with
    | none => cases h
    | some credential =>
      cases h
      refine ⟨rfl, rfl, ?_, ?_⟩
      · intro i hi
        cases hinfos : request.peer_infos with
        | none =>
          rw [hinfos] at hi
          exact absurd hi List.not_mem_nil
        | some peer_infos =>
          rw [hinfos] at hi
          have hextract := Option.mem_toList.mp hi
          obtain ⟨j, hj, rfl⟩ := Option.map_eq_some_iff.mp hextract
          exact ⟨j, List.mem_of_find?_eq_some hj, rfl, rfl, rfl⟩
      · intro ci hci
        dsimp only at hci
        split_ifs at hci
        exact hci

end Taken

end PeerRouteServiceImpl

end EasyTierHost.Peers
