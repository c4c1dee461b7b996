import EasyTierHost.Effects.Gate
import EasyTierHost.Peers.SyncRouteSession

/- The link state of a whole network (peers/peer_ospf_route.rs). Peers announce themselves and
   their connections, forget others, and call each other to sync. A call may arrive late,
   never, or several times, and so may its answer; calls overtake each other. A session is
   there from the start, and stopping one and starting it again is `renew`. The handler of a
   call is one step, and so is each update of a peer's own state. Clocks show any time.

   No peer is taken for another. And as long as versions do not wrap around, whatever any peer
   holds of another at a version is what that one announced at it. -/
namespace EasyTierHost.Peers
open Effects SyncedRouteInfo

/-- A call on its way, and what the caller keeps for the answer. -/
structure Call (D : Type) where
  dst_peer_id : PeerId
  request : SyncRouteInfoRequest D
  next_last_sync_succ_timestamp : Nat

structure Net (D : Type) where
  nodes : PeerId → PeerRouteServiceImpl D
  calls : List (Call D)
  answers : List (Call D × Nat)
  now : Nat

inductive NetEvent (D : Type) where
  | announce (p : PeerId) (config : RoutePeerInfo D)
  | connect (p : PeerId) (connected_peers : Finset PeerId)
  | forget (p : PeerId) (peer_ids : List PeerId)
  | rebuild (p : PeerId) (reachable : PeerId → Bool) (before : SyncedRouteInfo D)
  | sync (p dst : PeerId) (reachable : PeerId → Bool) (need_sync : Bool)
  | deliver (call : Nat) (sender : Sender) (cidr_is_subset_str : String → String → Bool)
  | answer (answer : Nat)
  | clean (p dst : PeerId) (expired_info expired_conn : PeerId → Bool)
  | renew (p dst : PeerId) (session_id : Nat)
  | clock (now : Nat)

namespace Net
variable {D : Type}

def set (n : Net D) (p : PeerId) (node : PeerRouteServiceImpl D) : Net D :=
  { n with nodes := Function.update n.nodes p node }

@[simp] theorem set_nodes_self (n : Net D) (q : PeerId) (node : PeerRouteServiceImpl D) : (n.set q node).nodes q = node := by
  rw [Net.set]
  exact Function.update_self ..

theorem set_nodes_of_ne (n : Net D) {p q : PeerId} (h : p ≠ q) (node : PeerRouteServiceImpl D) :
    (n.set q node).nodes p = n.nodes p := by
  rw [Net.set]
  exact Function.update_of_ne h ..

theorem set_set (n : Net D) (q : PeerId) (node node' : PeerRouteServiceImpl D) : (n.set q node).set q node' = n.set q node' := by
  unfold Net.set
  rw [Function.update_idem]

/-- A step, and the fault it ends in. -/
def step [DecidableEq D] [Inhabited D] (n : Net D) : NetEvent D → Option SyncFault × Net D
  | .announce p config =>
    let node := n.nodes p
    (none, n.set p { node with synced_route_info :=
      (node.synced_route_info.update_my_peer_info n.now node.my_peer_id node.my_peer_route_id config).2 })
  | .connect p connected_peers =>
    let node := n.nodes p
    (none, n.set p { node with synced_route_info :=
      (node.synced_route_info.update_my_conn_info n.now node.my_peer_id connected_peers).2 })
  | .forget p peer_ids =>
    let node := n.nodes p
    (none, n.set p { node with synced_route_info := node.synced_route_info.remove_peers peer_ids })
  | .rebuild p reachable before => (none, n.set p ((n.nodes p).update_cached_local_conn_bitmap reachable before))
  | .sync p dst reachable need_sync =>
    let r := (n.nodes p).sync_route_with_peer reachable need_sync dst
    (none, { n.set p r.2 with calls := n.calls ++ (r.1.map (Call.mk dst · n.now)).toList })
  | .deliver i sender cidr_is_subset_str =>
    match n.calls[i]? with
    | none => (none, n)
    | some c =>
      let r := (n.nodes c.dst_peer_id).do_sync_route_info n.now cidr_is_subset_str c.request sender
      match r.1 with
      | some fault => (some fault, n.set c.dst_peer_id r.2)
      | none =>
        (none, { n.set c.dst_peer_id r.2 with
          answers := n.answers ++ [(c, (r.2.sessions c.request.my_peer_id).my_session_id)] })
  | .answer i =>
    match n.answers[i]? with
    | none => (none, n)
    | some (c, session_id) =>
      let node := n.nodes c.request.my_peer_id
      let session := node.sessions c.dst_peer_id
      -- the caller still holds the session it called from, be it replaced or not
      if session.my_session_id = c.request.my_session_id then
        (none, n.set c.request.my_peer_id (node.set_session c.dst_peer_id
          (PeerRouteServiceImpl.synced c.request c.next_last_sync_succ_timestamp session_id session)))
      else (none, n)
  | .clean p dst expired_info expired_conn =>
    let node := n.nodes p
    (none, n.set p (node.set_session dst ((node.sessions dst).clean_dst_saved_map expired_info expired_conn)))
  | .renew p dst session_id => (none, n.set p ((n.nodes p).set_session dst (.new dst session_id)))
  | .clock now => (none, { n with now := now })

/-- At first nobody knows anything. -/
def start (route : PeerId → Nat) (session_id : PeerId → PeerId → Nat) : Net D where
  nodes := fun p =>
    { my_peer_id := p
      my_peer_route_id := route p
      sessions := fun q => .new q (session_id p q)
      synced_route_info := ⟨∅, ∅, 0⟩
      cached_local_conn_map := ⟨[], []⟩
      cached_local_conn_map_version := 0 }
  calls := []
  answers := []
  now := 0

/-! ## Who is who -/

/-- A peer does not forget itself, as it renews its own entry in time; 0 is no peer's id. -/
def Keeps (_ : Net D) : NetEvent D → Prop
  | .forget p peer_ids => p ∉ peer_ids
  | .sync p _ _ _ => p ≠ 0
  | _ => True

/-- A peer goes by its own ids, holds others under theirs, and has a bitmap ready that can be read. -/
structure Identified (route : PeerId → Nat) (q : PeerId) (node : PeerRouteServiceImpl D) : Prop where
  ids : node.my_peer_id = q ∧ node.my_peer_route_id = route q
  infos : ∀ p i, node.synced_route_info.peer_infos.lookup p = some i → Genuine route p i
  cached : ∃ rs, rows (.ConnBitmap node.cached_local_conn_map) = some rs

/-- A request from somebody, about peers under their own ids, with connections that can be read. -/
structure Readable (route : PeerId → Nat) (request : SyncRouteInfoRequest D) : Prop where
  caller : request.my_peer_id ≠ 0
  infos : ∀ i ∈ request.peer_infos.getD [], Genuine route i.peer_id i
  conns : ∀ ci, request.conn_info = some ci → ∃ rs, rows ci = some rs

structure Proper (route : PeerId → Nat) (n : Net D) : Prop where
  nodes : ∀ q, Identified route q (n.nodes q)
  calls : ∀ c ∈ n.calls, Readable route c.request

section Ids
variable {route : PeerId → Nat} {n : Net D} {q : PeerId} {node : PeerRouteServiceImpl D} {request : SyncRouteInfoRequest D}
  {cidr_is_subset_str : String → String → Bool} {sender : Sender}

theorem Proper.set (h : Proper route n) (hnode : Identified route q node) : Proper route (n.set q node) :=
  ⟨(Function.forall_update_iff n.nodes (p := fun p node => Identified route p node)).mpr ⟨hnode, fun p _ => h.nodes p⟩,
    h.calls⟩

theorem Identified.set_session (h : Identified route q node) (dst : PeerId) (session : SyncRouteSession) :
    Identified route q (node.set_session dst session) := ⟨h.ids, h.infos, h.cached⟩

theorem Proper.set_session (h : Proper route n) (q dst : PeerId) (session : SyncRouteSession) :
    Proper route (n.set q ((n.nodes q).set_session dst session)) := h.set ((h.nodes q).set_session dst session)

/-- A peer takes in infos that name others rightly. -/
theorem Identified.updated (h : Identified route q node) {now : Nat} {infos : PeerId → RoutePeerInfo D → Prop}
    {conns : PeerId → RouteConnInfo → Prop} {s' : SyncedRouteInfo D} (hup : Updated now infos conns node.synced_route_info s')
    (hinfos : ∀ p i, infos p i → Genuine route p i) : Identified route q { node with synced_route_info := s' } :=
  ⟨h.ids, hup.infos_learned.all h.infos (fun _ _ hb => .inl hb) hinfos, h.cached⟩

theorem Identified.announced [DecidableEq D] (h : Identified route q node) (now : Nat) (config : RoutePeerInfo D) :
    Identified route q { node with synced_route_info :=
      (node.synced_route_info.update_my_peer_info now node.my_peer_id node.my_peer_route_id config).2 } := by
  rcases update_my_peer_info_cases now node.my_peer_id node.my_peer_route_id config node.synced_route_info with
    hsame | ⟨-, i, hi, -, -, -, hid, hroute⟩
  · rw [hsame]
    exact h
  · refine ⟨h.ids, ?_, h.cached⟩
    intro p j hj
    change (update_my_peer_info _ _ _ _ _).2.peer_infos.lookup p = some j at hj
    rw [hi] at hj
    by_cases hp : p = node.my_peer_id
    · subst hp
      rw [AList.lookup_insert] at hj
      cases hj
      refine .inr ⟨hid, ?_⟩
      rw [hroute, h.ids.2, h.ids.1]
    · rw [AList.lookup_insert_ne hp] at hj
      exact h.infos p j hj

theorem Identified.connected [Inhabited D] (h : Identified route q node) (now : Nat) (connected_peers : Finset PeerId) :
    Identified route q { node with synced_route_info :=
      (node.synced_route_info.update_my_conn_info now node.my_peer_id connected_peers).2 } := by
  have hfill : Updated now (fun _ _ => False) (fun _ _ => False) node.synced_route_info
      (fill_empty_peer_info now connected_peers node.synced_route_info) := .fill now connected_peers _
  have h' := h.updated hfill fun _ _ hf => hf.elim
  rcases update_my_conn_info_cases now node.my_peer_id connected_peers node.synced_route_info with
    hsame | ⟨-, c, hi, -⟩
  · rw [hsame]
    exact h'
  · refine ⟨h.ids, ?_, h.cached⟩
    show ∀ p i, (update_my_conn_info _ _ _ _).2.peer_infos.lookup p = some i → _
    rw [hi]
    exact h'.infos

theorem Identified.forgot (h : Identified route q node) (peer_ids : List PeerId) :
    Identified route q { node with synced_route_info := node.synced_route_info.remove_peers peer_ids } := by
  refine ⟨h.ids, ?_, h.cached⟩
  intro p i hi
  change (remove_peers peer_ids _).peer_infos.lookup p = some i at hi
  rw [(remove_peers_maps peer_ids _).1, lookup_foldl_erase] at hi
  split_ifs at hi
  exact h.infos p i hi

theorem mapM_eq_some {A B : Type} {f : A → Option B} : ∀ {l : List A}, (∀ x ∈ l, ∃ y, f x = some y) →
    ∃ ys, l.mapM f = some ys ∧ ∀ y ∈ ys, ∃ x ∈ l, f x = some y
  | [], _ => ⟨[], rfl, fun y hy => absurd hy List.not_mem_nil⟩
  | x :: l, h => by
    obtain ⟨y, hy⟩ := h x List.mem_cons_self
    obtain ⟨ys, hys, hall⟩ := mapM_eq_some fun x' hx' => h x' (List.mem_cons_of_mem x hx')
    refine ⟨y :: ys, by rw [List.mapM_cons, hy, hys]; rfl, ?_⟩
    intro z hz
    rcases List.mem_cons.mp hz with rfl | hz
    · exact ⟨x, List.mem_cons_self, hy⟩
    · obtain ⟨x', hx', hz⟩ := hall z hz
      exact ⟨x', List.mem_cons_of_mem x hx', hz⟩

/-- A bitmap can be read, whatever the map was when its rows were filled. -/
theorem rows_build (reachable : PeerId → Bool) (conn_map locked_conn_map : AList (fun _ : PeerId => RouteConnInfo)) :
    ∃ rs, rows (.ConnBitmap (.build reachable conn_map locked_conn_map)) = some rs ∧
      ∀ r ∈ rs, ∃ i : Nat, (RouteConnBitmap.build reachable conn_map locked_conn_map).peer_ids[i]? = some r.1 ∧
        (RouteConnBitmap.build reachable conn_map locked_conn_map).get_connected_peers i = some r.2 := by
  set b := RouteConnBitmap.build reachable conn_map locked_conn_map with hb
  obtain ⟨rs, hrs, hall⟩ := mapM_eq_some (f := fun x => (b.get_connected_peers x.2).map (x.1, ·)) (l := b.peer_ids.zipIdx) (by
    intro x hx
    rw [hb, RouteConnBitmap.get_connected_peers_build (List.mem_zipIdx_iff_getElem?.mp hx)]
    exact ⟨_, rfl⟩)
  refine ⟨rs, hrs, ?_⟩
  intro r hr
  obtain ⟨x, hx, hrow⟩ := hall r hr
  obtain ⟨connected_peers, hget, rfl⟩ := Option.map_eq_some_iff.mp hrow
  exact ⟨x.2, List.mem_zipIdx_iff_getElem?.mp hx, hget⟩

theorem Identified.rebuilt (h : Identified route q node) (reachable : PeerId → Bool) (before : SyncedRouteInfo D) :
    Identified route q (node.update_cached_local_conn_bitmap reachable before) := by
  unfold PeerRouteServiceImpl.update_cached_local_conn_bitmap
  split_ifs
  · obtain ⟨rs, hrs, -⟩ := rows_build reachable before.conn_map node.synced_route_info.conn_map
    exact ⟨h.ids, h.infos, rs, hrs⟩
  · exact h

/-- What a peer sends names others rightly. -/
theorem Identified.called (h : Identified route q node) (hq : q ≠ 0) (reachable : PeerId → Bool) (dst : PeerId) :
    Readable route (node.build_sync_request reachable dst).1 := by
  refine ⟨?_, ?_, ?_⟩
  · show node.my_peer_id ≠ 0
    rw [h.ids.1]
    exact hq
  · intro i hi
    rw [show (node.build_sync_request reachable dst).1.peer_infos =
      (PeerRouteServiceImpl.build_route_info reachable node.synced_route_info (node.sessions dst)).1 from rfl,
      PeerRouteServiceImpl.build_route_info_infos] at hi
    obtain ⟨e, he, rfl⟩ := List.mem_map.mp hi
    exact (h.infos e.1 e.2 (lookup_of_offer he)).own_key
  · intro ci hci
    rcases PeerRouteServiceImpl.build_conn_info_cases reachable dst _ node with ⟨-, hnone⟩ | hlist | hbitmap
    · cases hnone.symm.trans hci
    · cases hlist.symm.trans hci
      exact ⟨_, rfl⟩
    · cases hbitmap.symm.trans hci
      exact h.cached

theorem Readable.taken (h : Readable route request) {request' : SyncRouteInfoRequest D}
    (htaken : PeerRouteServiceImpl.taken cidr_is_subset_str request sender = some request') : Readable route request' := by
  obtain ⟨hcaller, -, hinfos, hconns⟩ := PeerRouteServiceImpl.taken_spec htaken
  refine ⟨?_, ?_, fun ci hci => h.conns ci (hconns ci hci)⟩
  · rw [hcaller]
    exact h.caller
  · intro i hi
    obtain ⟨j, hj, hid, hroute, hversion⟩ := hinfos i hi
    rcases h.infos j hj with hblank | ⟨-, hroute'⟩
    · exact .inl ⟨hversion.trans hblank.1, hid.trans hblank.2⟩
    · refine .inr ⟨rfl, ?_⟩
      rw [hroute, hroute', hid]

/-- What is taken of a request goes in without a fault. -/
theorem Identified.delivered [Inhabited D] (h : Identified route q node) (hreq : Readable route request) (now : Nat)
    {request' : SyncRouteInfoRequest D}
    (htaken : PeerRouteServiceImpl.taken cidr_is_subset_str request sender = some request') :
    ∃ s', node.do_sync_route_info now cidr_is_subset_str request sender =
        (none, { node with synced_route_info := s' }.set_session request'.my_peer_id
          (PeerRouteServiceImpl.heard request' (node.sessions request'.my_peer_id))) ∧
      Updated now (Offered now (request'.peer_infos.getD [])) (PeerRouteServiceImpl.ConnOffered request'.conn_info)
        node.synced_route_info s' ∧
      (∀ i ∈ request'.peer_infos.getD [], i.version ≤ heldVersion infoVersion s'.peer_infos i.peer_id) ∧
      ∀ ci, request'.conn_info = some ci → ∀ x ∈ SyncRouteSession.connVersions ci,
        x.version ≤ heldVersion connVersion s'.conn_map x.peer_id := by
  have hreq' := hreq.taken htaken
  rw [PeerRouteServiceImpl.do_sync_route_info, htaken]
  refine PeerRouteServiceImpl.sync_taken_spec ?_ hreq'.conns
  rw [h.ids.1, h.ids.2]
  exact update_peer_infos_ok hreq'.caller h.infos hreq'.infos

theorem genuine_of_offered (hreq : Readable route request) {now : Nat} {p : PeerId} {i : RoutePeerInfo D}
    (hi : Offered now (request.peer_infos.getD []) p i) : Genuine route p i := by
  obtain ⟨j, hj, rfl, rfl⟩ := hi
  exact hreq.infos j hj

theorem proper_start (route : PeerId → Nat) (session_id : PeerId → PeerId → Nat) :
    Proper route (start (D := D) route session_id) := by
  refine ⟨fun q => ⟨⟨rfl, rfl⟩, ?_, [], rfl⟩, ?_⟩
  · rintro p i ⟨⟩
  · intro c hc
    exact absurd hc List.not_mem_nil

variable [DecidableEq D] [Inhabited D]

/-- A step leaves everyone under its own ids, and refuses only a credential that nobody has announced. -/
theorem Proper.step (h : Proper route n) (e : NetEvent D) (hok : Keeps n e) :
    Proper route (n.step e).2 ∧ ∀ fault, (n.step e).1 = some fault →
      fault = .Stopped ∧ ∃ call cidr_is_subset_str, e = .deliver call (.credential none) cidr_is_subset_str := by
  cases e with
  | announce p config => exact ⟨h.set ((h.nodes p).announced n.now config), fun _ hf => nomatch hf⟩
  | connect p connected_peers => exact ⟨h.set ((h.nodes p).connected n.now connected_peers), fun _ hf => nomatch hf⟩
  | forget p peer_ids => exact ⟨h.set ((h.nodes p).forgot peer_ids), fun _ hf => nomatch hf⟩
  | rebuild p reachable before => exact ⟨h.set ((h.nodes p).rebuilt reachable before), fun _ hf => nomatch hf⟩
  | sync p dst reachable need_sync =>
    refine ⟨⟨(h.set_session p dst _).nodes, ?_⟩, fun _ hf => nomatch hf⟩
    intro c hc
    rcases List.mem_append.mp hc with hold | hnew
    · exact h.calls c hold
    · obtain ⟨request, hreq, rfl⟩ := Option.map_eq_some_iff.mp (Option.mem_toList.mp hnew)
      change (if _ then none else some _) = some request at hreq
      split_ifs at hreq
      cases hreq
      exact (h.nodes p).called hok reachable dst
  | deliver i sender cidr_is_subset_str =>
    rw [Net.step]
    cases hi : n.calls[i]? with
    | none => exact ⟨h, fun _ hf => nomatch hf⟩
    | some c =>
      have hreq := h.calls c (List.mem_of_getElem? hi)
      have hnode := h.nodes c.dst_peer_id
      cases htaken : PeerRouteServiceImpl.taken cidr_is_subset_str c.request sender with
      | none =>
        have hsender : sender = .credential none := by
          cases sender with
          | admin => cases htaken
          | credential credential_info =>
            cases credential_info with
            | none => rfl
            | some credential => cases htaken
        dsimp only
        rw [PeerRouteServiceImpl.do_sync_route_info, htaken]
        refine ⟨h.set hnode, ?_⟩
        rintro fault ⟨⟩
        exact ⟨rfl, i, cidr_is_subset_str, by rw [hsender]⟩
      | some request' =>
        obtain ⟨s', hrun, hup, -, -⟩ := hnode.delivered hreq n.now htaken
        dsimp only
        rw [hrun]
        have hheard := hnode.updated hup fun _ _ => genuine_of_offered (hreq.taken htaken)
        have hset := h.set (hheard.set_session request'.my_peer_id
          (PeerRouteServiceImpl.heard request' ((n.nodes c.dst_peer_id).sessions request'.my_peer_id)))
        exact ⟨⟨hset.nodes, h.calls⟩, fun _ hf => nomatch hf⟩
  | answer i =>
    rw [Net.step]
    cases n.answers[i]? with
    | none => exact ⟨h, fun _ hf => nomatch hf⟩
    | some a =>
      dsimp only
      split_ifs
      · exact ⟨h.set_session _ _ _, fun _ hf => nomatch hf⟩
      · exact ⟨h, fun _ hf => nomatch hf⟩
  | clean p dst expired_info expired_conn => exact ⟨h.set_session _ _ _, fun _ hf => nomatch hf⟩
  | renew p dst session_id => exact ⟨h.set_session _ _ _, fun _ hf => nomatch hf⟩
  | clock now => exact ⟨⟨h.nodes, h.calls⟩, fun _ hf => nomatch hf⟩

end Ids

/-! ## What has been announced -/

/-- The part of an info that its owner decides. -/
def body (info : RoutePeerInfo D) : RoutePeerInfo D := { info with last_update := none }

/-- What a peer announces of itself in a step: whose it is, its version, and what it says. -/
def announced [DecidableEq D] (n : Net D) : NetEvent D → Option (PeerId × Nat × RoutePeerInfo D)
  | .announce p config =>
    let node := n.nodes p
    let r := node.synced_route_info.update_my_peer_info n.now node.my_peer_id node.my_peer_route_id config
    if r.1 then (r.2.peer_infos.lookup node.my_peer_id).map fun i => (node.my_peer_id, i.version, body i) else none
  | _ => none

/-- What a peer announces of its connections in a step. -/
def announcedConns [Inhabited D] (n : Net D) : NetEvent D → Option (PeerId × Nat × Finset PeerId)
  | .connect p connected_peers =>
    let node := n.nodes p
    let r := node.synced_route_info.update_my_conn_info n.now node.my_peer_id connected_peers
    if r.1 then (r.2.conn_map.lookup node.my_peer_id).map fun c => (node.my_peer_id, c.version, c.connected_peers) else none
  | _ => none

section Announcements
variable [DecidableEq D] [Inhabited D]

/-- All that is announced in a run, in order. -/
def announcements (n : Net D) (events : List (NetEvent D)) : List (PeerId × Nat × RoutePeerInfo D) :=
  passed (fun n e => (announced n e, (n.step e).2)) n events

def connAnnouncements (n : Net D) (events : List (NetEvent D)) : List (PeerId × Nat × Finset PeerId) :=
  passed (fun n e => (announcedConns n e, (n.step e).2)) n events

end Announcements

def infoTop (n : Net D) (p : PeerId) : Nat := heldVersion infoVersion (n.nodes p).synced_route_info.peer_infos p

def connTop (n : Net D) (p : PeerId) : Nat := heldVersion connVersion (n.nodes p).synced_route_info.conn_map p

/-- Beside what `Keeps` asks: no version reaches 2 ^ 32, a bitmap is built from one state of the map, and nobody
syncs as a credential peer. -/
def Regular (n : Net D) : NetEvent D → Prop
  | .announce p _ => n.infoTop p + 1 < 2 ^ 32
  | .connect p _ => n.connTop p + 1 < 2 ^ 32
  | .forget p peer_ids => p ∉ peer_ids
  | .rebuild p _ before => before.conn_map = (n.nodes p).synced_route_info.conn_map
  | .sync p _ _ _ => p ≠ 0
  | .deliver _ sender _ => sender = .admin
  | _ => True

theorem Regular.keeps {n : Net D} {e : NetEvent D} (h : Regular n e) : Keeps n e := by
  cases e with
  | forget p peer_ids => exact h
  | sync p dst reachable need_sync => exact h
  | _ => trivial

abbrev InfoTold (infos : List (PeerId × Nat × RoutePeerInfo D)) (p : PeerId) (i : RoutePeerInfo D) : Prop :=
  Told infoVersion BlankInfo body infos p i

abbrev ConnTold (conns : List (PeerId × Nat × Finset PeerId)) (p : PeerId) (c : RouteConnInfo) : Prop :=
  Told connVersion BlankConn (·.connected_peers) conns p c

/-- A message about connections repeats what was announced. -/
def RowsTold (conns : List (PeerId × Nat × Finset PeerId)) (ci : ConnInfo) : Prop :=
  ∀ rs, rows ci = some rs → ∀ p c, Row rs p c → ConnTold conns p c

/-- What a peer holds, and has ready to be sent, was announced. -/
structure Repeats (infos : List (PeerId × Nat × RoutePeerInfo D)) (conns : List (PeerId × Nat × Finset PeerId))
    (node : PeerRouteServiceImpl D) : Prop where
  held_infos : Authentic infoVersion BlankInfo body infos node.synced_route_info.peer_infos
  held_conns : Authentic connVersion BlankConn (·.connected_peers) conns node.synced_route_info.conn_map
  cached : RowsTold conns (.ConnBitmap node.cached_local_conn_map)

structure Carries (infos : List (PeerId × Nat × RoutePeerInfo D)) (conns : List (PeerId × Nat × Finset PeerId))
    (request : SyncRouteInfoRequest D) : Prop where
  sent_infos : ∀ i ∈ request.peer_infos.getD [], InfoTold infos i.peer_id i
  sent_conns : ∀ ci, request.conn_info = some ci → RowsTold conns ci

/-- The announcements explain all that is held or on its way, and every owner is as far as it has announced. -/
structure Explained (infos : List (PeerId × Nat × RoutePeerInfo D)) (conns : List (PeerId × Nat × Finset PeerId))
    (n : Net D) : Prop where
  infos_counted : Counted infos n.infoTop
  conns_counted : Counted conns n.connTop
  nodes : ∀ q, Repeats infos conns (n.nodes q)
  calls : ∀ c ∈ n.calls, Carries infos conns c.request

section Explaining
variable {route : PeerId → Nat} {infos infos' : List (PeerId × Nat × RoutePeerInfo D)}
  {conns conns' : List (PeerId × Nat × Finset PeerId)} {n : Net D} {q : PeerId} {node : PeerRouteServiceImpl D}
  {request : SyncRouteInfoRequest D}

theorem RowsTold.more (hsub : conns ⊆ conns') {ci : ConnInfo} (h : RowsTold conns ci) : RowsTold conns' ci :=
  fun rs hrs p c hrow => (h rs hrs p c hrow).more hsub

theorem Repeats.more (hi : infos ⊆ infos') (hc : conns ⊆ conns') (h : Repeats infos conns node) :
    Repeats infos' conns' node :=
  ⟨h.held_infos.more hi, h.held_conns.more hc, h.cached.more hc⟩

theorem Carries.more (hi : infos ⊆ infos') (hc : conns ⊆ conns') (h : Carries infos conns request) :
    Carries infos' conns' request :=
  ⟨fun i hmem => (h.sent_infos i hmem).more hi, fun ci hci => (h.sent_conns ci hci).more hc⟩

/-! ## Messages repeat what was announced -/

theorem rowsTold_build {m : AList (fun _ : PeerId => RouteConnInfo)}
    (hm : Authentic connVersion BlankConn (·.connected_peers) conns m) (reachable : PeerId → Bool) :
    RowsTold conns (.ConnBitmap (.build reachable m m)) := by
  intro rs hrs p c hrow
  obtain ⟨rs', hrs', hall⟩ := rows_build reachable m m
  cases hrs.symm.trans hrs'
  obtain ⟨i, hx, hget⟩ := hall _ hrow
  by_cases h0 : c.version = 0
  · exact .inl h0
  · -- a version above 0 is listed only with the connections the map has for it
    obtain ⟨c', hc', hv, hget'⟩ := RouteConnBitmap.get_connected_peers_of_mem hx h0
    have hconn : c.connected_peers = c'.connected_peers := Option.some_inj.mp (hget.symm.trans hget')
    have hv' : c'.version = c.version := hv
    have htold := (hm p c' hc').resolve_left fun hb => h0 (hv'.symm.trans hb)
    refine .inr ⟨h0, ?_⟩
    show (p, c.version, c.connected_peers) ∈ conns
    rw [hconn, ← hv']
    exact htold.2

theorem rowsTold_list {l : List (Sigma fun _ : PeerId => RouteConnInfo)} (hl : ∀ e ∈ l, ConnTold conns e.1 e.2) :
    RowsTold conns (.ConnPeerList (l.map PeerRouteServiceImpl.peer_conn_info)) := by
  rintro rs ⟨⟩ p c hrow
  obtain ⟨x, hx, hc⟩ := List.mem_filterMap.mp hrow
  obtain ⟨e, he, rfl⟩ := List.mem_map.mp hx
  obtain ⟨v, hv, heq⟩ := Option.map_eq_some_iff.mp hc
  cases hv
  have hversion : e.2.version = c.version := congrArg (fun r => r.1.version) heq
  have hconn : e.2.connected_peers = c.connected_peers := by
    have h : (e.2.connected_peers.sort (· ≤ ·)).toFinset = c.connected_peers := congrArg Prod.snd heq
    rw [Finset.sort_toFinset] at h
    exact h
  have hp : e.1 = p := congrArg (fun r => r.1.peer_id) heq
  rcases hl e he with hb | ⟨hne, hsaid⟩
  · exact .inl (hversion.symm.trans hb)
  · refine .inr ⟨?_, ?_⟩
    · show c.version ≠ 0
      rw [← hversion]
      exact hne
    · show (p, c.version, c.connected_peers) ∈ conns
      rw [← hconn, ← hversion, ← hp]
      exact hsaid

theorem infoTold_own_key {i : RoutePeerInfo D} (hid : Genuine route q i) (h : InfoTold infos q i) : InfoTold infos i.peer_id i := by
  rcases hid with hblank | ⟨rfl, -⟩
  · exact .inl hblank
  · exact h

/-- What a peer sends repeats what was announced. -/
theorem Repeats.called (h : Repeats infos conns node) (hid : Identified route q node) (reachable : PeerId → Bool)
    (dst : PeerId) : Carries infos conns (node.build_sync_request reachable dst).1 := by
  constructor
  · intro i hi
    rw [show (node.build_sync_request reachable dst).1.peer_infos =
      (PeerRouteServiceImpl.build_route_info reachable node.synced_route_info (node.sessions dst)).1 from rfl,
      PeerRouteServiceImpl.build_route_info_infos] at hi
    obtain ⟨e, he, rfl⟩ := List.mem_map.mp hi
    exact infoTold_own_key (hid.infos e.1 e.2 (lookup_of_offer he)) (h.held_infos e.1 e.2 (lookup_of_offer he))
  · intro ci hci
    rcases PeerRouteServiceImpl.build_conn_info_cases reachable dst _ node with ⟨-, hnone⟩ | hlist | hbitmap
    · cases hnone.symm.trans hci
    · cases hlist.symm.trans hci
      exact rowsTold_list fun e he => h.held_conns e.1 e.2 (lookup_of_offer he)
    · cases hbitmap.symm.trans hci
      exact h.cached

theorem Carries.offered_infos (h : Carries infos conns request) {now : Nat} {p : PeerId} {i : RoutePeerInfo D}
    (hi : Offered now (request.peer_infos.getD []) p i) : InfoTold infos p i := by
  obtain ⟨j, hj, rfl, rfl⟩ := hi
  exact h.sent_infos j hj

theorem Carries.offered_conns (h : Carries infos conns request) {p : PeerId} {c : RouteConnInfo}
    (hc : PeerRouteServiceImpl.ConnOffered request.conn_info p c) : ConnTold conns p c := by
  obtain ⟨ci, rs, hci, hrs, hrow⟩ := hc
  exact h.sent_conns ci hci rs hrs p c hrow

/-! ## Steps -/

theorem infoTop_set_self (n : Net D) (q : PeerId) (node : PeerRouteServiceImpl D) :
    (n.set q node).infoTop q = heldVersion infoVersion node.synced_route_info.peer_infos q := by
  rw [infoTop, set_nodes_self]

theorem connTop_set_self (n : Net D) (q : PeerId) (node : PeerRouteServiceImpl D) :
    (n.set q node).connTop q = heldVersion connVersion node.synced_route_info.conn_map q := by
  rw [connTop, set_nodes_self]

theorem infoTop_set_le (h : n.infoTop q ≤ heldVersion infoVersion node.synced_route_info.peer_infos q) (p : PeerId) :
    n.infoTop p ≤ (n.set q node).infoTop p := by
  by_cases hp : p = q
  · subst hp
    rw [infoTop_set_self]
    exact h
  · rw [infoTop, infoTop, set_nodes_of_ne n hp]

theorem connTop_set_le (h : n.connTop q ≤ heldVersion connVersion node.synced_route_info.conn_map q) (p : PeerId) :
    n.connTop p ≤ (n.set q node).connTop p := by
  by_cases hp : p = q
  · subst hp
    rw [connTop_set_self]
    exact h
  · rw [connTop, connTop, set_nodes_of_ne n hp]

/-- A peer changes, and may announce something with that. -/
theorem Explained.set (h : Explained infos conns n) (hi : infos ⊆ infos') (hc : conns ⊆ conns')
    (hinfos : Counted infos' (n.set q node).infoTop) (hconns : Counted conns' (n.set q node).connTop)
    (hnode : Repeats infos' conns' node) : Explained infos' conns' (n.set q node) where
  infos_counted := hinfos
  conns_counted := hconns
  nodes := (Function.forall_update_iff n.nodes (p := fun _ node => Repeats infos' conns' node)).mpr
    ⟨hnode, fun p _ => (h.nodes p).more hi hc⟩
  calls := fun c hcall => (h.calls c hcall).more hi hc

/-- A peer changes and announces nothing. -/
theorem Explained.quiet (h : Explained infos conns n)
    (hi : n.infoTop q ≤ heldVersion infoVersion node.synced_route_info.peer_infos q)
    (hc : n.connTop q ≤ heldVersion connVersion node.synced_route_info.conn_map q) (hnode : Repeats infos conns node) :
    Explained infos conns (n.set q node) :=
  h.set (List.Subset.refl _) (List.Subset.refl _) (h.infos_counted.mono (infoTop_set_le hi))
    (h.conns_counted.mono (connTop_set_le hc)) hnode

theorem Explained.set_session (h : Explained infos conns n) (q dst : PeerId) (session : SyncRouteSession) :
    Explained infos conns (n.set q ((n.nodes q).set_session dst session)) :=
  h.quiet (Nat.le_refl _) (Nat.le_refl _) ⟨(h.nodes q).held_infos, (h.nodes q).held_conns, (h.nodes q).cached⟩

/-- A peer takes in what has been announced. -/
theorem Explained.updated (h : Explained infos conns n) {now : Nat} {offered : PeerId → RoutePeerInfo D → Prop}
    {offeredConns : PeerId → RouteConnInfo → Prop} {s' : SyncedRouteInfo D}
    (hup : Updated now offered offeredConns (n.nodes q).synced_route_info s') (hi : ∀ p i, offered p i → InfoTold infos p i)
    (hc : ∀ p c, offeredConns p c → ConnTold conns p c) :
    Explained infos conns (n.set q { n.nodes q with synced_route_info := s' }) :=
  h.quiet (hup.infos_learned.mono q) (hup.conns_learned.mono q)
    ⟨(h.nodes q).held_infos.learned hup.infos_learned hi, (h.nodes q).held_conns.learned hup.conns_learned hc,
      (h.nodes q).cached⟩

theorem Explained.announce [DecidableEq D] [Inhabited D] (h : Explained infos conns n) {p : PeerId}
    (hid : Identified route p (n.nodes p)) (config : RoutePeerInfo D) (htop : n.infoTop p + 1 < 2 ^ 32) :
    Explained (infos ++ (announced n (.announce p config)).toList) conns (n.step (.announce p config)).2 := by
  have hp : (n.nodes p).my_peer_id = p := hid.ids.1
  show Explained _ _ (n.set p _)
  rcases update_my_peer_info_cases n.now (n.nodes p).my_peer_id (n.nodes p).my_peer_route_id config
    (n.nodes p).synced_route_info with hsame | ⟨hflag, i, hi, hconn, hv, -⟩
  · have hnone : announced n (.announce p config) = none := by
      rw [announced, hsame]
      rfl
    rw [hnone, Option.toList_none, List.append_nil, hsame]
    exact h.quiet (Nat.le_refl _) (Nat.le_refl _) (h.nodes p)
  · have hsome : announced n (.announce p config) = some (p, i.version, body i) := by
      rw [announced, if_pos hflag, hi, AList.lookup_insert, hp]
      rfl
    rw [hp] at hi hv
    have hnext : i.version = n.infoTop p + 1 := hv.trans (Version.inc_eq htop)
    have hself : i.version = heldVersion infoVersion (update_my_peer_info n.now (n.nodes p).my_peer_id
        (n.nodes p).my_peer_route_id config (n.nodes p).synced_route_info).2.peer_infos p := by
      rw [hp, hi, heldVersion_insert, if_pos rfl]
    have hlt : n.infoTop p < i.version := by
      rw [hnext]
      exact Nat.lt_succ_self _
    have hle : ∀ q, n.infoTop q ≤ (n.set p { n.nodes p with synced_route_info := (update_my_peer_info n.now
        (n.nodes p).my_peer_id (n.nodes p).my_peer_route_id config (n.nodes p).synced_route_info).2 }).infoTop q :=
      infoTop_set_le (hlt.le.trans hself.le)
    rw [hsome, Option.toList_some]
    refine h.set (List.subset_append_left _ _) (List.Subset.refl _) ?_ (h.conns_counted.mono ?_) ⟨?_, ?_, ?_⟩
    · refine h.infos_counted.next (body i) hlt ?_ hle
      rw [infoTop_set_self]
      exact hself.le
    · refine connTop_set_le ?_
      show n.connTop p ≤ heldVersion connVersion (update_my_peer_info _ _ _ _ _).2.conn_map p
      rw [hconn]
      exact Nat.le_refl _
    · show Authentic _ _ _ _ (update_my_peer_info _ _ _ _ _).2.peer_infos
      rw [hp, hi]
      refine ((h.nodes p).held_infos.more (List.subset_append_left _ _)).insert (.inr ⟨?_, ?_⟩)
      · show i.version ≠ 0
        omega
      · exact List.mem_append_right infos (List.mem_singleton_self _)
    · show Authentic _ _ _ _ (update_my_peer_info _ _ _ _ _).2.conn_map
      rw [hconn]
      exact (h.nodes p).held_conns
    · exact (h.nodes p).cached

theorem Explained.connect [DecidableEq D] [Inhabited D] (h : Explained infos conns n) {p : PeerId}
    (hid : Identified route p (n.nodes p)) (connected_peers : Finset PeerId) (htop : n.connTop p + 1 < 2 ^ 32) :
    Explained infos (conns ++ (announcedConns n (.connect p connected_peers)).toList)
      (n.step (.connect p connected_peers)).2 := by
  have hp : (n.nodes p).my_peer_id = p := hid.ids.1
  have hfill : Updated n.now (fun _ _ => False) (fun _ _ => False) (n.nodes p).synced_route_info
      (fill_empty_peer_info n.now connected_peers (n.nodes p).synced_route_info) := .fill n.now connected_peers _
  show Explained _ _ (n.set p _)
  rcases update_my_conn_info_cases n.now (n.nodes p).my_peer_id connected_peers (n.nodes p).synced_route_info with
    hsame | ⟨hflag, c, hi, hconn, -, hv, -⟩
  · have hnone : announcedConns n (.connect p connected_peers) = none := by
      rw [announcedConns, hsame]
      rfl
    rw [hnone, Option.toList_none, List.append_nil, hsame]
    exact h.updated hfill (fun _ _ hf => hf.elim) fun _ _ hf => hf.elim
  · have hsome : announcedConns n (.connect p connected_peers) = some (p, c.version, c.connected_peers) := by
      rw [announcedConns, if_pos hflag, hconn, AList.lookup_insert, hp]
      rfl
    rw [hp] at hconn hv
    have hnext : c.version = n.connTop p + 1 := hv.trans (Version.inc_eq htop)
    have hself : c.version = heldVersion connVersion (update_my_conn_info n.now (n.nodes p).my_peer_id connected_peers
        (n.nodes p).synced_route_info).2.conn_map p := by
      rw [hp, hconn, heldVersion_insert, if_pos rfl]
    have hlt : n.connTop p < c.version := by
      rw [hnext]
      exact Nat.lt_succ_self _
    have hle : ∀ q, n.connTop q ≤ (n.set p { n.nodes p with synced_route_info := (update_my_conn_info n.now
        (n.nodes p).my_peer_id connected_peers (n.nodes p).synced_route_info).2 }).connTop q :=
      connTop_set_le (hlt.le.trans hself.le)
    rw [hsome, Option.toList_some]
    refine h.set (List.Subset.refl _) (List.subset_append_left _ _) (h.infos_counted.mono ?_) ?_ ⟨?_, ?_, ?_⟩
    · refine infoTop_set_le ?_
      show n.infoTop p ≤ heldVersion infoVersion (update_my_conn_info _ _ _ _).2.peer_infos p
      rw [hi]
      exact hfill.infos_learned.mono p
    · refine h.conns_counted.next c.connected_peers hlt ?_ hle
      rw [connTop_set_self]
      exact hself.le
    · show Authentic _ _ _ _ (update_my_conn_info _ _ _ _).2.peer_infos
      rw [hi]
      exact (h.nodes p).held_infos.learned hfill.infos_learned fun _ _ hf => hf.elim
    · show Authentic _ _ _ _ (update_my_conn_info _ _ _ _).2.conn_map
      rw [hp, hconn]
      have hfilled := (h.nodes p).held_conns.learned hfill.conns_learned fun _ _ hf => hf.elim
      refine (hfilled.more (List.subset_append_left _ _)).insert (.inr ⟨?_, ?_⟩)
      · show c.version ≠ 0
        omega
      · exact List.mem_append_right conns (List.mem_singleton_self _)
    · exact (h.nodes p).cached.more (List.subset_append_left _ _)

theorem Explained.forget (h : Explained infos conns n) {p : PeerId} {peer_ids : List PeerId} (hp : p ∉ peer_ids) :
    Explained infos conns
      (n.set p { n.nodes p with synced_route_info := (n.nodes p).synced_route_info.remove_peers peer_ids }) := by
  obtain ⟨hinfos, hconns⟩ := remove_peers_maps peer_ids (n.nodes p).synced_route_info
  refine h.quiet ?_ ?_ ⟨?_, ?_, (h.nodes p).cached⟩
  · show _ ≤ heldVersion infoVersion (remove_peers peer_ids _).peer_infos p
    rw [hinfos, heldVersion, lookup_foldl_erase, if_neg hp]
    exact Nat.le_refl _
  · show _ ≤ heldVersion connVersion (remove_peers peer_ids _).conn_map p
    rw [hconns, heldVersion, lookup_foldl_erase, if_neg hp]
    exact Nat.le_refl _
  · intro q i hi
    change (remove_peers peer_ids _).peer_infos.lookup q = some i at hi
    rw [hinfos, lookup_foldl_erase] at hi
    split_ifs at hi
    exact (h.nodes p).held_infos q i hi
  · intro q c hc
    change (remove_peers peer_ids _).conn_map.lookup q = some c at hc
    rw [hconns, lookup_foldl_erase] at hc
    split_ifs at hc
    exact (h.nodes p).held_conns q c hc

theorem Explained.rebuild (h : Explained infos conns n) {p : PeerId} (reachable : PeerId → Bool) {before : SyncedRouteInfo D}
    (hbefore : before.conn_map = (n.nodes p).synced_route_info.conn_map) :
    Explained infos conns (n.set p ((n.nodes p).update_cached_local_conn_bitmap reachable before)) := by
  unfold PeerRouteServiceImpl.update_cached_local_conn_bitmap
  rw [hbefore]
  split_ifs
  · exact h.quiet (Nat.le_refl _) (Nat.le_refl _)
      ⟨(h.nodes p).held_infos, (h.nodes p).held_conns, rowsTold_build (h.nodes p).held_conns reachable⟩
  · exact h.quiet (Nat.le_refl _) (Nat.le_refl _) (h.nodes p)

theorem explained_start (route : PeerId → Nat) (session_id : PeerId → PeerId → Nat) :
    Explained [] [] (start (D := D) route session_id) := by
  refine ⟨.nil _, .nil _, fun q => ⟨?_, ?_, ?_⟩, ?_⟩
  · rintro p i ⟨⟩
  · rintro p c ⟨⟩
  · rintro rs ⟨⟩ p c hrow
    exact absurd hrow List.not_mem_nil
  · intro c hc
    exact absurd hc List.not_mem_nil

variable [DecidableEq D] [Inhabited D]

theorem Explained.step (h : Explained infos conns n) (hn : Proper route n) (e : NetEvent D) (hok : Regular n e) :
    Explained (infos ++ (announced n e).toList) (conns ++ (announcedConns n e).toList) (n.step e).2 := by
  have hquiet : announced n e = none → announcedConns n e = none → Explained infos conns (n.step e).2 →
      Explained (infos ++ (announced n e).toList) (conns ++ (announcedConns n e).toList) (n.step e).2 := by
    intro hi hc h'
    rw [hi, hc, Option.toList_none, Option.toList_none, List.append_nil, List.append_nil]
    exact h'
  cases e with
  | announce p config =>
    rw [show announcedConns n (.announce p config) = none from rfl, Option.toList_none, List.append_nil]
    exact h.announce (hn.nodes p) config hok
  | connect p connected_peers =>
    rw [show announced n (.connect p connected_peers) = none from rfl, Option.toList_none, List.append_nil]
    exact h.connect (hn.nodes p) connected_peers hok
  | forget p peer_ids => exact hquiet rfl rfl (h.forget hok)
  | rebuild p reachable before => exact hquiet rfl rfl (h.rebuild reachable hok)
  | sync p dst reachable need_sync =>
    have hset := h.set_session p dst ((n.nodes p).build_sync_request reachable dst).2
    refine hquiet rfl rfl ⟨hset.infos_counted, hset.conns_counted, hset.nodes, ?_⟩
    intro c hc
    rcases List.mem_append.mp hc with hold | hnew
    · exact h.calls c hold
    · obtain ⟨request, hreq, rfl⟩ := Option.map_eq_some_iff.mp (Option.mem_toList.mp hnew)
      change (if _ then none else some _) = some request at hreq
      split_ifs at hreq
      cases hreq
      exact (h.nodes p).called (hn.nodes p) reachable dst
  | deliver i sender cidr_is_subset_str =>
    refine hquiet rfl rfl ?_
    have hsender : sender = .admin := hok
    subst hsender
    rw [Net.step]
    cases hi : n.calls[i]? with
    | none => exact h
    | some c =>
      have hc := List.mem_of_getElem? hi
      have hcall := h.calls c hc
      obtain ⟨s', hrun, hup, -, -⟩ := (hn.nodes c.dst_peer_id).delivered (hn.calls c hc) n.now
        (show PeerRouteServiceImpl.taken cidr_is_subset_str c.request .admin = some c.request from rfl)
      dsimp only
      rw [hrun]
      have hset := h.updated hup (fun _ _ => hcall.offered_infos) fun _ _ => hcall.offered_conns
      have hheard := hset.set_session c.dst_peer_id c.request.my_peer_id
        (PeerRouteServiceImpl.heard c.request ((n.nodes c.dst_peer_id).sessions c.request.my_peer_id))
      rw [set_nodes_self, set_set] at hheard
      exact ⟨hheard.infos_counted, hheard.conns_counted, hheard.nodes, hheard.calls⟩
  | answer i =>
    refine hquiet rfl rfl ?_
    rw [Net.step]
    cases n.answers[i]? with
    | none => exact h
    | some a =>
      dsimp only
      split_ifs
      · exact h.set_session _ _ _
      · exact h
  | clean p dst expired_info expired_conn => exact hquiet rfl rfl (h.set_session _ _ _)
  | renew p dst session_id => exact hquiet rfl rfl (h.set_session _ _ _)
  | clock now => exact hquiet rfl rfl ⟨h.infos_counted, h.conns_counted, h.nodes, h.calls⟩

/-! ## Runs -/

theorem explained_run : ∀ (events : List (NetEvent D)) {n : Net D} {infos : List (PeerId × Nat × RoutePeerInfo D)}
    {conns : List (PeerId × Nat × Finset PeerId)}, Explained infos conns n → Proper route n → Along Regular step n events →
    Explained (infos ++ announcements n events) (conns ++ connAnnouncements n events) (reached step n events)
  | [], _, infos, conns, h, _, _ => by
    rw [announcements, connAnnouncements, passed, passed, List.append_nil, List.append_nil]
    exact h
  | e :: events, n, infos, conns, h, hn, hok => by
    have hrest := explained_run events (h.step hn e hok.1) (hn.step e hok.1.keeps).1 hok.2
    rw [List.append_assoc, List.append_assoc] at hrest
    exact hrest

theorem explained_of_run (route : PeerId → Nat) (session_id : PeerId → PeerId → Nat) (events : List (NetEvent D))
    (hok : Along Regular step (start route session_id) events) :
    Explained (announcements (start route session_id) events) (connAnnouncements (start route session_id) events)
      (reached step (start route session_id) events) :=
  explained_run events (explained_start route session_id) (proper_start route session_id) hok

theorem proper_of_run (route : PeerId → Nat) (session_id : PeerId → PeerId → Nat) (events : List (NetEvent D))
    (hok : Along Regular step (start route session_id) events) :
    Proper route (reached step (start route session_id) events) := by
  have hstep : ∀ n e, Proper route n → Regular n e → Proper route (n.step e).2 :=
    fun (n : Net D) e hn hok => (hn.step e hok.keeps).1
  exact Along.keeps hstep events _ (proper_start route session_id) hok

/-- Whatever the calls do on their way, what a peer holds of another at a version is what that one announced at it, and it
announced nothing else at that version. No peer is ahead of the owner. -/
theorem held_as_announced (route : PeerId → Nat) (session_id : PeerId → PeerId → Nat) (events : List (NetEvent D))
    (hok : Along Regular step (start route session_id) events) :
    let n := reached step (start route session_id) events
    let infos := announcements (start route session_id) events
    let conns := connAnnouncements (start route session_id) events
    (infos.Pairwise fun a b => a.1 = b.1 → a.2.1 < b.2.1) ∧ (conns.Pairwise fun a b => a.1 = b.1 → a.2.1 < b.2.1) ∧
      (∀ q p i, (n.nodes q).synced_route_info.peer_infos.lookup p = some i → i.version ≠ 0 →
        (p, i.version, body i) ∈ infos ∧ i.version ≤ n.infoTop p ∧ i.peer_id = p ∧ i.peer_route_id = route p) ∧
      ∀ q p c, (n.nodes q).synced_route_info.conn_map.lookup p = some c → c.version ≠ 0 →
        (p, c.version, c.connected_peers) ∈ conns ∧ c.version ≤ n.connTop p := by
  intro n infos conns
  have h := explained_of_run route session_id events hok
  have hn := proper_of_run route session_id events hok
  refine ⟨h.infos_counted.up, h.conns_counted.up, ?_, ?_⟩
  · intro q p i hi h0
    have hsaid := ((h.nodes q).held_infos p i hi).resolve_left fun hb => h0 hb.1
    have hids := ((hn.nodes q).infos p i hi).resolve_left fun hb => h0 hb.1
    exact ⟨hsaid.2, h.infos_counted.le p _ _ hsaid.2, hids.1, hids.2⟩
  · intro q p c hc h0
    have hsaid := ((h.nodes q).held_conns p c hc).resolve_left h0
    exact ⟨hsaid.2, h.conns_counted.le p _ _ hsaid.2⟩

def aboutMe : RoutePeerInfo Unit := RoutePeerInfo.new

def noOneKnown : Net Unit := start (fun p => p) fun _ _ => 7

/-- Peer 1 announces itself and tells peer 2. -/
def firstSync : List (NetEvent Unit) :=
  [.announce 1 aboutMe,
    .rebuild 1 (fun _ => true) ((noOneKnown.step (.announce 1 aboutMe)).2.nodes 1).synced_route_info,
    .sync 1 2 (fun _ => true) false, .deliver 0 .admin fun _ _ => false, .answer 0]

theorem regular_first_sync : Along Regular step noOneKnown firstSync :=
  ⟨(by decide : 0 + 1 < 2 ^ 32), rfl, (by decide : (1 : Nat) ≠ 0), rfl, trivial, trivial⟩

theorem held_of_first_sync : ∃ i, ((reached step noOneKnown firstSync).nodes 2).synced_route_info.peer_infos.lookup 1 = some i ∧
    (1, 1, body i) ∈ announcements noOneKnown firstSync := by
  obtain ⟨-, -, h, -⟩ := held_as_announced (fun p => p) (fun _ _ => 7) firstSync regular_first_sync
  exact ⟨{ aboutMe with peer_id := 1, peer_route_id := 1, version := 1, last_update := some 0 }, rfl,
    (h 2 1 _ rfl Nat.one_ne_zero).1⟩

/-- No peer is ever taken for another: no step of a run panics, and none refuses what it is sent, but from a sender
whose credential nobody has announced. -/
theorem no_fault (route : PeerId → Nat) (session_id : PeerId → PeerId → Nat) (events : List (NetEvent D))
    (hok : Along Keeps step (start route session_id) events) :
    ∀ fault ∈ passed step (start route session_id) events, fault = .Stopped ∧
      ∃ call cidr_is_subset_str, NetEvent.deliver call (.credential none) cidr_is_subset_str ∈ events := by
  intro fault hfault
  have hstep : ∀ n e, Proper route n → Keeps n e → Proper route (n.step e).2 ∧ ∀ fault, (n.step e).1 = some fault →
      fault = .Stopped ∧ ∃ call cidr_is_subset_str, e = .deliver call (.credential none) cidr_is_subset_str :=
    fun (n : Net D) e hn hok => hn.step e hok
  obtain ⟨e, he, hstopped, call, cidr_is_subset_str, rfl⟩ :=
    Along.passes hstep events _ (proper_start route session_id) hok fault hfault
  exact ⟨hstopped, call, cidr_is_subset_str, he⟩

theorem no_fault_of_first_sync : passed step noOneKnown firstSync = [] := by
  have hkeeps : Along Keeps step noOneKnown firstSync :=
    ⟨trivial, trivial, (by decide : (1 : Nat) ≠ 0), trivial, trivial, trivial⟩
  refine List.eq_nil_iff_forall_not_mem.mpr ?_
  intro fault hfault
  obtain ⟨-, call, cidr_is_subset_str, hmem⟩ := no_fault (fun p => p) (fun _ _ => 7) firstSync hkeeps fault hfault
  simp [firstSync] at hmem

end Explaining

end Net

end EasyTierHost.Peers
