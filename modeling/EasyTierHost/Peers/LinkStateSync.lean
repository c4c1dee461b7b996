import EasyTierHost.Peers.LinkState

/- Nothing is lost between two peers that sync (peers/peer_ospf_route.rs). A session does not
   look at entries older than the last sync that went through, drops what it knows of the
   other side when that is a minute old, and puts off what cannot be reached. Still, what one
   peer holds and can reach is with the other, at that version or above, or is in its next
   call, as long as the other forgets nobody. -/
namespace EasyTierHost.Peers
open Effects SyncedRouteInfo

namespace SyncRouteSession
variable {D : Type}

/-! ## What a request offers -/

def offersInfo (request : SyncRouteInfoRequest D) (p : PeerId) (version : Nat) : Prop :=
  ∃ i ∈ request.peer_infos.getD [], i.peer_id = p ∧ i.version = version

def offersConn (request : SyncRouteInfoRequest D) (p : PeerId) (version : Nat) : Prop :=
  ∃ ci, request.conn_info = some ci ∧ ⟨p, version⟩ ∈ connVersions ci

/-- All it offers is there. -/
def Arrived (request : SyncRouteInfoRequest D) (hasInfo hasConn : PeerId → Nat) : Prop :=
  (∀ p v, offersInfo request p v → v ≤ hasInfo p) ∧ ∀ p v, offersConn request p v → v ≤ hasConn p

theorem Arrived.mono {request : SyncRouteInfoRequest D} {hasInfo hasInfo' hasConn hasConn' : PeerId → Nat}
    (h : Arrived request hasInfo hasConn) (hi : ∀ p, hasInfo p ≤ hasInfo' p) (hc : ∀ p, hasConn p ≤ hasConn' p) :
    Arrived request hasInfo' hasConn' :=
  ⟨fun p v hv => (h.1 p v hv).trans (hi p), fun p v hv => (h.2 p v hv).trans (hc p)⟩

/-! ## The record of one session -/

/-- The record is right about both kinds of entries; `pending` are the calls that may still be answered. -/
structure Right (now : Nat) (s : SyncedRouteInfo D) (hasInfo hasConn : PeerId → Nat) (session : SyncRouteSession)
    (pending : SyncRouteInfoRequest D → Nat → Prop) : Prop where
  infos : Tracked infoVersion infoWritten now s.peer_infos hasInfo session.dst_saved_peer_info_versions
    session.unreachable_peers_for_peer_info session.last_sync_succ_timestamp
    fun offered t => ∃ request, pending request t ∧ offered = offersInfo request
  conns : Tracked connVersion connWritten now s.conn_map hasConn session.dst_saved_conn_info_version
    session.unreachable_peers_for_conn_info session.last_sync_succ_timestamp
    fun offered t => ∃ request, pending request t ∧ offered = offersConn request

theorem update_dst_saved_le {dst : PeerId} {has : PeerId → Nat} : ∀ {items : List PeerIdVersion}
    {saved : AList (fun _ : PeerId => Nat)}, (∀ p w, saved.lookup p = some w → w ≤ has p) →
    (∀ x ∈ items, x.version ≤ has x.peer_id) → ∀ p w, (update_dst_saved dst items saved).lookup p = some w → w ≤ has p
  | [], _, hs, _ => hs
  | x :: items, saved, hs, hx => by
    unfold update_dst_saved
    rw [List.foldl_cons]
    refine update_dst_saved_le ?_ fun y hy => hx y (List.mem_cons_of_mem x hy)
    intro p w hw
    split_ifs at hw
    · exact hs p w hw
    · by_cases hp : p = x.peer_id
      · subst hp
        rw [AList.lookup_insert] at hw
        cases hw
        refine max_le ?_ (hx x List.mem_cons_self)
        cases hold : saved.lookup x.peer_id with
        | none => exact Nat.zero_le _
        | some old => exact hs _ old hold
      · rw [AList.lookup_insert_ne hp] at hw
        exact hs p w hw

/-- A new session id of the other side finds nobody put off. -/
def Acquainted (session : SyncRouteSession) (session_id : Nat) : Prop :=
  session_id = session.dst_session_id ∨
    (session.unreachable_peers_for_peer_info = ∅ ∧ session.unreachable_peers_for_conn_info = ∅)

namespace Right
variable {now now' : Nat} {s s' : SyncedRouteInfo D} {hasInfo hasInfo' hasConn hasConn' : PeerId → Nat}
  {session : SyncRouteSession} {pending pending' : SyncRouteInfoRequest D → Nat → Prop}

theorem writes (h : Right now s hasInfo hasConn session pending) (hnow : now ≤ now')
    (hinfos : Writes infoWritten now' s.peer_infos s'.peer_infos) (hconns : Writes connWritten now' s.conn_map s'.conn_map)
    (hi : ∀ p, hasInfo p ≤ hasInfo' p) (hc : ∀ p, hasConn p ≤ hasConn' p) :
    Right now' s' hasInfo' hasConn' session pending :=
  ⟨h.infos.writes hnow hinfos hi, h.conns.writes hnow hconns hc⟩

theorem fewer (h : Right now s hasInfo hasConn session pending) (hsub : ∀ r t, pending' r t → pending r t) :
    Right now s hasInfo hasConn session pending' :=
  ⟨h.infos.fewer fun _ t ⟨r, hr, ho⟩ => ⟨r, hsub r t hr, ho⟩, h.conns.fewer fun _ t ⟨r, hr, ho⟩ => ⟨r, hsub r t hr, ho⟩⟩

theorem new (h : Right now s hasInfo hasConn session pending) (hnone : ∀ r t, ¬ pending' r t) (dst session_id : Nat) :
    Right now s hasInfo hasConn (.new dst session_id) pending' :=
  ⟨h.infos.drop fun _ t ⟨r, hr, _⟩ => absurd hr (hnone r t), h.conns.drop fun _ t ⟨r, hr, _⟩ => absurd hr (hnone r t)⟩

theorem update_dst_session_id (h : Right now s hasInfo hasConn session pending) {session_id : Nat}
    (hid : Acquainted session session_id) : Right now s hasInfo hasConn (session.update_dst_session_id session_id) pending := by
  unfold SyncRouteSession.update_dst_session_id
  split_ifs with hne
  · obtain ⟨hi, hc⟩ := hid.resolve_left hne
    exact ⟨h.infos.drop fun _ _ hp => ⟨hp, hi⟩, h.conns.drop fun _ _ hp => ⟨hp, hc⟩⟩
  · exact h


theorem update_dst_saved_peer_info (h : Right now s hasInfo hasConn session pending) {l : List (RoutePeerInfo D)}
    (hl : ∀ i ∈ l, i.version ≤ hasInfo i.peer_id) (dst : PeerId) :
    Right now s hasInfo hasConn (session.update_dst_saved_peer_info_version l dst) pending := by
  refine ⟨h.infos.save (update_dst_saved_le h.infos.saved_le ?_), h.conns⟩
  intro x hx
  obtain ⟨i, hi, rfl⟩ := List.mem_map.mp hx
  exact hl i hi

theorem update_dst_saved_conn_info (h : Right now s hasInfo hasConn session pending) {ci : ConnInfo}
    (hci : ∀ x ∈ connVersions ci, x.version ≤ hasConn x.peer_id) (dst : PeerId) :
    Right now s hasInfo hasConn (session.update_dst_saved_conn_info_version ci dst) pending :=
  ⟨h.infos, h.conns.save (update_dst_saved_le h.conns.saved_le hci)⟩

theorem clean_dst_saved_map (h : Right now s hasInfo hasConn session pending) (expired_info expired_conn : PeerId → Bool) :
    Right now s hasInfo hasConn (session.clean_dst_saved_map expired_info expired_conn) pending := by
  refine ⟨h.infos.save ?_, h.conns.save ?_⟩
  · intro p w hw
    change (retain _ _).lookup p = some w at hw
    rw [lookup_retain, Option.filter_eq_some_iff] at hw
    exact h.infos.saved_le p w hw.1
  · intro p w hw
    change (retain _ _).lookup p = some w at hw
    rw [lookup_retain, Option.filter_eq_some_iff] at hw
    exact h.conns.saved_le p w hw.1

/-- The other side calls. -/
theorem heard (h : Right now s hasInfo hasConn session pending) {request : SyncRouteInfoRequest D}
    (hid : Acquainted session request.my_session_id) (hcame : Arrived request hasInfo hasConn) :
    Right now s hasInfo hasConn (PeerRouteServiceImpl.heard request session) pending := by
  have hinfos := (h.update_dst_session_id hid).update_dst_saved_peer_info
    (fun i hi => hcame.1 _ _ ⟨i, hi, rfl, rfl⟩) request.my_peer_id
  unfold PeerRouteServiceImpl.heard
  cases hci : request.conn_info with
  | none => exact hinfos
  | some ci => exact hinfos.update_dst_saved_conn_info (fun x hx => hcame.2 _ _ ⟨ci, hci, hx⟩) request.my_peer_id

/-- The other side answers a call that is pending. -/
theorem synced (h : Right now s hasInfo hasConn session pending) {request : SyncRouteInfoRequest D} {t session_id : Nat}
    (hid : Acquainted session session_id) (hp : pending request t) (hcame : Arrived request hasInfo hasConn) :
    Right now s hasInfo hasConn (PeerRouteServiceImpl.synced request t session_id session) pending := by
  have hlast : ∀ session, Right now s hasInfo hasConn session pending →
      Right now s hasInfo hasConn (session.update_last_sync_succ_timestamp t) pending := fun session h =>
    ⟨h.infos.confirm ⟨request, hp, rfl⟩ hcame.1, h.conns.confirm ⟨request, hp, rfl⟩ hcame.2⟩
  unfold PeerRouteServiceImpl.synced
  refine hlast _ ?_
  have hnew := h.update_dst_session_id hid
  cases hl : request.peer_infos with
  | none =>
    cases hci : request.conn_info with
    | none => exact hnew
    | some ci => exact hnew.update_dst_saved_conn_info (fun x hx => hcame.2 _ _ ⟨ci, hci, hx⟩) _
  | some l =>
    have hinfos : ∀ saver, Right now s hasInfo hasConn
        ((session.update_dst_session_id session_id).update_dst_saved_peer_info_version l saver) pending := by
      refine hnew.update_dst_saved_peer_info fun i hi => hcame.1 _ _ ⟨i, ?_, rfl, rfl⟩
      rw [hl]
      exact hi
    cases hci : request.conn_info with
    | none => exact hinfos _
    | some ci => exact (hinfos _).update_dst_saved_conn_info (fun x hx => hcame.2 _ _ ⟨ci, hci, hx⟩) _

end Right

/-! ## Building a request -/

/-- What the entries of a peer say of themselves and of the other side. -/
structure Sane (dst : PeerId) (s : SyncedRouteInfo D) (hasInfo hasConn : PeerId → Nat) : Prop where
  key : ∀ p i, s.peer_infos.lookup p = some i → i.version = 0 ∨ i.peer_id = p
  info : ∀ i, s.peer_infos.lookup dst = some i → i.version ≤ hasInfo dst
  conn : ∀ c, s.conn_map.lookup dst = some c → c.version ≤ hasConn dst

section Building
variable {now : Nat} {s : SyncedRouteInfo D} {hasInfo hasConn : PeerId → Nat} {session : SyncRouteSession}
  {pending : SyncRouteInfoRequest D → Nat → Prop}

theorem le_of_check_saved {has : PeerId → Nat} {saved : AList (fun _ : PeerId => Nat)} {dst p : PeerId} {v w : Nat}
    (hsaved : ∀ p w, saved.lookup p = some w → w ≤ has p) (hdst : p = dst → v ≤ has dst)
    (h : check_saved saved dst p w = true) (hvw : v ≤ w) : v ≤ has p := by
  unfold check_saved at h
  rw [Bool.or_eq_true, Bool.or_eq_true] at h
  rcases h with (h0 | hp) | hany
  · have h0' : w = 0 := of_decide_eq_true h0
    omega
  · have hp' : p = dst := of_decide_eq_true hp
    rw [hp']
    exact hdst hp'
  · cases hu : saved.lookup p with
    | none => rw [hu] at hany; cases hany
    | some u =>
      rw [hu] at hany
      have hwu : w ≤ u := of_decide_eq_true hany
      exact hvw.trans (hwu.trans (hsaved p u hu))

theorem Right.settles_infos (h : Right now s hasInfo hasConn session pending) (hs : Sane session.dst_peer_id s hasInfo hasConn) :
    Settles infoVersion (fun _ info => session.check_saved_peer_info_update_to_date info.peer_id info.version)
      session.check_saved_peer_info_update_to_date s.peer_infos hasInfo where
  entry := by
    intro p i hi hcheck
    rcases hs.key p i hi with h0 | hp
    · show i.version ≤ _
      rw [h0]
      exact Nat.zero_le _
    · rw [hp] at hcheck
      refine le_of_check_saved h.infos.saved_le (fun hdst => ?_) hcheck (Nat.le_refl _)
      subst hdst
      exact hs.info i hi
  putOff := by
    intro p i w hi hcheck hle
    refine le_of_check_saved h.infos.saved_le (fun hdst => ?_) hcheck hle
    subst hdst
    exact hs.info i hi

theorem Right.settles_conns (h : Right now s hasInfo hasConn session pending) (hs : Sane session.dst_peer_id s hasInfo hasConn) :
    Settles connVersion (fun p c => session.check_saved_conn_version_update_to_date p c.version)
      session.check_saved_conn_version_update_to_date s.conn_map hasConn where
  entry := by
    intro p c hc hcheck
    refine le_of_check_saved h.conns.saved_le (fun hdst => ?_) hcheck (Nat.le_refl _)
    subst hdst
    exact hs.conn c hc
  putOff := by
    intro p c w hc hcheck hle
    refine le_of_check_saved h.conns.saved_le (fun hdst => ?_) hcheck hle
    subst hdst
    exact hs.conn c hc

/-- A bitmap, if one is sent, has a row for everyone who can be reached, with the version and the connections of now. -/
def UpToDate (reachable : PeerId → Bool) (s : SyncedRouteInfo D) (conn_info : Option ConnInfo) : Prop :=
  ∀ b, conn_info = some (.ConnBitmap b) → ∀ p c, s.conn_map.lookup p = some c → reachable p = true →
    ∃ i : Nat, b.peer_ids[i]? = some ⟨p, c.version⟩ ∧ b.get_connected_peers i = some c.connected_peers

theorem Right.build {n : PeerRouteServiceImpl D} {dst : PeerId} {pending' : SyncRouteInfoRequest D → Nat → Prop}
    (h : Right now n.synced_route_info hasInfo hasConn (n.sessions dst) pending)
    (hs : Sane (n.sessions dst).dst_peer_id n.synced_route_info hasInfo hasConn) (reachable : PeerId → Bool)
    (hup : UpToDate reachable n.synced_route_info (n.build_sync_request reachable dst).1.conn_info)
    (hp : ∀ r t, pending' r t → pending r t ∨ (r = (n.build_sync_request reachable dst).1 ∧ t = now)) :
    Right now n.synced_route_info hasInfo hasConn (n.build_sync_request reachable dst).2 pending' := by
  constructor
  · refine h.infos.pass reachable (offersInfo (n.build_sync_request reachable dst).1) (h.settles_infos hs) ?_ ?_
    · intro p i hi
      rcases hs.key p i (lookup_of_offer hi) with h0 | hpid
      · left
        show i.version ≤ _
        rw [h0]
        exact Nat.zero_le _
      · refine .inr ⟨i.version, ⟨i, ?_, hpid, rfl⟩, Nat.le_refl _⟩
        show i ∈ ((PeerRouteServiceImpl.build_route_info reachable n.synced_route_info (n.sessions dst)).1).getD []
        rw [PeerRouteServiceImpl.build_route_info_infos]
        exact List.mem_map.mpr ⟨_, hi, rfl⟩
    · rintro offered t ⟨r, hr, rfl⟩
      rcases hp r t hr with hold | ⟨rfl, rfl⟩
      · exact .inl ⟨r, hold, rfl⟩
      · exact .inr ⟨rfl, rfl⟩
  · refine h.conns.pass reachable (offersConn (n.build_sync_request reachable dst).1) (h.settles_conns hs) ?_ ?_
    · intro p c hc
      rcases PeerRouteServiceImpl.build_conn_info_cases reachable dst
        (PeerRouteServiceImpl.build_route_info reachable n.synced_route_info (n.sessions dst)).2 n with
        ⟨hnil, -⟩ | hlist | hbitmap
      · have hc' : Sigma.mk p c ∈ (PeerRouteServiceImpl.offer_conn_info reachable n.synced_route_info
            (PeerRouteServiceImpl.build_route_info reachable n.synced_route_info (n.sessions dst)).2).1 := hc
        rw [hnil] at hc'
        exact absurd hc' List.not_mem_nil
      · refine .inr ⟨c.version, ⟨_, hlist, ?_⟩, Nat.le_refl _⟩
        exact List.mem_filterMap.mpr ⟨_, List.mem_map.mpr ⟨_, hc, rfl⟩, rfl⟩
      · obtain ⟨i, hi, -⟩ := hup _ hbitmap p c (lookup_of_offer hc) (ready_of_offer hc)
        exact .inr ⟨c.version, ⟨_, hbitmap, List.mem_of_getElem? hi⟩, Nat.le_refl _⟩
    · rintro offered t ⟨r, hr, rfl⟩
      rcases hp r t hr with hold | ⟨rfl, rfl⟩
      · exact .inl ⟨r, hold, rfl⟩
      · exact .inr ⟨rfl, rfl⟩

end Building

end SyncRouteSession

namespace Net
open SyncRouteSession
variable {D : Type} {route : PeerId → Nat} {a b : PeerId} {n : Net D}
  {infos : List (PeerId × Nat × RoutePeerInfo D)} {conns : List (PeerId × Nat × Finset PeerId)}

/-! ## Two peers of a network -/

def hasInfo (n : Net D) (q : PeerId) : PeerId → Nat := heldVersion infoVersion (n.nodes q).synced_route_info.peer_infos

def hasConn (n : Net D) (q : PeerId) : PeerId → Nat := heldVersion connVersion (n.nodes q).synced_route_info.conn_map

/-- The calls `a` has made to `b` in the session it is in. -/
def Pending (n : Net D) (a b : PeerId) (request : SyncRouteInfoRequest D) (t : Nat) : Prop :=
  ∃ c ∈ n.calls, c.request = request ∧ c.next_last_sync_succ_timestamp = t ∧ c.dst_peer_id = b ∧
    request.my_peer_id = a ∧ request.my_session_id = ((n.nodes a).sessions b).my_session_id

/-- What `a` knows of `b` is right, and what is on its way between them is where it comes from. -/
structure Linked (a b : PeerId) (n : Net D) : Prop where
  dst : ((n.nodes a).sessions b).dst_peer_id = b
  right : Right n.now (n.nodes a).synced_route_info (n.hasInfo b) (n.hasConn b) ((n.nodes a).sessions b) (n.Pending a b)
  cached : ∀ x ∈ (n.nodes b).cached_local_conn_map.peer_ids, x.version ≤ n.hasConn b x.peer_id
  called : ∀ c ∈ n.calls, c.request.my_peer_id = b → Arrived c.request (n.hasInfo b) (n.hasConn b)
  answered : ∀ x ∈ n.answers, x.1 ∈ n.calls ∧
    (x.1.dst_peer_id = b → Arrived x.1.request (n.hasInfo b) (n.hasConn b))

/-- The steps of a regular run in which `b` forgets nobody, bitmaps `a` sends to `b` are up to date, session ids are new,
a change of the session id of `b` finds nobody put off by `a`, and the clock does not go back. -/
def Orderly (a b : PeerId) (n : Net D) (e : NetEvent D) : Prop :=
  Regular n e ∧
    match e with
    | .forget p _ => p ≠ b
    | .sync p dst reachable _ => p = a → dst = b → UpToDate reachable (n.nodes a).synced_route_info
        ((n.nodes a).build_sync_request reachable b).1.conn_info
    | .deliver i _ _ => ∀ c, n.calls[i]? = some c → c.request.my_peer_id = b → c.dst_peer_id = a →
        Acquainted ((n.nodes a).sessions b) c.request.my_session_id
    | .answer i => ∀ c session_id, n.answers[i]? = some (c, session_id) → c.request.my_peer_id = a → c.dst_peer_id = b →
        Acquainted ((n.nodes a).sessions b) session_id
    | .renew p dst session_id => p = a → dst = b → ∀ c ∈ n.calls, c.request.my_session_id ≠ session_id
    | .clock now => n.now ≤ now
    | _ => True

/-- A peer writes its maps: whatever it is for `a`, upwards only for `b`. -/
theorem Linked.wrote (h : Linked a b n) {q : PeerId} {s' : SyncedRouteInfo D}
    (hinfos : Writes infoWritten n.now (n.nodes q).synced_route_info.peer_infos s'.peer_infos)
    (hconns : Writes connWritten n.now (n.nodes q).synced_route_info.conn_map s'.conn_map)
    (hi : q = b → ∀ p, n.hasInfo b p ≤ heldVersion infoVersion s'.peer_infos p)
    (hc : q = b → ∀ p, n.hasConn b p ≤ heldVersion connVersion s'.conn_map p) :
    Linked a b (n.set q { n.nodes q with synced_route_info := s' }) := by
  have hsession : ((n.set q { n.nodes q with synced_route_info := s' }).nodes a).sessions = (n.nodes a).sessions := by
    by_cases hq : a = q
    · subst hq
      rw [set_nodes_self]
    · rw [set_nodes_of_ne n hq]
  have hcached : ((n.set q { n.nodes q with synced_route_info := s' }).nodes b).cached_local_conn_map =
      (n.nodes b).cached_local_conn_map := by
    by_cases hq : b = q
    · subst hq
      rw [set_nodes_self]
    · rw [set_nodes_of_ne n hq]
  have hi' : ∀ p, n.hasInfo b p ≤ (n.set q { n.nodes q with synced_route_info := s' }).hasInfo b p := by
    intro p
    unfold hasInfo
    by_cases hq : b = q
    · subst hq
      rw [set_nodes_self]
      exact hi rfl p
    · rw [set_nodes_of_ne n hq]
  have hc' : ∀ p, n.hasConn b p ≤ (n.set q { n.nodes q with synced_route_info := s' }).hasConn b p := by
    intro p
    unfold hasConn
    by_cases hq : b = q
    · subst hq
      rw [set_nodes_self]
      exact hc rfl p
    · rw [set_nodes_of_ne n hq]
  refine ⟨?_, ?_, ?_, ?_, ?_⟩
  · rw [hsession]
    exact h.dst
  · rw [hsession]
    have hpending : ∀ r t, (n.set q { n.nodes q with synced_route_info := s' }).Pending a b r t → n.Pending a b r t := by
      rintro r t ⟨c, hc, rfl, rfl, hd, hm, hs⟩
      rw [hsession] at hs
      exact ⟨c, hc, rfl, rfl, hd, hm, hs⟩
    refine (h.right.writes (Nat.le_refl _) ?_ ?_ hi' hc').fewer hpending
    · by_cases hq : a = q
      · subst hq
        rw [set_nodes_self]
        exact hinfos
      · rw [set_nodes_of_ne n hq]
        exact .refl
    · by_cases hq : a = q
      · subst hq
        rw [set_nodes_self]
        exact hconns
      · rw [set_nodes_of_ne n hq]
        exact .refl
  · rw [hcached]
    exact fun x hx => (h.cached x hx).trans (hc' x.peer_id)
  · exact fun c hcall hm => (h.called c hcall hm).mono hi' hc'
  · exact fun x hx => ⟨(h.answered x hx).1, fun hd => ((h.answered x hx).2 hd).mono hi' hc'⟩

/-- A peer changes what it keeps of another, and may call it. -/
theorem Linked.recorded (h : Linked a b n) (q dst : PeerId) (session : SyncRouteSession) (calls' : List (Call D))
    (hsub : ∀ c ∈ n.calls, c ∈ calls')
    (hnew : ∀ c ∈ calls', c ∈ n.calls ∨ (c.request.my_peer_id = q ∧ c.dst_peer_id = dst ∧
      (q = b → Arrived c.request (n.hasInfo b) (n.hasConn b))))
    (hright : q = a → dst = b → session.dst_peer_id = b ∧ ∀ pending : SyncRouteInfoRequest D → Nat → Prop,
      (∀ r t, pending r t → ∃ c ∈ calls', c.request = r ∧ c.next_last_sync_succ_timestamp = t ∧ c.dst_peer_id = b ∧
        r.my_peer_id = a ∧ r.my_session_id = session.my_session_id) →
      Right n.now (n.nodes a).synced_route_info (n.hasInfo b) (n.hasConn b) session pending) :
    Linked a b { n.set q ((n.nodes q).set_session dst session) with calls := calls' } := by
  set n' : Net D := { n.set q ((n.nodes q).set_session dst session) with calls := calls' } with hn'
  have hb : (n'.nodes b).synced_route_info = (n.nodes b).synced_route_info ∧
      (n'.nodes b).cached_local_conn_map = (n.nodes b).cached_local_conn_map := by
    show ((n.set q _).nodes b).synced_route_info = _ ∧ ((n.set q _).nodes b).cached_local_conn_map = _
    by_cases hq : b = q
    · subst hq
      rw [set_nodes_self]
      exact ⟨rfl, rfl⟩
    · rw [set_nodes_of_ne n hq]
      exact ⟨rfl, rfl⟩
  have hi : n'.hasInfo b = n.hasInfo b := by
    unfold hasInfo
    rw [hb.1]
  have hc : n'.hasConn b = n.hasConn b := by
    unfold hasConn
    rw [hb.1]
  have ha : (n'.nodes a).synced_route_info = (n.nodes a).synced_route_info := by
    show ((n.set q _).nodes a).synced_route_info = _
    by_cases hq : a = q
    · subst hq
      rw [set_nodes_self]
      rfl
    · rw [set_nodes_of_ne n hq]
  have hsession : (n'.nodes a).sessions b = if q = a ∧ dst = b then session else (n.nodes a).sessions b := by
    show ((n.set q _).nodes a).sessions b = _
    by_cases hq : a = q
    · subst hq
      rw [set_nodes_self]
      show Function.update (n.nodes a).sessions dst session b = _
      by_cases hd : b = dst
      · subst hd
        rw [Function.update_self, if_pos ⟨rfl, rfl⟩]
      · rw [Function.update_of_ne hd, if_neg (by rintro ⟨-, rfl⟩; exact hd rfl)]
    · rw [set_nodes_of_ne n hq, if_neg (by rintro ⟨rfl, -⟩; exact hq rfl)]
  refine ⟨?_, ?_, ?_, ?_, ?_⟩
  · rw [hsession]
    split_ifs with hqd
    · exact (hright hqd.1 hqd.2).1
    · exact h.dst
  · rw [ha, hi, hc]
    by_cases hqd : q = a ∧ dst = b
    · have hs := hsession
      rw [if_pos hqd] at hs
      rw [hs]
      refine (hright hqd.1 hqd.2).2 _ ?_
      rintro r t ⟨c, hcall, hreq, ht, hd, hm, hsid⟩
      rw [hs] at hsid
      exact ⟨c, hcall, hreq, ht, hd, hm, hsid⟩
    · have hs := hsession
      rw [if_neg hqd] at hs
      rw [hs]
      refine h.right.fewer ?_
      rintro r t ⟨c, hcall, rfl, rfl, hd, hm, hsid⟩
      rw [hs] at hsid
      rcases hnew c hcall with hold | ⟨hq, hdst, -⟩
      · exact ⟨c, hold, rfl, rfl, hd, hm, hsid⟩
      · exact absurd ⟨hq.symm.trans hm, hdst.symm.trans hd⟩ hqd
  · rw [hb.2, hc]
    exact h.cached
  · rw [hi, hc]
    intro c hcall hm
    rcases hnew c hcall with hold | ⟨hq, -, harrived⟩
    · exact h.called c hold hm
    · exact harrived (hq.symm.trans hm)
  · rw [hi, hc]
    exact fun x hx => ⟨hsub _ (h.answered x hx).1, (h.answered x hx).2⟩

/-- A call is answered. -/
theorem Linked.answering (h : Linked a b n) {c : Call D} (hc : c ∈ n.calls) (session_id : Nat)
    (hcame : c.dst_peer_id = b → Arrived c.request (n.hasInfo b) (n.hasConn b)) :
    Linked a b { n with answers := n.answers ++ [(c, session_id)] } := by
  refine ⟨h.dst, h.right, h.cached, h.called, ?_⟩
  intro x hx
  rcases List.mem_append.mp hx with hold | hnew
  · exact h.answered x hold
  · rw [List.mem_singleton.mp hnew]
    exact ⟨hc, hcame⟩

/-! ## What the peers say is sane -/

theorem Genuine.key {p : PeerId} {i : RoutePeerInfo D} (h : Genuine route p i) : i.version = 0 ∨ i.peer_id = p :=
  h.imp (fun hb => hb.1) fun hids => hids.1

theorem sane_of_explained (hp : Proper route n) (hn : Explained infos conns n) (a b : PeerId) :
    Sane b (n.nodes a).synced_route_info (n.hasInfo b) (n.hasConn b) := by
  refine ⟨fun p i hi => Genuine.key ((hp.nodes a).infos p i hi), ?_, ?_⟩
  · exact fun i hi => ((hn.nodes a).held_infos b i hi).le (fun _ hb => hb.1) hn.infos_counted
  · exact fun c hc => ((hn.nodes a).held_conns b c hc).le (fun _ hb => hb) hn.conns_counted

/-- What a peer sends it has itself. -/
theorem arrived_of_build (hp : Proper route n)
    (hcached : ∀ x ∈ (n.nodes b).cached_local_conn_map.peer_ids, x.version ≤ n.hasConn b x.peer_id)
    (reachable : PeerId → Bool) (dst : PeerId) :
    Arrived ((n.nodes b).build_sync_request reachable dst).1 (n.hasInfo b) (n.hasConn b) := by
  constructor
  · rintro p v ⟨i, hi, rfl, rfl⟩
    rw [show ((n.nodes b).build_sync_request reachable dst).1.peer_infos =
      (PeerRouteServiceImpl.build_route_info reachable (n.nodes b).synced_route_info ((n.nodes b).sessions dst)).1 from rfl,
      PeerRouteServiceImpl.build_route_info_infos] at hi
    obtain ⟨e, he, rfl⟩ := List.mem_map.mp hi
    rcases Genuine.key ((hp.nodes b).infos e.1 e.2 (lookup_of_offer he)) with h0 | hkey
    · rw [h0]
      exact Nat.zero_le _
    · rw [hkey]
      exact (heldVersion_of_lookup (lookup_of_offer he)).ge
  · rintro p v ⟨ci, hci, hx⟩
    rcases PeerRouteServiceImpl.build_conn_info_cases reachable dst
      (PeerRouteServiceImpl.build_route_info reachable (n.nodes b).synced_route_info ((n.nodes b).sessions dst)).2
      (n.nodes b) with ⟨-, hnone⟩ | hlist | hbitmap
    · cases hnone.symm.trans hci
    · cases hlist.symm.trans hci
      obtain ⟨y, hy, hyx⟩ := List.mem_filterMap.mp hx
      obtain ⟨e, he, rfl⟩ := List.mem_map.mp hy
      cases hyx
      exact (heldVersion_of_lookup (lookup_of_offer he)).ge
    · cases hbitmap.symm.trans hci
      exact hcached _ hx

/-! ## Runs -/

theorem Linked.grew (h : Linked a b n) {q : PeerId} {s' : SyncedRouteInfo D}
    (hs : Advanced n.now (n.nodes q).synced_route_info s') :
    Linked a b (n.set q { n.nodes q with synced_route_info := s' }) := by
  refine h.wrote hs.infos_written hs.conns_written ?_ ?_
  · rintro rfl
    exact hs.infos_mono
  · rintro rfl
    exact hs.conns_mono

theorem heard_ids (request : SyncRouteInfoRequest D) (session : SyncRouteSession) :
    (PeerRouteServiceImpl.heard request session).my_session_id = session.my_session_id ∧
      (PeerRouteServiceImpl.heard request session).dst_peer_id = session.dst_peer_id := by
  unfold PeerRouteServiceImpl.heard SyncRouteSession.update_dst_session_id
  cases request.conn_info with
  | none =>
    split_ifs
    · exact ⟨rfl, rfl⟩
    · exact ⟨rfl, rfl⟩
  | some ci =>
    split_ifs
    · exact ⟨rfl, rfl⟩
    · exact ⟨rfl, rfl⟩

theorem synced_ids (request : SyncRouteInfoRequest D) (t session_id : Nat) (session : SyncRouteSession) :
    (PeerRouteServiceImpl.synced request t session_id session).my_session_id = session.my_session_id ∧
      (PeerRouteServiceImpl.synced request t session_id session).dst_peer_id = session.dst_peer_id := by
  have hupdate : (session.update_dst_session_id session_id).my_session_id = session.my_session_id ∧
      (session.update_dst_session_id session_id).dst_peer_id = session.dst_peer_id := by
    unfold SyncRouteSession.update_dst_session_id
    split_ifs
    · exact ⟨rfl, rfl⟩
    · exact ⟨rfl, rfl⟩
  unfold PeerRouteServiceImpl.synced
  cases request.peer_infos with
  | none =>
    cases request.conn_info with
    | none => exact hupdate
    | some ci => exact hupdate
  | some l =>
    cases request.conn_info with
    | none => exact hupdate
    | some ci => exact hupdate

section Delivered
variable [Inhabited D]

theorem Linked.delivered (h : Linked a b n) (hp : Proper route n) {c : Call D} (hc : c ∈ n.calls)
    (cidr_is_subset_str : String → String → Bool)
    (hid : c.request.my_peer_id = b → c.dst_peer_id = a → Acquainted ((n.nodes a).sessions b) c.request.my_session_id) :
    let r := (n.nodes c.dst_peer_id).do_sync_route_info n.now cidr_is_subset_str c.request .admin
    r.1 = none ∧ Linked a b { n.set c.dst_peer_id r.2 with
      answers := n.answers ++ [(c, (r.2.sessions c.request.my_peer_id).my_session_id)] } := by
  obtain ⟨s', hrun, hup, hinfos, hconns⟩ := (hp.nodes c.dst_peer_id).delivered (hp.calls c hc) n.now
    (show PeerRouteServiceImpl.taken cidr_is_subset_str c.request .admin = some c.request from rfl)
  dsimp only
  rw [hrun]
  refine ⟨rfl, ?_⟩
  set q := c.dst_peer_id with hq
  -- first the maps, then the record of the caller, then the answer
  have h₁ : Linked a b (n.set q { n.nodes q with synced_route_info := s' }) := h.grew hup.grown
  have h₂ : Linked a b (n.set q ({ n.nodes q with synced_route_info := s' }.set_session c.request.my_peer_id
      (PeerRouteServiceImpl.heard c.request ((n.nodes q).sessions c.request.my_peer_id)))) := by
    have hrec := h₁.recorded q c.request.my_peer_id
      (PeerRouteServiceImpl.heard c.request ((n.nodes q).sessions c.request.my_peer_id)) n.calls (fun _ hc => hc)
      (fun _ hc => .inl hc) ?_
    · rw [set_nodes_self, set_set] at hrec
      exact hrec
    · intro hqa hmb
      have hsession : ((n.set q { n.nodes q with synced_route_info := s' }).nodes a).sessions b =
          (n.nodes q).sessions c.request.my_peer_id := by
        rw [← hqa, set_nodes_self, hmb]
      have hids := heard_ids c.request ((n.nodes q).sessions c.request.my_peer_id)
      refine ⟨?_, ?_⟩
      · rw [hids.2, ← hsession]
        exact h₁.dst
      · intro pending hpending
        have hright := h₁.right
        rw [hsession] at hright
        have hacq : Acquainted ((n.nodes q).sessions c.request.my_peer_id) c.request.my_session_id := by
          rw [hqa, hmb]
          exact hid hmb hqa
        refine (hright.heard hacq (h₁.called c hc hmb)).fewer ?_
        intro r t hp
        obtain ⟨d, hd, hreq, ht, hdst, hm, hsid⟩ := hpending r t hp
        rw [hids.1, ← hsession] at hsid
        exact ⟨d, hd, hreq, ht, hdst, hm, hsid⟩
  refine h₂.answering hc _ ?_
  intro hqb
  have hself : (n.set q ({ n.nodes q with synced_route_info := s' }.set_session c.request.my_peer_id
      (PeerRouteServiceImpl.heard c.request ((n.nodes q).sessions c.request.my_peer_id)))).nodes b =
      { n.nodes q with synced_route_info := s' }.set_session c.request.my_peer_id
        (PeerRouteServiceImpl.heard c.request ((n.nodes q).sessions c.request.my_peer_id)) := by
    rw [← hqb, ← hq, set_nodes_self]
  constructor
  · rintro p v ⟨i, hi, rfl, rfl⟩
    unfold hasInfo
    rw [hself]
    exact hinfos i hi
  · rintro p v ⟨ci, hci, hx⟩
    unfold hasConn
    rw [hself]
    exact hconns ci hci _ hx

end Delivered

/-- A peer has a new bitmap ready. -/
theorem Linked.rebuilt (h : Linked a b n) (p : PeerId) (bitmap : RouteConnBitmap) (version : Nat)
    (hbitmap : p = b → ∀ x ∈ bitmap.peer_ids, x.version ≤ n.hasConn b x.peer_id) :
    Linked a b (n.set p { n.nodes p with cached_local_conn_map := bitmap, cached_local_conn_map_version := version }) := by
  set n' := n.set p { n.nodes p with cached_local_conn_map := bitmap, cached_local_conn_map_version := version } with hn'
  have hsame : ∀ q, (n'.nodes q).synced_route_info = (n.nodes q).synced_route_info ∧
      (n'.nodes q).sessions = (n.nodes q).sessions := by
    intro q
    by_cases hq : q = p
    · subst hq
      rw [hn', set_nodes_self]
      exact ⟨rfl, rfl⟩
    · rw [hn', set_nodes_of_ne n hq]
      exact ⟨rfl, rfl⟩
  have hi : n'.hasInfo b = n.hasInfo b := by
    unfold hasInfo
    rw [(hsame b).1]
  have hc : n'.hasConn b = n.hasConn b := by
    unfold hasConn
    rw [(hsame b).1]
  refine ⟨?_, ?_, ?_, ?_, ?_⟩
  · rw [(hsame a).2]
    exact h.dst
  · rw [(hsame a).1, (hsame a).2, hi, hc]
    refine h.right.fewer ?_
    rintro r t ⟨c, hcall, hreq, ht, hd, hm, hsid⟩
    rw [(hsame a).2] at hsid
    exact ⟨c, hcall, hreq, ht, hd, hm, hsid⟩
  · rw [hc]
    by_cases hp : b = p
    · subst hp
      rw [hn', set_nodes_self]
      exact hbitmap rfl
    · rw [hn', set_nodes_of_ne n hp]
      exact h.cached
  · rw [hi, hc]
    exact h.called
  · rw [hi, hc]
    exact h.answered

/-- A record of `b` that `a` changes rightly. -/
theorem Linked.corrected (h : Linked a b n) (q dst : PeerId) (session : SyncRouteSession)
    (hids : session.my_session_id = ((n.nodes q).sessions dst).my_session_id ∧
      session.dst_peer_id = ((n.nodes q).sessions dst).dst_peer_id)
    (hright : q = a → dst = b → Right n.now (n.nodes a).synced_route_info (n.hasInfo b) (n.hasConn b) session
      (n.Pending a b)) :
    Linked a b (n.set q ((n.nodes q).set_session dst session)) := by
  refine h.recorded q dst session n.calls (fun _ hc => hc) (fun _ hc => .inl hc) ?_
  rintro rfl rfl
  refine ⟨hids.2.trans h.dst, ?_⟩
  intro pending hpending
  refine (hright rfl rfl).fewer ?_
  intro r t hp
  obtain ⟨c, hc, hreq, ht, hd, hm, hsid⟩ := hpending r t hp
  exact ⟨c, hc, hreq, ht, hd, hm, hsid.trans hids.1⟩

/-- What a sync adds to the calls. -/
theorem mem_called {node : PeerRouteServiceImpl D} {reachable : PeerId → Bool} {need_sync : Bool} {dst : PeerId} {now : Nat}
    {c : Call D} (hc : c ∈ (((node.sync_route_with_peer reachable need_sync dst).1).map (Call.mk dst · now)).toList) :
    c.request = (node.build_sync_request reachable dst).1 ∧ c.dst_peer_id = dst ∧ c.next_last_sync_succ_timestamp = now := by
  obtain ⟨request, hreq, rfl⟩ := Option.map_eq_some_iff.mp (Option.mem_toList.mp hc)
  change (if _ then none else some _) = some request at hreq
  split_ifs at hreq
  cases hreq
  exact ⟨rfl, rfl, rfl⟩

theorem Linked.sane (h : Linked a b n) (hs : Sane b (n.nodes a).synced_route_info (n.hasInfo b) (n.hasConn b)) :
    Sane ((n.nodes a).sessions b).dst_peer_id (n.nodes a).synced_route_info (n.hasInfo b) (n.hasConn b) := by
  rw [h.dst]
  exact hs

variable [DecidableEq D] [Inhabited D]

theorem Linked.step (h : Linked a b n) (hp : Proper route n) (hn : Explained infos conns n) (e : NetEvent D)
    (hok : Orderly a b n e) : Linked a b (n.step e).2 := by
  have hs := sane_of_explained hp hn a b
  obtain ⟨hregular, hok⟩ := hok
  cases e with
  | announce p config =>
    refine h.grew (advanced_update_my_peer_info ?_)
    rw [(hp.nodes p).ids.1]
    exact hregular
  | connect p connected_peers =>
    refine h.grew (advanced_update_my_conn_info ?_)
    rw [(hp.nodes p).ids.1]
    exact hregular
  | forget p peer_ids =>
    obtain ⟨hinfos, hconns⟩ := remove_peers_maps peer_ids (n.nodes p).synced_route_info
    refine h.wrote ?_ ?_ (fun hp => absurd hp hok) (fun hp => absurd hp hok)
    · rw [hinfos]
      exact writes_foldl_erase _ peer_ids _
    · rw [hconns]
      exact writes_foldl_erase _ peer_ids _
  | rebuild p reachable before =>
    have hbefore : before.conn_map = (n.nodes p).synced_route_info.conn_map := hregular
    show Linked a b (n.set p ((n.nodes p).update_cached_local_conn_bitmap reachable before))
    unfold PeerRouteServiceImpl.update_cached_local_conn_bitmap
    rw [hbefore]
    split_ifs
    · refine h.rebuilt p _ _ ?_
      rintro rfl x hx
      exact RouteConnBitmap.version_le_of_mem hx
    · exact h.rebuilt p _ _ fun hp => hp ▸ h.cached
  | sync p dst reachable need_sync =>
    refine h.recorded p dst _ _ (fun c hc => List.mem_append_left _ hc) ?_ ?_
    · intro c hc
      rcases List.mem_append.mp hc with hold | hnew
      · exact .inl hold
      · right
        obtain ⟨hreq, hdst, -⟩ := mem_called hnew
        refine ⟨?_, hdst, ?_⟩
        · rw [hreq]
          exact (hp.nodes p).ids.1
        · rintro rfl
          rw [hreq]
          exact arrived_of_build hp h.cached reachable dst
    · rintro rfl rfl
      refine ⟨h.dst, ?_⟩
      intro pending hpending
      refine h.right.build (h.sane hs) reachable (hok rfl rfl) ?_
      intro r t hp
      obtain ⟨c, hc, rfl, rfl, hd, hm, hsid⟩ := hpending r t hp
      rcases List.mem_append.mp hc with hold | hnew
      · exact .inl ⟨c, hold, rfl, rfl, hd, hm, hsid⟩
      · obtain ⟨hreq, -, ht⟩ := mem_called hnew
        exact .inr ⟨hreq, ht⟩
  | deliver i sender cidr_is_subset_str =>
    have hsender : sender = .admin := hregular
    subst hsender
    rw [Net.step]
    cases hi : n.calls[i]? with
    | none => exact h
    | some c =>
      obtain ⟨hnone, hlinked⟩ := h.delivered hp (List.mem_of_getElem? hi) cidr_is_subset_str (hok c hi)
      dsimp only
      rw [hnone]
      exact hlinked
  | answer i =>
    rw [Net.step]
    cases hi : n.answers[i]? with
    | none => exact h
    | some x =>
      obtain ⟨c, session_id⟩ := x
      dsimp only
      split_ifs with hsid
      · refine h.corrected _ _ _ (synced_ids _ _ _ _) ?_
        intro hq hd
        have hx := h.answered _ (List.mem_of_getElem? hi)
        rw [hq, hd]
        refine h.right.synced (hok c session_id hi hq hd) ⟨c, hx.1, rfl, rfl, hd, hq, ?_⟩ (hx.2 hd)
        rw [← hsid, hq, hd]
      · exact h
  | clean p dst expired_info expired_conn =>
    refine h.corrected p dst _ ⟨rfl, rfl⟩ ?_
    rintro rfl rfl
    exact h.right.clean_dst_saved_map expired_info expired_conn
  | renew p dst session_id =>
    refine h.recorded p dst _ n.calls (fun _ hc => hc) (fun _ hc => .inl hc) ?_
    rintro rfl rfl
    refine ⟨rfl, ?_⟩
    intro pending hpending
    refine h.right.new ?_ dst session_id
    intro r t hp
    obtain ⟨c, hc, rfl, -, -, -, hsid⟩ := hpending r t hp
    exact hok rfl rfl c hc hsid
  | clock now =>
    have hnow : n.now ≤ now := hok
    refine ⟨h.dst, ?_, h.cached, h.called, h.answered⟩
    exact h.right.writes hnow .refl .refl (fun _ => Nat.le_refl _) fun _ => Nat.le_refl _

/-- Peer 1 knows of peer 3, cannot reach it, and calls peer 2 for the first time. -/
def firstCallWithOnePutOff : List (NetEvent Unit) :=
  [.announce 3 aboutMe, .sync 3 1 (fun _ => true) false, .deliver 0 .admin fun _ _ => false, .clock 1,
    .sync 1 2 (fun p => p = 1) true, .deliver 1 .admin fun _ _ => false, .answer 1]

/-- The answer brings the session id of peer 2, and with that the record of who was put off goes: when peer 1 can reach peer 3
again, it does not tell peer 2 of it. -/
example : let n := reached step noOneKnown firstCallWithOnePutOff
    n.hasInfo 1 3 = 1 ∧ n.hasInfo 2 3 = 0 ∧
      ((n.nodes 1).build_sync_request (fun _ => true) 2).1.peer_infos.isNone = true := by
  decide

end Net

end EasyTierHost.Peers
