import EasyTierHost.Peers.NextHops

/- Who a route table sends packets for an address to. The addresses a peer has for itself
   are kept in a dictionary that lives on from rebuild to rebuild; the ranges it answers
   for are collected anew each time. Among the peers that can be reached and claim the
   same thing, one of the fewest hops gets it. A dictionary entry that nobody renews
   stays while its peer can be reached. -/
namespace EasyTierHost.Peers
open Graphs Effects

namespace RouteTable
variable {D A : Type}

/-! ## Offers -/

/-- What one peer with a next hop offers. -/
def offersOf (s : SyncedRouteInfo D) (announced : PeerId → RoutePeerInfo D → List A) (item : PeerId × NextHopInfo) :
    List (A × (PeerId × NextHopInfo)) :=
  if item.2.version < s.version then []
  else
    match s.peer_infos.lookup item.1 with
    | none => []
    | some info => (announced item.1 info).map fun a => (a, item)

theorem mem_offersOf {s : SyncedRouteInfo D} {announced : PeerId → RoutePeerInfo D → List A} {item : PeerId × NextHopInfo}
    {o : A × (PeerId × NextHopInfo)} : o ∈ offersOf s announced item ↔
      s.version ≤ item.2.version ∧ ∃ info, s.peer_infos.lookup item.1 = some info ∧ o.1 ∈ announced item.1 info ∧ o.2 = item := by
  unfold offersOf
  by_cases hv : item.2.version < s.version
  · rw [if_pos hv]
    constructor
    · intro h
      cases h
    · intro h
      exact absurd hv (Nat.not_lt.mpr h.1)
  · rw [if_neg hv]
    cases hinfo : s.peer_infos.lookup item.1 with
    | none => simp
    | some info =>
      simp only [List.mem_map, Option.some.injEq, exists_eq_left']
      constructor
      · rintro ⟨a, ha, rfl⟩
        exact ⟨Nat.not_lt.mp hv, ha, rfl⟩
      · rintro ⟨-, ha, ho⟩
        exact ⟨o.1, ha, by rw [← ho]⟩

variable [DecidableEq A]

/-- The claim that goes into a dictionary. -/
def claimOf (s : SyncedRouteInfo D) (item : PeerId × NextHopInfo) : PeerIdVersion := ⟨item.1, s.version⟩

/-- Ranges of one address family. -/
def ranges4 (env : RouteEnv) (my : PeerId) (s : SyncedRouteInfo D) (p : PeerId) (info : RoutePeerInfo D) : List (Cidr 32) :=
  (announcedRanges env my p (localRanges env my s) info).filterMap fun | .V4 c => some c | .V6 _ => none

def ranges6 (env : RouteEnv) (my : PeerId) (s : SyncedRouteInfo D) (p : PeerId) (info : RoutePeerInfo D) : List (Cidr 128) :=
  (announcedRanges env my p (localRanges env my s) info).filterMap fun | .V6 c => some c | .V4 _ => none

/-- My own claim always goes in. -/
def mineOrBetter (my : PeerId) (t : RouteTable D) (version : Nat) (item : PeerId × NextHopInfo) (old : PeerIdVersion) : Bool :=
  item.1 = my || is_new_peer_better t version item old

/-- All offers for one dictionary. -/
def offer (s : SyncedRouteInfo D) (announced : PeerId → RoutePeerInfo D → List A)
    (beats : PeerId × NextHopInfo → PeerIdVersion → Bool) (items : List (PeerId × NextHopInfo))
    (m : AList (fun _ : A => PeerIdVersion)) : AList (fun _ : A => PeerIdVersion) :=
  (items.flatMap (offersOf s announced)).foldl (fun m o => upsert beats (claimOf s) m o.1 o.2) m

/-- One peer's offers, as the loop over its announcements makes them. -/
theorem foldl_offersOf (s : SyncedRouteInfo D) (announced : PeerId → RoutePeerInfo D → List A)
    (beats : PeerId × NextHopInfo → PeerIdVersion → Bool) {item : PeerId × NextHopInfo} (hv : ¬ item.2.version < s.version)
    {info : RoutePeerInfo D} (hinfo : s.peer_infos.lookup item.1 = some info) (m : AList (fun _ : A => PeerIdVersion)) :
    (offersOf s announced item).foldl (fun m o => upsert beats (claimOf s) m o.1 o.2) m =
      (announced item.1 info).foldl (fun m a => upsert beats (claimOf s) m a item) m := by
  rw [offersOf, if_neg hv, hinfo]
  exact List.foldl_map ..

/-- What the claims of all peers come to. -/
structure Offered (env : RouteEnv) (my : PeerId) (s : SyncedRouteInfo D) (t : RouteTable D)
    (items : List (PeerId × NextHopInfo)) (b b' : Claims D) : Prop where
  ipv4 : b'.ipv4_peer_id_map = offer s (fun _ => announced4) (is_new_peer_better t s.version) items b.ipv4_peer_id_map
  ipv6 : b'.ipv6_peer_id_map = offer s (fun _ => announced6) (is_new_peer_better t s.version) items b.ipv6_peer_id_map
  trie : b'.cidr_trie = offer s (ranges4 env my s) (mineOrBetter my t s.version) items b.cidr_trie
  trie6 : b'.cidr_v6_trie = offer s (ranges6 env my s) (mineOrBetter my t s.version) items b.cidr_v6_trie

theorem offered_item (env : RouteEnv) (my : PeerId) (s : SyncedRouteInfo D) (t : RouteTable D) (item : PeerId × NextHopInfo)
    (b : Claims D) :
    Offered env my s t [item] b (enterClaims env my s (localRanges env my s) s.version t b item) := by
  have hone : ∀ {A : Type} (announced : PeerId → RoutePeerInfo D → List A),
      [item].flatMap (offersOf s announced) = offersOf s announced item := fun announced => List.append_nil _
  by_cases hv : item.2.version < s.version
  · have hnone : ∀ {A : Type} (announced : PeerId → RoutePeerInfo D → List A), offersOf s announced item = [] :=
      fun announced => if_pos hv
    rw [enterClaims, if_pos hv]
    constructor <;> rw [offer, hone, hnone] <;> rfl
  · cases hinfo : s.peer_infos.lookup item.1 with
    | none =>
      have hnone : ∀ {A : Type} (announced : PeerId → RoutePeerInfo D → List A), offersOf s announced item = [] := by
        intro A announced
        rw [offersOf, if_neg hv, hinfo]
      rw [enterClaims, if_neg hv, hinfo]
      constructor <;> rw [offer, hone, hnone] <;> rfl
    | some info =>
      rw [enterClaims, if_neg hv, hinfo]
      constructor
      · rw [offer, hone, foldl_offersOf s _ _ hv hinfo]
        rfl
      · rw [offer, hone, foldl_offersOf s _ _ hv hinfo]
        rfl
      · rw [offer, hone, foldl_offersOf s _ _ hv hinfo]
        rfl
      · rw [offer, hone, foldl_offersOf s _ _ hv hinfo]
        rfl

/-- And of all of them, one after the other. -/
theorem offered_items (env : RouteEnv) (my : PeerId) (s : SyncedRouteInfo D) (t : RouteTable D) :
    ∀ (items : List (PeerId × NextHopInfo)) (b : Claims D),
      Offered env my s t items b (items.foldl (enterClaims env my s (localRanges env my s) s.version t) b)
  | [], b => ⟨rfl, rfl, rfl, rfl⟩
  | item :: items, b => by
    have hfirst := offered_item env my s t item b
    have hrest := offered_items env my s t items (enterClaims env my s (localRanges env my s) s.version t b item)
    have hcons : ∀ {A : Type} [DecidableEq A] (announced : PeerId → RoutePeerInfo D → List A)
        (beats : PeerId × NextHopInfo → PeerIdVersion → Bool) (m : AList (fun _ : A => PeerIdVersion)),
        offer s announced beats items (offer s announced beats [item] m) = offer s announced beats (item :: items) m := by
      intro A _ announced beats m
      rw [offer, offer, offer, ← List.foldl_append, ← List.flatMap_append]
      rfl
    constructor
    · rw [List.foldl_cons, hrest.ipv4, hfirst.ipv4, hcons]
    · rw [List.foldl_cons, hrest.ipv6, hfirst.ipv6, hcons]
    · rw [List.foldl_cons, hrest.trie, hfirst.trie, hcons]
    · rw [List.foldl_cons, hrest.trie6, hfirst.trie6, hcons]

/-! ## The choice -/

variable {policy : NextHopPolicy} {my : PeerId} {b : Rebuild D} {t : RouteTable D}
  {announced : PeerId → RoutePeerInfo D → List A}

/-- A peer that can be reached claims it. -/
def Holder (announced : PeerId → RoutePeerInfo D → List A) (my : PeerId) (b : Rebuild D) (p : PeerId) (a : A) : Prop :=
  Reachable my b.s b.cost p ∧ ∃ info, b.s.peer_infos.lookup p = some info ∧ a ∈ announced p info

/-- Hops to a peer. -/
def hopsTo (t : RouteTable D) (p : PeerId) : Nat := ((t.get_next_hop p).map (·.path_len)).getD 0

/-- One peer beats another by coming later or being nearer. -/
structure Nearer (t : RouteTable D) (version : Nat) (beats : PeerId × NextHopInfo → PeerIdVersion → Bool) : Prop where
  older : ∀ item old, old.version < version → beats item old = true
  taken : ∀ (item : PeerId × NextHopInfo) old x, old.version = version → t.get_next_hop old.peer_id = some x →
    t.get_next_hop item.1 = some item.2 → beats item old = true → item.2.path_len ≤ x.path_len
  left : ∀ (item : PeerId × NextHopInfo) old x, old.version = version → t.get_next_hop old.peer_id = some x →
    t.get_next_hop item.1 = some item.2 → beats item old = false → x.path_len ≤ item.2.path_len

theorem nearer_better (t : RouteTable D) (version : Nat) : Nearer t version (is_new_peer_better t version) := by
  have hsame : ∀ (item : PeerId × NextHopInfo) old x, old.version = version → t.get_next_hop old.peer_id = some x →
      is_new_peer_better t version item old =
        if item.1 = old.peer_id then false else decide (item.2.path_len < x.path_len) := by
    intro item old x hv hx
    rw [is_new_peer_better, if_neg (by omega), hx]
  constructor
  · intro item old hlt
    rw [is_new_peer_better, if_pos hlt]
  · intro item old x hv hx hitem hb
    rw [hsame item old x hv hx] at hb
    by_cases hp : item.1 = old.peer_id
    · rw [if_pos hp] at hb
      cases hb
    · rw [if_neg hp] at hb
      exact (of_decide_eq_true hb).le
  · intro item old x hv hx hitem hb
    rw [hsame item old x hv hx] at hb
    by_cases hp : item.1 = old.peer_id
    · rw [hp, hx, Option.some.injEq] at hitem
      rw [hitem]
    · rw [if_neg hp] at hb
      exact Nat.not_lt.mp (of_decide_eq_false hb)

/-- I am no hops away from myself. -/
theorem Routed.own {s : SyncedRouteInfo D} {cost : PeerId → PeerId → Nat} {x : NextHopInfo} {p : PeerId}
    (h : Routed policy my s cost p x) : x.path_len = 0 ↔ p = my := by
  have hvia : ∀ {K : Type} [AddCommMonoid K] [LE K] {edge : PeerId → PeerId → K → Prop} {d : K},
      Shortest edge my p x.next_hop_peer_id x.path_len d → (x.path_len = 0 ↔ p = my) := by
    intro K _ _ edge d hs
    rcases hs with ⟨hp, -, hn, -⟩ | ⟨hp, hvia, -⟩
    · exact ⟨fun _ => hp, fun _ => hn⟩
    · obtain ⟨m, -, -, hn, -⟩ := hvia.tail
      exact ⟨fun h0 => absurd (hn.symm.trans h0) (Nat.succ_ne_zero m), fun h => absurd h hp⟩
  cases policy with
  | LeastCost =>
    obtain ⟨d, hd, -⟩ := h
    exact hvia hd
  | LeastHop =>
    obtain ⟨d, hd, -⟩ := h
    exact hvia hd

/-- A current entry belongs to a peer that can be reached. -/
theorem NextHopInv.reachable (h : NextHopInv policy my (some b) t) {p : PeerId} {x : NextHopInfo}
    (hx : t.get_next_hop p = some x) :
    Reachable my b.s b.cost p ∧ x.version = b.s.version ∧ Routed policy my b.s b.cost p x := by
  obtain ⟨hreach, hnone⟩ := h.get_next_hop p
  by_cases hp : Reachable my b.s b.cost p
  · obtain ⟨y, hy, hv, hr⟩ := hreach hp
    rw [hx, Option.some.injEq] at hy
    subst hy
    exact ⟨hp, hv, hr⟩
  · rw [hnone hp] at hx
    cases hx

theorem nearer_mine (h : NextHopInv policy my (some b) t) : Nearer t b.s.version (mineOrBetter my t b.s.version) := by
  have hbetter := nearer_better t b.s.version
  constructor
  · intro item old hlt
    rw [mineOrBetter, hbetter.older item old hlt, Bool.or_true]
  · intro item old x hv hx hitem hb
    rw [mineOrBetter, Bool.or_eq_true] at hb
    rcases hb with hmine | hb
    · obtain ⟨-, -, hrouted⟩ := h.reachable hitem
      rw [hrouted.own.mpr (of_decide_eq_true hmine)]
      exact Nat.zero_le _
    · exact hbetter.taken item old x hv hx hitem hb
  · intro item old x hv hx hitem hb
    rw [mineOrBetter, Bool.or_eq_false_iff] at hb
    exact hbetter.left item old x hv hx hitem hb.2

/-- The items of a rebuild: the entries of the next hops in some order. -/
def itemsOf (b : Rebuild D) (t : RouteTable D) : List (PeerId × NextHopInfo) :=
  (b.env.table_order.order t.next_hop_map.entries).map fun e => (e.1, e.2)

theorem mem_itemsOf {item : PeerId × NextHopInfo} : item ∈ itemsOf b t ↔ t.next_hop_map.lookup item.1 = some item.2 := by
  unfold itemsOf
  rw [List.mem_map]
  constructor
  · rintro ⟨e, he, rfl⟩
    exact AList.mem_lookup_iff.mpr ((b.env.table_order.perm _).mem_iff.mp he)
  · intro h
    exact ⟨⟨item.1, item.2⟩, (b.env.table_order.perm _).mem_iff.mpr (AList.mem_lookup_iff.mp h), rfl⟩

/-- The offers for one thing are those of its holders. -/
theorem mem_offers_for (announced : PeerId → RoutePeerInfo D → List A) (h : NextHopInv policy my (some b) t) {a : A} {c : PeerId × NextHopInfo} :
    c ∈ (((itemsOf b t).flatMap (offersOf b.s announced)).filter (fun o => o.1 = a)).map (·.2) ↔
      t.get_next_hop c.1 = some c.2 ∧ Holder announced my b c.1 a := by
  constructor
  · intro hc
    obtain ⟨o, ho, rfl⟩ := List.mem_map.mp hc
    obtain ⟨ho, hkey⟩ := List.mem_filter.mp ho
    obtain ⟨item, hitem, ho⟩ := List.mem_flatMap.mp ho
    obtain ⟨hv, info, hinfo, ha, heq⟩ := mem_offersOf.mp ho
    have hhop : t.get_next_hop item.1 = some item.2 := by
      rw [RouteTable.get_next_hop, Option.filter_eq_some_iff]
      exact ⟨mem_itemsOf.mp hitem, decide_eq_true (by rw [h.version]; exact hv)⟩
    rw [heq]
    refine ⟨hhop, (h.reachable hhop).1, info, hinfo, ?_⟩
    rwa [← of_decide_eq_true hkey]
  · rintro ⟨hhop, hreach, info, hinfo, ha⟩
    have hlook := (Option.filter_eq_some_iff.mp hhop).1
    refine List.mem_map.mpr ⟨(a, c), List.mem_filter.mpr ⟨List.mem_flatMap.mpr ⟨c, mem_itemsOf.mpr hlook, ?_⟩, ?_⟩, rfl⟩
    · exact mem_offersOf.mpr ⟨(h.reachable hhop).2.1.ge, info, hinfo, ha, rfl⟩
    · exact decide_eq_true rfl

/-- What is in a dictionary after all offers: with no holders what was there, and
else one of the nearest holders. -/
theorem offer_lookup (announced : PeerId → RoutePeerInfo D → List A) (h : NextHopInv policy my (some b) t) {beats : PeerId × NextHopInfo → PeerIdVersion → Bool}
    (hn : Nearer t b.s.version beats) {m : AList (fun _ : A => PeerIdVersion)} {a : A}
    (hold : ∀ e, m.lookup a = some e → e.version < b.s.version ∨ (e.version = b.s.version ∧ Holder announced my b e.peer_id a)) :
    ((∀ q, ¬ Holder announced my b q a) → (offer b.s announced beats (itemsOf b t) m).lookup a = m.lookup a) ∧
    (∀ q, Holder announced my b q a → ∃ e, (offer b.s announced beats (itemsOf b t) m).lookup a = some e ∧
      e.version = b.s.version ∧ Holder announced my b e.peer_id a ∧
      ∀ q', Holder announced my b q' a → hopsTo t e.peer_id ≤ hopsTo t q') := by
  have hmem := fun c : PeerId × NextHopInfo => mem_offers_for announced (a := a) (c := c) h
  rw [offer, lookup_foldl_upsert]
  generalize hcs : (((itemsOf b t).flatMap (offersOf b.s announced)).filter (fun o => o.1 = a)).map (·.2) = cs at hmem ⊢
  constructor
  · intro hnone
    cases cs with
    | nil => rfl
    | cons c cs => exact absurd ((hmem c).mp List.mem_cons_self).2 (hnone c.1)
  · intro q hq
    -- everybody who holds it makes an offer
    have hoffer : ∀ q', Holder announced my b q' a → ∃ x, t.get_next_hop q' = some x ∧ (q', x) ∈ cs := by
      intro q' hq'
      obtain ⟨x, hx, -⟩ := (h.get_next_hop q').1 hq'.1
      exact ⟨x, hx, (hmem (q', x)).mpr ⟨hx, hq'⟩⟩
    have hlowest : ∀ (ds : List (PeerId × NextHopInfo)) (old : PeerIdVersion), (∀ d ∈ ds, d ∈ cs) →
        old.version = b.s.version → Holder announced my b old.peer_id a →
        ∃ e, ds.foldl (choose beats (claimOf b.s)) (some old) = some e ∧ e.version = b.s.version ∧
          Holder announced my b e.peer_id a ∧ hopsTo t e.peer_id ≤ hopsTo t old.peer_id ∧
          ∀ d ∈ ds, hopsTo t e.peer_id ≤ hopsTo t d.1 := by
      intro ds old hds hov hoh
      obtain ⟨x, hx, -⟩ := (h.get_next_hop old.peer_id).1 hoh.1
      obtain ⟨e, he, horigin, hle, hall⟩ := foldl_choose_lowest beats (claimOf b.s) (fun e => hopsTo t e.peer_id)
        (fun c => c ∈ cs) (fun e => e.version = b.s.version ∧ ∃ x, t.get_next_hop e.peer_id = some x)
        (fun c hc => ⟨rfl, c.2, ((hmem c).mp hc).1⟩)
        (fun c old hc ⟨hv, y, hy⟩ hb => by
          have hitem := ((hmem c).mp hc).1
          have hle := hn.taken c old y hv hy hitem hb
          show hopsTo t c.1 ≤ hopsTo t old.peer_id
          rw [hopsTo, hopsTo, hitem, hy]
          exact hle)
        (fun c old hc ⟨hv, y, hy⟩ hb => by
          have hitem := ((hmem c).mp hc).1
          have hle := hn.left c old y hv hy hitem hb
          show hopsTo t old.peer_id ≤ hopsTo t c.1
          rw [hopsTo, hopsTo, hitem, hy]
          exact hle)
        ds old ⟨hov, x, hx⟩ hds
      refine ⟨e, he, ?_, ?_, hle, hall⟩
      · rcases horigin with rfl | ⟨c, -, rfl⟩
        · exact hov
        · rfl
      · rcases horigin with rfl | ⟨c, hc, rfl⟩
        · exact hoh
        · exact ((hmem c).mp (hds c hc)).2
    -- either the old entry takes part or the first offer replaces it
    have hresult : ∃ e, cs.foldl (choose beats (claimOf b.s)) (m.lookup a) = some e ∧ e.version = b.s.version ∧
        Holder announced my b e.peer_id a ∧ ∀ d ∈ cs, hopsTo t e.peer_id ≤ hopsTo t d.1 := by
      have hfresh : (∀ e, m.lookup a = some e → e.version < b.s.version) → ∃ e,
          cs.foldl (choose beats (claimOf b.s)) (m.lookup a) = some e ∧ e.version = b.s.version ∧
          Holder announced my b e.peer_id a ∧ ∀ d ∈ cs, hopsTo t e.peer_id ≤ hopsTo t d.1 := by
        intro hlt
        obtain ⟨x, -, hin⟩ := hoffer q hq
        cases cs with
        | nil => cases hin
        | cons c cs =>
          have hfirst : choose beats (claimOf b.s) (m.lookup a) c = some (claimOf b.s c) := by
            cases hm : m.lookup a with
            | none => rfl
            | some e => rw [choose, hn.older c e (hlt e hm), if_pos rfl]
          obtain ⟨e, he, hv, hh, hle, hall⟩ := hlowest cs (claimOf b.s c) (fun d hd => List.mem_cons_of_mem c hd) rfl
            ((hmem c).mp List.mem_cons_self).2
          refine ⟨e, by rw [List.foldl_cons, hfirst, he], hv, hh, ?_⟩
          intro d hd
          rcases List.mem_cons.mp hd with rfl | hd
          · exact hle
          · exact hall d hd
      cases hm : m.lookup a with
      | none =>
        rw [← hm]
        exact hfresh (fun e he => by rw [hm] at he; cases he)
      | some old =>
        rcases hold old hm with hlt | ⟨hv, hh⟩
        · rw [← hm]
          exact hfresh (fun e he => by rw [hm, Option.some.injEq] at he; rwa [← he])
        · obtain ⟨e, he, hev, heh, -, hall⟩ := hlowest cs old (fun d hd => hd) hv hh
          exact ⟨e, he, hev, heh, hall⟩
    obtain ⟨e, he, hev, heh, hall⟩ := hresult
    refine ⟨e, he, hev, heh, ?_⟩
    intro q' hq'
    obtain ⟨x, -, hin⟩ := hoffer q' hq'
    exact hall (q', x) hin

/-! ## Addresses over a run -/

omit [DecidableEq A] in
theorem holder_congr {c : Rebuild D} (hs : c.s = b.s) (hcost : c.cost = b.cost) {p : PeerId} {a : A} :
    Holder announced my c p a ↔ Holder announced my b p a := by
  rw [Holder, Holder, hs, hcost]

/-- What a dictionary of addresses keeps: an entry was right at its version and nobody has
claimed the address since, and a claim of the last rebuild is met by a nearest holder. -/
structure Kept (announced : PeerId → RoutePeerInfo D → List A) (my : PeerId) (past : List (Rebuild D))
    (m : AList (fun _ : A => PeerIdVersion)) (t : RouteTable D) : Prop where
  origin : ∀ a e, m.lookup a = some e → ∃ c ∈ past, c.s.version = e.version ∧ Holder announced my c e.peer_id a ∧
    ∀ c' ∈ past, e.version < c'.s.version → ∀ q, ¬ Holder announced my c' q a
  latest : ∀ b, past.getLast? = some b → ∀ q a, Holder announced my b q a → ∃ e, m.lookup a = some e ∧
    e.version = b.s.version ∧ Holder announced my b e.peer_id a ∧
    ∀ q', Holder announced my b q' a → hopsTo t e.peer_id ≤ hopsTo t q'

variable {past : List (Rebuild D)} {m : AList (fun _ : A => PeerIdVersion)} {t' : RouteTable D}

/-- After one more rebuild an entry is of that rebuild or nobody claims its address there. -/
theorem kept_origin (h : Kept announced my past m t) {a : A} {e : PeerIdVersion}
    (he : m.lookup a = some e) (hnone : ∀ q, ¬ Holder announced my b q a) :
    ∃ c ∈ past ++ [b], c.s.version = e.version ∧ Holder announced my c e.peer_id a ∧
      ∀ c' ∈ past ++ [b], e.version < c'.s.version → ∀ q, ¬ Holder announced my c' q a := by
  obtain ⟨c, hc, hv, hh, hlater⟩ := h.origin a e he
  refine ⟨c, List.mem_append_left _ hc, hv, hh, ?_⟩
  intro c' hc' hlt
  rcases List.mem_append.mp hc' with hc' | hc'
  · exact hlater c' hc' hlt
  · rw [List.mem_singleton.mp hc']
    exact hnone

theorem kept_present (h : Kept announced my past m t) (hpast : (past ++ [b]).Pairwise Versioned)
    (hn : NextHopInv policy my (some b) t') :
    Kept announced my (past ++ [b]) (offer b.s announced (is_new_peer_better t' b.s.version) (itemsOf b t') m) t' := by
  have hbefore : ∀ c ∈ past, Versioned c b := fun c hc => (List.pairwise_append.mp hpast).2.2 c hc b (List.mem_singleton_self b)
  have hlook := fun a => offer_lookup announced (a := a) (m := m) hn (nearer_better t' b.s.version) (by
    intro e he
    obtain ⟨c, hc, hv, hh, -⟩ := h.origin a e he
    obtain ⟨hle, hsame⟩ := hbefore c hc
    by_cases heq : c.s.version = b.s.version
    · obtain ⟨hs, hcost⟩ := hsame heq
      exact Or.inr ⟨hv.symm.trans heq, (holder_congr hs hcost).mp hh⟩
    · exact Or.inl (by omega))
  constructor
  · intro a e he
    by_cases hany : ∃ q, Holder announced my b q a
    · obtain ⟨q, hq⟩ := hany
      obtain ⟨e', he', hv, hh, -⟩ := (hlook a).2 q hq
      rw [he, Option.some.injEq] at he'
      subst he'
      refine ⟨b, List.mem_append_right _ (List.mem_singleton_self b), hv.symm, hh, ?_⟩
      intro c' hc' hlt
      exfalso
      rcases List.mem_append.mp hc' with hc' | hc'
      · have hle := (hbefore c' hc').1
        omega
      · rw [List.mem_singleton.mp hc'] at hlt
        omega
    · have hnone : ∀ q, ¬ Holder announced my b q a := fun q hq => hany ⟨q, hq⟩
      rw [(hlook a).1 hnone] at he
      exact kept_origin h he hnone
  · intro c hc q a hq
    rw [List.getLast?_append_of_ne_nil _ (List.cons_ne_nil b []), List.getLast?_singleton, Option.some.injEq] at hc
    subst hc
    exact (hlook a).2 q hq

/-- A rebuild without me claims nothing. -/
theorem kept_absent (h : Kept announced my past m t) (hmy : my ∉ graphPeers b.s) : Kept announced my (past ++ [b]) m t' := by
  have hnone : ∀ q a, ¬ Holder announced my b q a := fun q a hq => hmy hq.1.1
  constructor
  · intro a e he
    exact kept_origin h he (fun q => hnone q a)
  · intro c hc q a hq
    rw [List.getLast?_append_of_ne_nil _ (List.cons_ne_nil b []), List.getLast?_singleton, Option.some.injEq] at hc
    subst hc
    exact absurd hq (hnone q a)

theorem get_next_hop_clean (t : RouteTable D) (p : PeerId) :
    (clean_expired_route_info t).get_next_hop p = t.get_next_hop p := by
  have hlook : (clean_expired_route_info t).next_hop_map.lookup p =
      (t.next_hop_map.lookup p).filter (fun v => decide (t.next_hop_map_version ≤ v.version)) := lookup_retain _ _ p
  rw [RouteTable.get_next_hop, hlook, Option.filter_filter, RouteTable.get_next_hop]
  congr 1
  funext x
  exact Bool.and_self _

/-- Cleaning drops only entries of peers that cannot be reached. -/
theorem kept_clean (hn : NextHopInv policy my past.getLast? t) (h : Kept announced my past m t) :
    Kept announced my past (retain (fun _ v => v.peer_id ∈ (clean_expired_route_info t).next_hop_map) m)
      (clean_expired_route_info t) := by
  constructor
  · intro a e he
    rw [lookup_retain, Option.filter_eq_some_iff] at he
    exact h.origin a e he.1
  · intro b hb q a hq
    obtain ⟨e, he, hv, hh, hall⟩ := h.latest b hb q a hq
    refine ⟨e, ?_, hv, hh, ?_⟩
    · rw [lookup_retain, Option.filter_eq_some_iff]
      refine ⟨he, decide_eq_true ?_⟩
      obtain ⟨x, hx, hxv⟩ := hn.complete b hb e.peer_id hh.1
      rw [← AList.lookup_isSome]
      have hlook : (clean_expired_route_info t).next_hop_map.lookup e.peer_id = some x := by
        refine (lookup_retain _ _ _).trans ?_
        rw [Option.filter_eq_some_iff]
        exact ⟨hx, decide_eq_true hxv.ge⟩
      rw [hlook]
      rfl
    · intro q' hq'
      have hle := hall q' hq'
      rwa [hopsTo, hopsTo, get_next_hop_clean, get_next_hop_clean]

/-- What the ranges of a rebuild come to. -/
structure Ranged (announced : PeerId → RoutePeerInfo D → List A) (my : PeerId) (b : Rebuild D)
    (m : AList (fun _ : A => PeerIdVersion)) (t : RouteTable D) : Prop where
  absent : ∀ a, (∀ q, ¬ Holder announced my b q a) → m.lookup a = none
  nearest : ∀ q a, Holder announced my b q a → ∃ e, m.lookup a = some e ∧ Holder announced my b e.peer_id a ∧
    ∀ q', Holder announced my b q' a → hopsTo t e.peer_id ≤ hopsTo t q'

theorem ranged_offer (announced : PeerId → RoutePeerInfo D → List A) (hn : NextHopInv policy my (some b) t') :
    Ranged announced my b (offer b.s announced (mineOrBetter my t' b.s.version) (itemsOf b t') ∅) t' := by
  have hlook := fun a => offer_lookup announced (a := a) (m := (∅ : AList (fun _ : A => PeerIdVersion))) hn
    (nearer_mine hn) (fun e he => by cases he)
  constructor
  · intro a hnone
    exact (hlook a).1 hnone
  · intro q a hq
    obtain ⟨e, he, -, hh, hall⟩ := (hlook a).2 q hq
    exact ⟨e, he, hh, hall⟩

/-- All that a run keeps. -/
structure TableInv (policy : NextHopPolicy) (my : PeerId) (past : List (Rebuild D)) (t : RouteTable D) : Prop where
  hops : NextHopInv policy my past.getLast? t
  ipv4 : Kept (fun _ => announced4) my past t.ipv4_peer_id_map t
  ipv6 : Kept (fun _ => announced6) my past t.ipv6_peer_id_map t
  ranges : ∀ b, past.getLast? = some b → my ∈ graphPeers b.s →
    Ranged (ranges4 b.env my b.s) my b t.cidr_peer_id_map t ∧ Ranged (ranges6 b.env my b.s) my b t.cidr_v6_peer_id_map t

theorem kept_nil (t : RouteTable D) : Kept announced my ([] : List (Rebuild D)) ∅ t where
  origin := fun _ _ h => by cases h
  latest := fun _ h => by cases h

theorem tableInv_new (policy : NextHopPolicy) (my : PeerId) :
    TableInv policy my ([] : List (Rebuild D)) RouteTable.new where
  hops := nextHopInv_new policy my
  ipv4 := kept_nil _
  ipv6 := kept_nil _
  ranges := fun _ h => by cases h

theorem ranged_congr (h : Ranged announced my b m t) (ht : ∀ p, t'.get_next_hop p = t.get_next_hop p) :
    Ranged announced my b m t' where
  absent := h.absent
  nearest := fun q a hq => by
    obtain ⟨e, he, hh, hall⟩ := h.nearest q a hq
    refine ⟨e, he, hh, ?_⟩
    intro q' hq'
    rw [hopsTo, hopsTo, ht, ht]
    exact hall q' hq'

theorem tableInv_clean (h : TableInv policy my past t) : TableInv policy my past (clean_expired_route_info t) where
  hops := nextHopInv_clean h.hops
  ipv4 := kept_clean h.hops h.ipv4
  ipv6 := kept_clean h.hops h.ipv6
  ranges := fun b hb hmy => by
    obtain ⟨h4, h6⟩ := h.ranges b hb hmy
    exact ⟨ranged_congr h4 (get_next_hop_clean t), ranged_congr h6 (get_next_hop_clean t)⟩

theorem tableInv_rebuild (h : TableInv policy my past t) (hpast : (past ++ [b]).Pairwise Versioned) :
    ∃ t', build_from_synced_info b.env my b.s policy b.cost t = some t' ∧ TableInv policy my (past ++ [b]) t' := by
  have hlast : (past ++ [b]).getLast? = some b := by
    rw [List.getLast?_append_of_ne_nil _ (List.cons_ne_nil b []), List.getLast?_singleton]
  have hversioned := versioned_getLast hpast
  by_cases hmy : my ∈ graphPeers b.s
  · obtain ⟨hops, hbuild, hr⟩ := build_present b.env policy b.cost t hmy
    let mid : RouteTable D :=
      { t with next_hop_map := hops, next_hop_map_version := max t.next_hop_map_version b.s.version }
    have hoffered := offered_items b.env my b.s mid (itemsOf b mid) ⟨t.peer_infos, t.ipv4_peer_id_map, t.ipv6_peer_id_map, ∅, ∅⟩
    -- the claims do not touch the next hops
    have hn : NextHopInv policy my (some b) (enterAllClaims b.env my b.s mid) :=
      nextHopInv_refreshed h.hops hversioned hr rfl rfl
    refine ⟨_, hbuild, ?_⟩
    constructor
    · rw [hlast]
      exact hn
    · have hk := kept_present h.ipv4 hpast hn
      rwa [show (enterAllClaims b.env my b.s mid).ipv4_peer_id_map = _ from hoffered.ipv4]
    · have hk := kept_present h.ipv6 hpast hn
      rwa [show (enterAllClaims b.env my b.s mid).ipv6_peer_id_map = _ from hoffered.ipv6]
    · intro c hc _
      rw [hlast, Option.some.injEq] at hc
      subst hc
      have h4 := ranged_offer (ranges4 b.env my b.s) hn
      have h6 := ranged_offer (ranges6 b.env my b.s) hn
      constructor
      · rwa [show (enterAllClaims b.env my b.s mid).cidr_peer_id_map = _ from hoffered.trie]
      · rwa [show (enterAllClaims b.env my b.s mid).cidr_v6_peer_id_map = _ from hoffered.trie6]
  · refine ⟨_, build_absent b.env policy t hmy, tableInv_clean ?_⟩
    constructor
    · rw [hlast]
      exact nextHopInv_absent h.hops hversioned hmy
    · exact kept_absent h.ipv4 hmy
    · exact kept_absent h.ipv6 hmy
    · intro c hc hin
      rw [hlast, Option.some.injEq] at hc
      subst hc
      exact absurd hin hmy

theorem runTable_inv (policy : NextHopPolicy) (my : PeerId) (ops : List (TableOp D))
    (hv : (rebuilds ops).Pairwise Versioned) :
    ∃ t, runTable policy my ops = some t ∧ TableInv policy my (rebuilds ops) t := by
  induction ops using List.reverseRecOn with
  | nil => exact ⟨RouteTable.new, rfl, tableInv_new policy my⟩
  | append_singleton ops op ih =>
    rw [rebuilds_append] at hv
    obtain ⟨t, ht, hinv⟩ := ih (List.pairwise_append.mp hv).1
    rw [runTable_append ht, rebuilds_append]
    cases op with
    | rebuild b => exact tableInv_rebuild hinv hv
    | clean =>
      refine ⟨_, rfl, ?_⟩
      rw [show rebuilds [(TableOp.clean : TableOp D)] = [] from rfl, List.append_nil]
      exact tableInv_clean hinv

/-- After any run of rebuilds and cleanings: an address that a reachable peer claims in
the last link state is sent to one of the nearest claimants, and an address is sent to a
peer only if that peer claimed it when it was last claimed by anyone reachable. -/
theorem addresses_of_run (policy : NextHopPolicy) (my : PeerId) (ops : List (TableOp D))
    (hv : (rebuilds ops).Pairwise Versioned) :
    ∃ t, runTable policy my ops = some t ∧ Kept (fun _ => announced4) my (rebuilds ops) t.ipv4_peer_id_map t ∧
      Kept (fun _ => announced6) my (rebuilds ops) t.ipv6_peer_id_map t := by
  obtain ⟨t, ht, hinv⟩ := runTable_inv policy my ops hv
  exact ⟨t, ht, hinv.ipv4, hinv.ipv6⟩

/-- Two peers, the second with the address 10.0.0.2 and the range 192.168.0.0/16. -/
def twoHosts : SyncedRouteInfo Unit where
  peer_infos := ((∅ : AList _).insert 1 { (RoutePeerInfo.new : RoutePeerInfo Unit) with version := 1 }).insert 2
    { (RoutePeerInfo.new : RoutePeerInfo Unit) with
      version := 1
      ipv4_addr := some 0x0a000002#32
      proxy_cidrs := ["192.168.0.0/16"] }
  conn_map := ((∅ : AList _).insert 1 ⟨{2}, 1, 0⟩).insert 2 ⟨{1}, 1, 0⟩
  version := 1

/-- That one range can be read. -/
def hostEnv : RouteEnv :=
  { plainEnv with parse := fun text => if text = "192.168.0.0/16" then some (.V4 ⟨0xc0a80000#32, 16⟩) else none }

theorem reachable_twoHosts : Reachable 1 twoHosts (fun _ _ => 1) 2 := by
  refine ⟨by decide, 1, 0 + 1, Walk.nil.snoc ⟨?_, ?_, ?_, ?_⟩⟩ <;> decide

theorem holder_twoHosts : Holder (fun _ => announced4) 1 ⟨hostEnv, twoHosts, fun _ _ => 1⟩ 2 0x0a000002#32 :=
  ⟨reachable_twoHosts, _, rfl, by decide⟩

theorem addresses_of_two : ∃ t, runTable .LeastHop 1 [.rebuild ⟨hostEnv, twoHosts, fun _ _ => 1⟩] = some t ∧
    ∃ e, t.ipv4_peer_id_map.lookup 0x0a000002#32 = some e ∧
      Holder (fun _ => announced4) 1 ⟨hostEnv, twoHosts, fun _ _ => 1⟩ e.peer_id 0x0a000002#32 := by
  obtain ⟨t, ht, hkept, -⟩ := addresses_of_run .LeastHop 1 [.rebuild ⟨hostEnv, twoHosts, fun _ _ => 1⟩]
    (List.pairwise_singleton _ _)
  obtain ⟨e, he, -, hh, -⟩ := hkept.latest _ rfl 2 0x0a000002#32 holder_twoHosts
  exact ⟨t, ht, e, he, hh⟩

/-! ## Ranges -/

/-- What it means to answer for an address: a range that holds it, no longer one anywhere,
no nearer peer with the same, and I do so myself when I have that range. -/
def AnswersFor {w : Nat} (L : CidrLib w) (announced : PeerId → RoutePeerInfo D → List (Cidr w)) (my : PeerId)
    (b : Rebuild D) (t : RouteTable D) (ip : BitVec w) (p : PeerId) : Prop :=
  ∃ c : Cidr w, L.Holds c ip ∧ Holder announced my b p c ∧
    (∀ q c', Holder announced my b q c' → L.Holds c' ip → c'.network_length ≤ c.network_length) ∧
    (∀ q, Holder announced my b q c → hopsTo t p ≤ hopsTo t q) ∧ (Holder announced my b my c → p = my)

/-- The range looked up is one of the last link state. -/
theorem ranged_lookup {w : Nat} {L : CidrLib w} (tries : PrefixMap L) {announced : PeerId → RoutePeerInfo D → List (Cidr w)}
    {m : AList (fun _ : Cidr w => PeerIdVersion)} (hn : NextHopInv policy my (some b) t) (h : Ranged announced my b m t)
    (ip : BitVec w) :
    (∀ p, (tries.get_lpm m ip).map (·.2.peer_id) = some p → AnswersFor L announced my b t ip p) ∧
    ((tries.get_lpm m ip).map (·.2.peer_id) = none → ∀ q c, Holder announced my b q c → ¬L.Holds c ip) := by
  constructor
  · intro p hp
    obtain ⟨e, he, rfl⟩ := Option.map_eq_some_iff.mp hp
    obtain ⟨hlook, hholds, hlongest⟩ := tries.longest m ip e he
    have hheld : Holder announced my b e.2.peer_id e.1 ∧
        ∀ q, Holder announced my b q e.1 → hopsTo t e.2.peer_id ≤ hopsTo t q := by
      by_cases hany : ∃ q, Holder announced my b q e.1
      · obtain ⟨q, hq⟩ := hany
        obtain ⟨e', he', hh, hall⟩ := h.nearest q e.1 hq
        rw [hlook, Option.some.injEq] at he'
        rw [he']
        exact ⟨hh, hall⟩
      · rw [h.absent e.1 (fun q hq => hany ⟨q, hq⟩)] at hlook
        cases hlook
    refine ⟨e.1, hholds, hheld.1, ?_, hheld.2, ?_⟩
    · intro q c' hq hc'
      obtain ⟨e', he', -, -⟩ := h.nearest q c' hq
      exact hlongest c' e' he' hc'
    · intro hmy
      obtain ⟨x, hx, -, hrx⟩ := (hn.get_next_hop my).1 hmy.1
      obtain ⟨y, hy, -, hry⟩ := (hn.get_next_hop e.2.peer_id).1 hheld.1.1
      have hle := hheld.2 my hmy
      rw [hopsTo, hopsTo, hx, hy] at hle
      have hzero : x.path_len = 0 := hrx.own.mpr rfl
      have hle' : y.path_len ≤ x.path_len := hle
      exact hry.own.mp (by omega)
  · intro hm q c hq
    obtain ⟨e, he, -, -⟩ := h.nearest q c hq
    exact tries.absent m ip (Option.map_eq_none_iff.mp hm) c e he

/-- After any run whose last rebuild has me in its graph, a packet for an address in a
foreign range goes to the nearest peer that answers for the longest range holding the
address, to me when I have that range, and to nobody only if nobody has one. -/
theorem ranges_of_run (policy : NextHopPolicy) (my : PeerId) (ops : List (TableOp D)) (b : Rebuild D)
    (hv : (rebuilds ops).Pairwise Versioned) (hlast : (rebuilds ops).getLast? = some b) (hmy : my ∈ graphPeers b.s) :
    ∃ t, runTable policy my ops = some t ∧
      (∀ ip, (∀ p, get_peer_id_for_proxy4 b.env t ip = some p →
          AnswersFor b.env.cidrs4 (ranges4 b.env my b.s) my b t ip p) ∧
        (get_peer_id_for_proxy4 b.env t ip = none →
          ∀ q c, Holder (ranges4 b.env my b.s) my b q c → ¬b.env.cidrs4.Holds c ip)) ∧
      (∀ ip, (∀ p, get_peer_id_for_proxy6 b.env t ip = some p →
          AnswersFor b.env.cidrs6 (ranges6 b.env my b.s) my b t ip p) ∧
        (get_peer_id_for_proxy6 b.env t ip = none →
          ∀ q c, Holder (ranges6 b.env my b.s) my b q c → ¬b.env.cidrs6.Holds c ip)) := by
  obtain ⟨t, ht, hinv⟩ := runTable_inv policy my ops hv
  have hn := hinv.hops
  rw [hlast] at hn
  obtain ⟨h4, h6⟩ := hinv.ranges b hlast hmy
  exact ⟨t, ht, ranged_lookup b.env.tries4 hn h4, ranged_lookup b.env.tries6 hn h6⟩

theorem ranges_of_two : ∃ t, runTable .LeastHop 1 [.rebuild ⟨hostEnv, twoHosts, fun _ _ => 1⟩] = some t ∧
    ∃ p, get_peer_id_for_proxy4 hostEnv t 0xc0a80105#32 = some p := by
  obtain ⟨t, ht, h4, -⟩ := ranges_of_run .LeastHop 1 [.rebuild ⟨hostEnv, twoHosts, fun _ _ => 1⟩]
    ⟨hostEnv, twoHosts, fun _ _ => 1⟩ (List.pairwise_singleton _ _) rfl (by decide)
  refine ⟨t, ht, ?_⟩
  cases hp : get_peer_id_for_proxy4 hostEnv t 0xc0a80105#32 with
  | some p => exact ⟨p, rfl⟩
  | none =>
    have habsent := (h4 0xc0a80105#32).2 hp 2 ⟨0xc0a80000#32, 16⟩ ⟨reachable_twoHosts, _, rfl, by decide⟩
    exact absurd ⟨by decide, by decide⟩ habsent

end RouteTable

end EasyTierHost.Peers
