import EasyTierHost.Abstractions.AddressText
import EasyTierHost.Effects.Recency
import EasyTierHost.Network.RouteReconcile
import Mathlib.Algebra.Order.Group.Int

/- UnderlayRouteProtector of RoutePlanner.cs, and what an update of the protection
   leaves. The protector is a dictionary from addresses to the time of their last
   report; times and the grace period are counted in ticks of 100 ns, as
   DateTimeOffset and TimeSpan count them. In which order a dictionary lists its keys
   is not promised, and nothing here depends on it.

   An update that returns has made the owned host routes the protection of its
   endpoints, whatever the environment did meanwhile: the controller compares with
   its own journal, and strikes and notes what differs. -/
namespace EasyTierHost
open Effects Effects.Prog GatewayRouteController

/-- `TimeSpan.FromSeconds`. -/
def fromSeconds (n : Int) : Int := n * 10000000

structure UnderlayRouteProtector where
  endpoints : AList (fun _ : IPAddress => Int)
  gracePeriod : Int

namespace UnderlayRouteProtector

/-- `new UnderlayRouteProtector { GracePeriod = gracePeriod }`. -/
def create (gracePeriod : Int) : UnderlayRouteProtector := ⟨∅, gracePeriod⟩

/-- What `Update(active)` does at the time `now`. -/
def update (p : UnderlayRouteProtector) (active : List IPAddress) (now : Int) : UnderlayRouteProtector :=
  let stamped := active.foldl (fun d ip => d.insert ip now) p.endpoints
  let expired := (stamped.entries.filter (fun e => p.gracePeriod ≤ now - e.2)).map Sigma.fst
  { p with endpoints := expired.foldl (fun d ip => d.erase ip) stamped }

/-- What it returns: `endpoints.Keys.ToArray()`. -/
def current (p : UnderlayRouteProtector) : List IPAddress := p.endpoints.keys

/-- The protector after a history of reports. -/
def after (gracePeriod : Int) (history : List (Sighting IPAddress Int)) : UnderlayRouteProtector :=
  history.foldl (fun p s => p.update s.seen s.now) (create gracePeriod)

/-- An update as a step of the dictionary. -/
def stamps (gracePeriod : Int) (d : AList (fun _ : IPAddress => Int)) (s : Sighting IPAddress Int) :
    AList (fun _ : IPAddress => Int) :=
  (update ⟨d, gracePeriod⟩ s.seen s.now).endpoints

theorem stamps_refreshes (gracePeriod : Int) : Recency.Refreshes gracePeriod (stamps gracePeriod) := by
  intro d s k
  let stamped := s.seen.foldl (fun d ip => d.insert ip s.now) d
  have hstamped : stamped.lookup k = if k ∈ s.seen then some s.now else d.lookup k :=
    Recency.lookup_foldl_insert s.now k s.seen d
  -- a key has expired if the stamp it has is old
  have hexpired : k ∈ (stamped.entries.filter (fun e => gracePeriod ≤ s.now - e.2)).map Sigma.fst ↔
      ∃ t, stamped.lookup k = some t ∧ gracePeriod ≤ s.now - t := by
    simp only [List.mem_map, List.mem_filter, decide_eq_true_eq]
    constructor
    · intro h
      obtain ⟨⟨k', t⟩, ⟨hmem, hold⟩, rfl⟩ := h
      exact ⟨t, AList.mem_lookup_iff.mpr hmem, hold⟩
    · intro h
      obtain ⟨t, hlookup, hold⟩ := h
      exact ⟨⟨k, t⟩, ⟨AList.mem_lookup_iff.mp hlookup, hold⟩, rfl⟩
  show (((stamped.entries.filter (fun e => gracePeriod ≤ s.now - e.2)).map Sigma.fst).foldl
    (fun d ip => d.erase ip) stamped).lookup k = _
  rw [Recency.lookup_foldl_erase, ← hstamped]
  cases hk : stamped.lookup k with
  | none =>
    split
    · rfl
    · rfl
  | some t =>
    by_cases hold : gracePeriod ≤ s.now - t
    · rw [if_pos (hexpired.mpr ⟨t, hk, hold⟩)]
      simp [Option.filter, hold]
    · have hnot : ¬∃ t', stamped.lookup k = some t' ∧ gracePeriod ≤ s.now - t' := by
        intro h
        obtain ⟨t', ht', hold'⟩ := h
        rw [hk] at ht'
        cases ht'
        exact hold hold'
      rw [if_neg (fun hmem => hnot (hexpired.mp hmem))]
      simp [Option.filter, lt_of_not_ge hold]

theorem foldl_update (gracePeriod : Int) : ∀ (history : List (Sighting IPAddress Int)) (d : AList (fun _ => Int)),
    history.foldl (fun p s => p.update s.seen s.now) (UnderlayRouteProtector.mk d gracePeriod) =
      ⟨history.foldl (stamps gracePeriod) d, gracePeriod⟩
  | [], _ => rfl
  | s :: history, d => foldl_update gracePeriod history (stamps gracePeriod d s)

/-- The endpoints protected after a history whose clock does not go back: exactly the
addresses whose last report is less than the grace period old. -/
theorem mem_current_after {gracePeriod : Int} {history : List (Sighting IPAddress Int)} {s : Sighting IPAddress Int}
    (hclock : (history ++ [s]).Pairwise (fun a b => a.now ≤ b.now)) (ip : IPAddress) :
    ip ∈ (after gracePeriod (history ++ [s])).current ↔
      ∃ t, Recency.latest ip (history ++ [s]) = some t ∧ s.now - t < gracePeriod := by
  rw [after, create, foldl_update]
  show ip ∈ AList.keys _ ↔ _
  rw [← AList.mem_keys, ← AList.lookup_isSome, Recency.lookup_history (stamps_refreshes gracePeriod) ip history s hclock]
  cases Recency.latest ip (history ++ [s]) with
  | none => simp [Option.filter]
  | some t => simp [Option.isSome_filter]

end UnderlayRouteProtector

/-! ## What an update leaves -/

section Update
variable {D : Type} {ok : RouteReply D → Prop} {s : RouteSnapshot D} {flag : Bool} {st : GatewayState}
  {owned : List RouteEntry} {w : RouteWorld D}

theorem addAll_notes (l : List RouteEntry) (h : Holding (fun w => w.state = st) (some ⟨s, owned, flag⟩) w) :
    Runs ok (fun _ => True) (each addOwned l)
      (fun _ => Holding (fun w => w.state = st) (some ⟨s, owned ++ l, flag⟩)) (fun _ => Remembers s flag st) w := by
  have hnone : Holding (fun w => w.state = st) (some ⟨s, owned ++ [], flag⟩) w := by
    rw [List.append_nil]
    exact h
  refine Runs.each_prefix (J := fun done => Holding (fun w => w.state = st) (some ⟨s, owned ++ done, flag⟩)) ?_ hnone
  intro done r left _ w' h'
  rw [← List.append_assoc]
  exact addOwned_notes r h'

theorem removeAll_strikes (l : List RouteEntry)
    (h : Holding (fun w => w.state = st) (some ⟨s, owned, flag⟩) w) :
    Runs ok (fun _ => True) (each removeOwned l)
      (fun _ => Holding (fun w => w.state = st) (some ⟨s, owned.filter (· ∉ l), flag⟩))
      (fun _ => Remembers s flag st) w := by
  have hnone : Holding (fun w => w.state = st) (some ⟨s, owned.filter (fun r => decide (r ∉ ([] : List RouteEntry))), flag⟩) w := by
    rw [List.filter_eq_self.mpr (by simp)]
    exact h
  refine Runs.each_prefix (J := fun done => Holding (fun w => w.state = st)
    (some ⟨s, owned.filter (· ∉ done), flag⟩)) ?_ hnone
  intro done r left _ w' h'
  have hsplit : owned.filter (· ∉ done ++ [r]) = (owned.filter (· ∉ done)).filter (· ≠ r) := by
    rw [List.filter_filter]
    refine List.filter_congr (fun x _ => ?_)
    simp only [List.mem_append, List.mem_singleton, not_or, Bool.decide_and, Bool.and_comm]
  rw [hsplit]
  exact removeOwned_strikes r h'

/-- Noting what is missing and striking what is not desired leaves what is desired. -/
theorem mem_updated {desired : List RouteEntry} {r : RouteEntry}
    (hhost : ∀ r ∈ desired, RoutePlanner.isHostRoute r = true) :
    r ∈ ((owned ++ desired.filter (fun route => !(owned.filter RoutePlanner.isHostRoute).any
          (fun current => RoutePlanner.sameIdentity current route))).filter
        (· ∉ (owned.filter RoutePlanner.isHostRoute).filter
          (fun route => !desired.any (fun current => RoutePlanner.sameIdentity current route)))).filter
      RoutePlanner.isHostRoute ↔ r ∈ desired := by
  rw [List.mem_filter, List.mem_filter, List.mem_append, decide_eq_true_eq, RoutePlanner.mem_filter_not_any,
    RoutePlanner.mem_filter_not_any, List.mem_filter]
  have hr := hhost r
  tauto

/-- The owned host routes are the protection of these endpoints. -/
def Guards (endpoints : List IPAddress) (w : RouteWorld D) : Prop :=
  ∃ j desired, w.journal = some j ∧ RoutePlanner.protect j.snapshot endpoints = .ok desired ∧
    ∀ r, r ∈ j.owned.filter RoutePlanner.isHostRoute ↔ r ∈ desired

theorem updateTry_guards {endpoints : List IPAddress} (h : ActiveJournal w) :
    Runs ok (fun _ => True) (updateTry endpoints) (fun _ w' => w'.state = .gatewayActive → Guards endpoints w')
      (fun _ w' => w'.journal.isSome) w := by
  refine Runs.bind (Runs.get ?_)
  cases hj : w.journal with
  | none =>
    refine Runs.pure (fun hst => ?_)
    obtain ⟨_, _, hsome, _⟩ := h hst
    rw [hj] at hsome
    cases hsome
  | some j =>
    refine Runs.ite (fun hst => Runs.pure (fun hactive => absurd hactive hst)) (fun hst => ?_)
    obtain ⟨s, owned, hj', hactive⟩ := h (not_not.mp hst)
    have hold : Holding (fun w => w.state = .gatewayActive) (some ⟨s, owned, true⟩) w := ⟨hactive, hj'⟩
    rw [hj] at hj'
    cases hj'
    refine Runs.bind (Runs.ofExcept (fun desired hd => ?_) (fun _ _ => hold.remembers.isSome))
    refine Runs.bind (Runs.refuse (fun _ => Runs.bind ?_) (fun _ => hold.remembers.isSome))
    refine (addAll_notes _ hold).mono (fun _ w₁ h₁ => ?_) (fun _ _ h' => h'.isSome)
    refine (removeAll_strikes _ h₁).mono (fun _ w₂ h₂ _ => ⟨_, desired, h₂.2, hd, fun r => ?_⟩) (fun _ _ h' => h'.isSome)
    refine mem_updated (fun r hr => ?_)
    obtain ⟨_, _, hmem⟩ := RoutePlanner.mem_protect hd
    obtain ⟨ip, _, rfl⟩ := (hmem r).mp hr
    exact RoutePlanner.isHostRoute_protectOne s ip

/-- After an update that returns, an active gateway owns exactly the host routes that
protect the endpoints. -/
theorem updateProtection_guards [DecidableEq D] {endpoints : List IPAddress} (h : ActiveJournal w) :
    Runs ok (fun _ => True) (updateProtection endpoints)
      (fun _ w' => w'.state = .gatewayActive → Guards endpoints w') (fun _ _ => True) w := by
  refine Runs.bind ((waitGate_active h).mono (fun _ w' h' => ?_) (fun _ _ _ => trivial))
  refine Runs.tryCatch ((updateTry_guards h').mono (fun _ _ h'' => h'') (fun e w'' h'' => ?_))
  refine Runs.bind (Runs.bind (Runs.get (Runs.ite (fun hj => ?_) (fun hj => absurd h'' hj))))
  exact (rollbackInternal_inactive hj).mono (fun _ _ _ => Runs.throw trivial) (fun _ _ _ => trivial)

/-- The /32 destinations a journal owns. -/
def RouteJournal.hostDestinations (j : RouteJournal D) : List String :=
  (j.owned.filter RoutePlanner.isHostRoute).map RouteEntry.destination

/-- The owned /32 destinations are those of the physical gateway and of the endpoints,
and of no other address. -/
theorem Guards.destinations {endpoints : List IPAddress} (h : Guards endpoints w) :
    ∃ j gateway, w.journal = some j ∧ IPAddress.tryParse j.snapshot.physicalGateway = some gateway ∧
      (∀ destination, destination ∈ j.hostDestinations ↔
        ∃ ip, (ip = gateway ∨ ip ∈ endpoints) ∧ destination = ip.text ++ "/32") ∧
      ∀ a b c d, (IPAddress.v4 a b c d).text ++ "/32" ∈ j.hostDestinations ↔
        .v4 a b c d = gateway ∨ .v4 a b c d ∈ endpoints := by
  obtain ⟨j, desired, hj, hd, howned⟩ := h
  obtain ⟨gateway, hg, hmem⟩ := RoutePlanner.mem_protect hd
  have hdestinations : ∀ destination, destination ∈ j.hostDestinations ↔
      ∃ ip, (ip = gateway ∨ ip ∈ endpoints) ∧ destination = ip.text ++ "/32" := by
    intro destination
    rw [RouteJournal.hostDestinations, List.mem_map]
    constructor
    · intro hgiven
      obtain ⟨r, hr, rfl⟩ := hgiven
      obtain ⟨ip, hip, rfl⟩ := (hmem r).mp ((howned r).mp hr)
      exact ⟨ip, hip.symm, rfl⟩
    · intro hgiven
      obtain ⟨ip, hip, rfl⟩ := hgiven
      exact ⟨_, (howned _).mpr ((hmem _).mpr ⟨ip, hip.symm, rfl⟩), rfl⟩
  refine ⟨j, gateway, hj, hg, hdestinations, ?_⟩
  intro a b c d
  rw [hdestinations]
  constructor
  · intro hgiven
    obtain ⟨ip, hip, htext⟩ := hgiven
    have hunicast : isPhysicalUnicast ip = true := by
      refine RoutePlanner.isPhysicalUnicast_of_protect hd ?_
      rcases hip with rfl | hip
      · exact Or.inr hg
      · exact Or.inl hip
    rw [hostDestination_inj hunicast htext]
    exact hip
  · intro hip
    exact ⟨_, hip, rfl⟩

end Update

end EasyTierHost
