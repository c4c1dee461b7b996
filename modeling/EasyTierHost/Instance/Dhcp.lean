import Mathlib.Data.Fin.Basic
import EasyTierHost.Instance.Inet

/- DHCP without a server, after dhcp_range.rs and `Instance::check_dhcp_ip_conflict`
   of instance.rs: every node looks at the addresses the other nodes publish, keeps
   its own address while nobody else uses it, and otherwise takes the lowest free
   one of the configured range (without a range, of the subnet it sees). -/
namespace EasyTierHost

/-- The shared pool. -/
structure DhcpRange where
  network : Ipv4Inet
  start : Ipv4Addr
  «end» : Ipv4Addr
  deriving DecidableEq, Repr

namespace DhcpRange

/-- What `validate` asks of either end of the pool. -/
def validateEnd (L : InetLib) (range : DhcpRange) (ip : Ipv4Addr) : Except String Unit :=
  if !L.contains (L.network range.network) ip then .error "DHCP address outside subnet"
  else if ip = L.firstAddress range.network ∨ ip = L.lastAddress range.network then
    .error "DHCP pool includes network or broadcast"
  else .ok ()

def validate (L : InetLib) (range : DhcpRange) : Except String Unit :=
  if range.start ≤ range.end then
    (range.validateEnd L range.start).bind (fun _ => range.validateEnd L range.end)
  else .error "DHCP start exceeds end"

def contains (range : DhcpRange) (ip : Ipv4Addr) : Bool :=
  decide (range.start ≤ ip ∧ ip ≤ range.end)

/-- The addresses of the pool in order, `start..=end`. -/
def addresses (range : DhcpRange) : List Ipv4Addr :=
  (List.range' range.start.toNat (range.end.toNat + 1 - range.start.toNat)).map UInt32.ofNat

/-- The lowest address of the pool that is not in use. -/
def candidate (range : DhcpRange) (used : List Ipv4Inet) : Option Ipv4Inet :=
  (range.addresses.find? (fun ip => !(used.map Ipv4Inet.address).contains ip)).map (fun ip =>
    ⟨ip, range.network.networkLength, range.network.bound⟩)

end DhcpRange

/-! ## The loop of one node -/

/-- The events the loop issues. -/
inductive GlobalCtxEvent where
  | dhcpIpv4Changed (old new : Option Ipv4Inet)
  | dhcpIpv4Conflicted (old : Option Ipv4Inet)
  deriving DecidableEq, Repr

/-- What the loop knows of its node: the two flags of the configuration, the
address it holds, and the address the node publishes. -/
structure DhcpNode where
  dhcp : Bool
  noTun : Bool
  currentDhcpIp : Option Ipv4Inet
  ipv4 : Option Ipv4Inet
  deriving DecidableEq, Repr

/-- The element a `HashSet` gives first: one of its elements, any of them. -/
abbrev FirstOfSet := (used : List Ipv4Inet) → used ≠ [] → {inet : Ipv4Inet // inet ∈ used}

/-- The one that was put in first. -/
def firstListed : FirstOfSet := fun used h => ⟨used.head h, List.head_mem h⟩

namespace Instance

def defaultIpv4Addr : Ipv4Inet := ⟨0x0A7E7E00, 24, by decide⟩

/-- The subnet addresses are taken from. -/
def dhcpInet (range : Option DhcpRange) (first : FirstOfSet) (used : List Ipv4Inet) : Ipv4Inet :=
  match range with
  | some r => r.network
  | none => if h : used = [] then defaultIpv4Addr else (first used h).1

/-- The test under which an old address is kept. -/
def keeps (L : InetLib) (range : Option DhcpRange) (first : FirstOfSet) (used : List Ipv4Inet)
    (ip : Ipv4Inet) : Bool :=
  L.network ip == L.network (dhcpInet range first used) &&
    match range with
    | some r => r.contains ip.address && !used.any (fun u => u.address == ip.address)
    | none => !used.contains ip

/-- The address an iteration proposes. -/
def candidate (L : InetLib) (range : Option DhcpRange) (first : FirstOfSet)
    (used : List Ipv4Inet) : Option Ipv4Inet :=
  match range with
  | some r => r.candidate used
  | none =>
    let inet := dhcpInet none first used
    (L.iter (L.network inet)).find? (fun ip => ip.address != L.firstAddress inet &&
      ip.address != L.lastAddress inet && !used.contains ip)

/-- One iteration: the order of the set of addresses in use, the notice that the device
was closed, whether a device opens under an address, and the routes to the other nodes. -/
def checkDhcpIpConflict (L : InetLib) (range : Option DhcpRange) (first : FirstOfSet)
    (closed : Bool) (opens : Ipv4Inet → Bool) (routes : List (Option Ipv4Inet))
    (node : DhcpNode) : DhcpNode × List GlobalCtxEvent :=
  let current := if closed then none else node.currentDhcpIp
  let held := { node with currentDhcpIp := current }
  let used := routes.filterMap id
  -- do not allocate ip if no peer connected
  if routes.isEmpty then (held, [])
  -- if old ip is already in this subnet and not conflicted, use it
  else if current.any (keeps L range first used) then (held, [])
  else if current = candidate L range first used then (held, [])
  else match candidate L range first used with
    | some ip =>
      if node.noTun || opens ip then
        ({ node with currentDhcpIp := some ip, ipv4 := some ip },
          [.dhcpIpv4Changed current (some ip)])
      else ({ held with ipv4 := none }, [])
    | none => ({ node with currentDhcpIp := none, ipv4 := none }, [.dhcpIpv4Conflicted current])

end Instance

/-! ## The pool -/

namespace DhcpRange

variable {L : InetLib} {range : DhcpRange}

theorem contains_iff {ip : Ipv4Addr} :
    range.contains ip = true ↔ range.start.toNat ≤ ip.toNat ∧ ip.toNat ≤ range.end.toNat := by
  simp [contains, UInt32.le_iff_toNat_le]

theorem mem_addresses {ip : Ipv4Addr} : ip ∈ range.addresses ↔ range.contains ip = true := by
  rw [contains_iff, addresses, List.mem_map]
  constructor
  · intro h
    obtain ⟨k, hk, he⟩ := h
    obtain ⟨i, hi, hki⟩ := List.mem_range'.mp hk
    have hlt := range.end.toNat_lt
    have hv : ip.toNat = k := by
      rw [← he, UInt32.toNat_ofNat', Nat.mod_eq_of_lt (by omega)]
    omega
  · intro h
    refine ⟨ip.toNat, List.mem_range'.mpr ⟨ip.toNat - range.start.toNat, ?_, ?_⟩, ?_⟩
    · omega
    · omega
    · exact UInt32.ofNat_toNat

/-- An accepted end of the pool lies strictly between the ends of its network. -/
theorem validateEnd_ok {ip : Ipv4Addr} (h : range.validateEnd L ip = .ok ()) :
    L.firstAddress range.network < ip ∧ ip < L.lastAddress range.network := by
  unfold validateEnd at h
  split at h
  · cases h
  · next hin =>
    split at h
    · cases h
    · next hends =>
      rw [Bool.not_eq_true, Bool.not_eq_false', L.contains_iff] at hin
      rw [not_or] at hends
      rw [UInt32.le_iff_toNat_le, UInt32.le_iff_toNat_le] at hin
      rw [UInt32.lt_iff_toNat_lt, UInt32.lt_iff_toNat_lt]
      have hf : ip.toNat ≠ (L.firstAddress range.network).toNat :=
        fun he => hends.1 (UInt32.toNat_inj.mp he)
      have hl : ip.toNat ≠ (L.lastAddress range.network).toNat :=
        fun he => hends.2 (UInt32.toNat_inj.mp he)
      omega

theorem validate_ok (h : range.validate L = .ok ()) :
    range.validateEnd L range.start = .ok () ∧ range.validateEnd L range.end = .ok () := by
  unfold validate at h
  split at h
  · cases hs : range.validateEnd L range.start with
    | error e => rw [hs] at h; cases h
    | ok u => rw [hs] at h; exact ⟨rfl, h⟩
  · cases h

/-- So does every address of a valid pool. -/
theorem inner_of_contains (h : range.validate L = .ok ()) {ip : Ipv4Addr}
    (hc : range.contains ip = true) :
    L.firstAddress range.network < ip ∧ ip < L.lastAddress range.network := by
  obtain ⟨hs, he⟩ := validate_ok h
  have hstart := UInt32.lt_iff_toNat_lt.mp (validateEnd_ok hs).1
  have hend := UInt32.lt_iff_toNat_lt.mp (validateEnd_ok he).2
  obtain ⟨hlo, hhi⟩ := contains_iff.mp hc
  rw [UInt32.lt_iff_toNat_lt, UInt32.lt_iff_toNat_lt]
  omega

/-- The network of a valid pool contains the pool. -/
theorem network_of_contains (h : range.validate L = .ok ()) {ip : Ipv4Addr}
    (hc : range.contains ip = true) : L.contains (L.network range.network) ip = true := by
  obtain ⟨hlo, hhi⟩ := inner_of_contains h hc
  exact (L.contains_iff range.network ip).mpr ⟨UInt32.le_of_lt hlo, UInt32.le_of_lt hhi⟩

/-- A proposed address is one of the pool, with the pool's network length, that
nobody uses. -/
theorem candidate_some {used : List Ipv4Inet} {ip : Ipv4Inet} (h : range.candidate used = some ip) :
    range.contains ip.address = true ∧ ip.networkLength = range.network.networkLength ∧
      ∀ u ∈ used, u.address ≠ ip.address := by
  obtain ⟨a, ha, he⟩ := Option.map_eq_some_iff.mp h
  subst he
  refine ⟨mem_addresses.mp (List.mem_of_find?_eq_some ha), rfl, ?_⟩
  intro u hu heq
  have hfree := List.find?_some ha
  simp only [Bool.not_eq_true', List.contains_eq_mem, decide_eq_false_iff_not] at hfree
  apply hfree
  rw [← show u.address = a from heq]
  exact List.mem_map_of_mem hu

/-- Nothing is proposed only when the whole pool is in use. -/
theorem candidate_none {used : List Ipv4Inet} (h : range.candidate used = none) {ip : Ipv4Addr}
    (hc : range.contains ip = true) : ∃ u ∈ used, u.address = ip := by
  have hfind := List.find?_eq_none.mp (Option.map_eq_none_iff.mp h) ip (mem_addresses.mpr hc)
  simp only [Bool.not_eq_true', Bool.not_eq_false, List.contains_eq_mem,
    decide_eq_true_eq] at hfind
  exact List.mem_map.mp hfind

end DhcpRange

/-! ## One iteration under a valid range -/

namespace Instance

variable {L : InetLib} {range : DhcpRange} {routes : List (Option Ipv4Inet)} {node : DhcpNode}

/-- An iteration while the device stays open and every device can be opened. -/
def iteration (L : InetLib) (range : DhcpRange) (routes : List (Option Ipv4Inet))
    (node : DhcpNode) : DhcpNode :=
  (checkDhcpIpConflict L (some range) firstListed false (fun _ => true) routes node).1

/-- With a range, the order of the set of addresses in use plays no part. -/
theorem iteration_first (first : FirstOfSet) :
    (checkDhcpIpConflict L (some range) first false (fun _ => true) routes node).1
      = iteration L range routes node := rfl

/-- An address of the pool that nobody else uses passes the test. -/
theorem keeps_of_contains (hv : range.validate L = .ok ()) {first : FirstOfSet}
    {used : List Ipv4Inet} {ip : Ipv4Inet} (hc : range.contains ip.address = true)
    (hlen : ip.networkLength = range.network.networkLength)
    (hfree : ∀ u ∈ used, u.address ≠ ip.address) :
    keeps L (some range) first used ip = true := by
  have hnet : L.network ip = L.network range.network :=
    L.network_eq range.network ip hlen (DhcpRange.network_of_contains hv hc)
  have hany : used.any (fun u => u.address == ip.address) = false := by
    rw [List.any_eq_false]
    intro u hu
    simpa using hfree u hu
  simp [keeps, dhcpInet, hnet, hc, hany]

/-- A held address that passes the test stays. -/
theorem iteration_held {ip : Ipv4Inet} (hcur : node.currentDhcpIp = some ip)
    (hk : keeps L (some range) firstListed (routes.filterMap id) ip = true) :
    iteration L range routes node = node := by
  have hheld : ({ node with currentDhcpIp := some ip } : DhcpNode) = node := by rw [← hcur]
  unfold iteration checkDhcpIpConflict
  simp only [Bool.false_eq_true, if_false, hcur, hheld, Option.any_some, hk, if_true]
  split <;> rfl

/-- Without an address, a node takes the proposed one. -/
theorem iteration_free (hcur : node.currentDhcpIp = none) (hr : routes ≠ []) :
    iteration L range routes node =
      match range.candidate (routes.filterMap id) with
      | some ip => { node with currentDhcpIp := some ip, ipv4 := some ip }
      | none => node := by
  have hheld : ({ node with currentDhcpIp := none } : DhcpNode) = node := by rw [← hcur]
  have hempty : routes.isEmpty = false := by simpa using hr
  unfold iteration checkDhcpIpConflict
  simp only [Bool.false_eq_true, if_false, hcur, hheld, hempty, Option.any_none, candidate,
    Bool.or_true, if_true]
  cases range.candidate (routes.filterMap id) with
  | none => simp
  | some ip => simp

/-- And none as long as it sees no peer. -/
theorem iteration_alone (hcur : node.currentDhcpIp = none) :
    iteration L range [] node = node := by
  have hheld : ({ node with currentDhcpIp := none } : DhcpNode) = node := by rw [← hcur]
  unfold iteration checkDhcpIpConflict
  simp [hcur, hheld]

end Instance

/-! ## Any number of nodes in any order -/

/-- The nodes of a network. -/
abbrev DhcpNetwork (n : Nat) := Fin n → DhcpNode

namespace DhcpNetwork

variable {n : Nat} {L : InetLib} {range : DhcpRange}

/-- What a node sees of the others: the address each of them publishes. -/
def routes (net : DhcpNetwork n) (i : Fin n) : List (Option Ipv4Inet) :=
  ((List.finRange n).filter (fun j => j ≠ i)).map (fun j => (net j).ipv4)

/-- An iteration of node `i`; a static node runs none. -/
def turn (L : InetLib) (range : DhcpRange) (net : DhcpNetwork n) (i : Fin n) : DhcpNetwork n :=
  if (net i).dhcp then Function.update net i (Instance.iteration L range (net.routes i) (net i))
  else net

/-- Iterations of the nodes in a given order. -/
def run (L : InetLib) (range : DhcpRange) : DhcpNetwork n → List (Fin n) → DhcpNetwork n
  | net, [] => net
  | net, i :: order => run L range (turn L range net i) order

/-- Nobody holds a lease yet; what a node publishes is what it was configured
with. -/
def Fresh (net : DhcpNetwork n) : Prop := ∀ i, (net i).currentDhcpIp = none

/-- The leases are right: the address a node holds is the one it publishes, an
address of the pool, and nobody else's. A node without a lease publishes what it
was configured with. -/
structure Leased (range : DhcpRange) (net₀ net : DhcpNetwork n) : Prop where
  published : ∀ i a, (net i).currentDhcpIp = some a → (net i).ipv4 = some a
  configured : ∀ i, (net i).currentDhcpIp = none → (net i).ipv4 = (net₀ i).ipv4
  inRange : ∀ i a, (net i).currentDhcpIp = some a →
    range.contains a.address = true ∧ a.networkLength = range.network.networkLength
  distinct : ∀ i j a b, i ≠ j → (net i).currentDhcpIp = some a → (net j).ipv4 = some b →
    b.address ≠ a.address

theorem Fresh.leased {net : DhcpNetwork n} (h : Fresh net) : Leased range net net := by
  have hnone : ∀ i a, (net i).currentDhcpIp ≠ some a := by
    intro i a ha
    rw [h i] at ha
    cases ha
  constructor
  · intro i a ha
    exact absurd ha (hnone i a)
  · intro i _
    rfl
  · intro i a ha
    exact absurd ha (hnone i a)
  · intro i j a b _ ha
    exact absurd ha (hnone i a)

/-- The addresses in use for a node are those the others publish. -/
theorem mem_used {net : DhcpNetwork n} {i : Fin n} {u : Ipv4Inet} :
    u ∈ (net.routes i).filterMap id ↔ ∃ j, j ≠ i ∧ (net j).ipv4 = some u := by
  simp [routes]

/-- With a second node there is a route to see. -/
theorem routes_ne_nil (hn : 2 ≤ n) (net : DhcpNetwork n) (i : Fin n) : net.routes i ≠ [] := by
  have : Nontrivial (Fin n) := Fin.nontrivial_iff_two_le.mpr hn
  obtain ⟨j, hj⟩ := exists_ne i
  intro h
  have hm : (net j).ipv4 ∈ net.routes i := List.mem_map_of_mem (by simpa using hj)
  rw [h] at hm
  cases hm

/-- A lease passes its own test. -/
theorem Leased.keeps {net₀ net : DhcpNetwork n} (hv : range.validate L = .ok ())
    (h : Leased range net₀ net) {i : Fin n} {a : Ipv4Inet} (ha : (net i).currentDhcpIp = some a) :
    Instance.keeps L (some range) firstListed ((net.routes i).filterMap id) a = true := by
  obtain ⟨hc, hlen⟩ := h.inRange i a ha
  apply Instance.keeps_of_contains hv hc hlen
  intro u hu
  obtain ⟨j, hj, hpub⟩ := mem_used.mp hu
  exact h.distinct i j a u (Ne.symm hj) ha hpub

/-- What a turn does: nothing, or it gives a lease to a node without one. -/
theorem turn_cases {net₀ net : DhcpNetwork n} (hv : range.validate L = .ok ())
    (h : Leased range net₀ net) (i : Fin n) :
    turn L range net i = net ∨
      ∃ ip, (net i).currentDhcpIp = none ∧
        range.candidate ((net.routes i).filterMap id) = some ip ∧
        turn L range net i =
          Function.update net i { net i with currentDhcpIp := some ip, ipv4 := some ip } := by
  unfold turn
  by_cases hd : (net i).dhcp = true
  · rw [if_pos hd]
    cases hcur : (net i).currentDhcpIp with
    | some a =>
      left
      rw [Instance.iteration_held hcur (h.keeps hv hcur), Function.update_eq_self]
    | none =>
      cases hr : net.routes i with
      | nil =>
        left
        rw [Instance.iteration_alone hcur, Function.update_eq_self]
      | cons r rs =>
        rw [Instance.iteration_free hcur (by simp)]
        cases hc : range.candidate ((r :: rs).filterMap id) with
        | none =>
          left
          exact Function.update_eq_self i net
        | some ip => exact .inr ⟨ip, rfl, rfl, rfl⟩
  · rw [if_neg hd]
    exact .inl rfl

/-- A new lease is in the pool and differs from every address in use; the leases
of the other nodes differ from it because a lease is published. -/
theorem Leased.granted {net₀ net : DhcpNetwork n} (h : Leased range net₀ net)
    {i : Fin n} {ip : Ipv4Inet} (hcur : (net i).currentDhcpIp = none)
    (hip : range.candidate ((net.routes i).filterMap id) = some ip) :
    Leased range net₀
      (Function.update net i { net i with currentDhcpIp := some ip, ipv4 := some ip }) := by
  obtain ⟨hc, hlen, hfree⟩ := DhcpRange.candidate_some hip
  have hothers : ∀ j b, j ≠ i → (net j).ipv4 = some b → b.address ≠ ip.address := by
    intro j b hj hb
    exact hfree b (mem_used.mpr ⟨j, hj, hb⟩)
  constructor
  · intro j a ha
    by_cases hj : j = i
    · subst hj
      simp only [Function.update_self] at ha ⊢
      exact ha
    · simp only [Function.update_of_ne hj] at ha ⊢
      exact h.published j a ha
  · intro j hn
    by_cases hj : j = i
    · subst hj
      simp only [Function.update_self] at hn
      cases hn
    · simp only [Function.update_of_ne hj] at hn ⊢
      exact h.configured j hn
  · intro j a ha
    by_cases hj : j = i
    · subst hj
      simp only [Function.update_self, Option.some.injEq] at ha
      subst ha
      exact ⟨hc, hlen⟩
    · simp only [Function.update_of_ne hj] at ha
      exact h.inRange j a ha
  · intro j k a b hjk ha hb
    by_cases hj : j = i
    · subst hj
      simp only [Function.update_self, Option.some.injEq] at ha
      simp only [Function.update_of_ne (Ne.symm hjk)] at hb
      subst ha
      exact hothers k b (Ne.symm hjk) hb
    · simp only [Function.update_of_ne hj] at ha
      by_cases hk : k = i
      · subst hk
        simp only [Function.update_self, Option.some.injEq] at hb
        subst hb
        exact (hothers j a hj (h.published j a ha)).symm
      · simp only [Function.update_of_ne hk] at hb
        exact h.distinct j k a b hjk ha hb

/-- One turn keeps the leases right, -/
theorem Leased.turn {net₀ net : DhcpNetwork n} (hv : range.validate L = .ok ())
    (h : Leased range net₀ net) (i : Fin n) :
    Leased range net₀ (turn L range net i) := by
  rcases turn_cases hv h i with he | ⟨ip, hcur, hip, he⟩
  · rw [he]
    exact h
  · rw [he]
    exact h.granted hcur hip

/-- and so does a run of any length in any order. -/
theorem Leased.run {net₀ : DhcpNetwork n} (hv : range.validate L = .ok ()) :
    ∀ (order : List (Fin n)) {net : DhcpNetwork n}, Leased range net₀ net →
      Leased range net₀ (run L range net order)
  | [], _, h => h
  | i :: order, _, h => Leased.run hv order (h.turn hv i)

/-- A turn takes no lease away. -/
theorem turn_lease {net₀ net : DhcpNetwork n} (hv : range.validate L = .ok ())
    (h : Leased range net₀ net) (j : Fin n) {i : Fin n} {a : Ipv4Inet}
    (ha : (net i).currentDhcpIp = some a) : (turn L range net j i).currentDhcpIp = some a := by
  rcases turn_cases hv h j with he | ⟨ip, hcur, -, he⟩
  · rw [he, ha]
  · have hij : i ≠ j := by
      intro hij
      rw [hij, hcur] at ha
      cases ha
    rw [he, Function.update_of_ne hij, ha]

theorem run_lease {net₀ : DhcpNetwork n} (hv : range.validate L = .ok ())
    {i : Fin n} {a : Ipv4Inet} :
    ∀ (order : List (Fin n)) {net : DhcpNetwork n}, Leased range net₀ net →
      (net i).currentDhcpIp = some a → (run L range net order i).currentDhcpIp = some a
  | [], _, _, ha => ha
  | j :: order, _, h, ha => run_lease hv order (h.turn hv j) (turn_lease hv h j ha)

/-- A node that looks for a lease and goes without one has seen the whole pool in
use. -/
theorem turn_without {net₀ net : DhcpNetwork n} (hv : range.validate L = .ok ())
    (h : Leased range net₀ net) (hn : 2 ≤ n) {i : Fin n} (hd : (net i).dhcp = true)
    (hnone : (turn L range net i i).currentDhcpIp = none) {ip : Ipv4Addr}
    (hip : range.contains ip = true) :
    ∃ j b, j ≠ i ∧ (net j).ipv4 = some b ∧ b.address = ip := by
  have hcur : (net i).currentDhcpIp = none := by
    cases hc : (net i).currentDhcpIp with
    | none => rfl
    | some a =>
      rw [turn_lease hv h i hc] at hnone
      cases hnone
  have hcand : range.candidate ((net.routes i).filterMap id) = none := by
    rw [turn, if_pos hd, Function.update_self,
      Instance.iteration_free hcur (routes_ne_nil hn net i)] at hnone
    cases hc : range.candidate ((net.routes i).filterMap id) with
    | none => rfl
    | some a =>
      rw [hc] at hnone
      cases hnone
  obtain ⟨u, hu, he⟩ := DhcpRange.candidate_none hcand hip
  obtain ⟨j, hj, hpub⟩ := mem_used.mp hu
  exact ⟨j, u, hj, hpub, he⟩

/-- Over every run of any number of nodes: leases are addresses of the pool, no two
nodes publish the same one and no static address is one; a lease once held is held
for good; and who goes without a lease has seen the pool exhausted. -/
theorem leases_unique (L : InetLib) (range : DhcpRange) (hv : range.validate L = .ok ()) (hn : 2 ≤ n)
    (net₀ : DhcpNetwork n) (h₀ : Fresh net₀) (order : List (Fin n)) :
    let net := run L range net₀ order
    (∀ i a, (net i).currentDhcpIp = some a →
      (net i).ipv4 = some a ∧ range.contains a.address = true ∧
        a.networkLength = range.network.networkLength) ∧
    (∀ i, (net i).currentDhcpIp = none → (net i).ipv4 = (net₀ i).ipv4) ∧
    (∀ i j a b, i ≠ j → (net i).currentDhcpIp = some a → (net j).ipv4 = some b →
      a.address ≠ b.address) ∧
    (∀ i a later, (net i).currentDhcpIp = some a →
      (run L range net later i).currentDhcpIp = some a ∧ (run L range net later i).ipv4 = some a) ∧
    (∀ i, (net i).dhcp = true → (turn L range net i i).currentDhcpIp = none →
      ∀ ip, range.contains ip = true → ∃ j b, j ≠ i ∧ (net j).ipv4 = some b ∧ b.address = ip) := by
  intro net
  have h : Leased range net₀ net := Leased.run hv order h₀.leased
  refine ⟨?_, h.configured, ?_, ?_, ?_⟩
  · intro i a ha
    exact ⟨h.published i a ha, h.inRange i a ha⟩
  · intro i j a b hij ha hb
    exact (h.distinct i j a b hij ha hb).symm
  · intro i a later ha
    have hlater := run_lease hv later h ha
    exact ⟨hlater, (h.run hv later).published i a hlater⟩
  · intro i hd hnone ip hip
    exact turn_without hv h hn hd hnone hip

/-- A pool of two addresses, a static node and two clients; the second client's
first turn comes before the first client's. -/
def homePool : DhcpRange := ⟨⟨0x0A0A0000, 24, by decide⟩, 0x0A0A000B, 0x0A0A000C⟩

def homeNetwork : DhcpNetwork 3 := fun i =>
  if i = 0 then ⟨false, true, none, some ⟨0x0A0A0001, 24, by decide⟩⟩
  else ⟨true, false, none, none⟩

theorem leases_unique_home :
    (run maskedInets homePool homeNetwork [2, 1] 2).currentDhcpIp = some ⟨0x0A0A000B, 24, by decide⟩ ∧
    (run maskedInets homePool homeNetwork [2, 1] 1).currentDhcpIp = some ⟨0x0A0A000C, 24, by decide⟩ ∧
    ∀ later, (run maskedInets homePool (run maskedInets homePool homeNetwork [2, 1]) later 1).ipv4 =
      some ⟨0x0A0A000C, 24, by decide⟩ := by
  have hfresh : Fresh homeNetwork := by
    unfold Fresh
    decide
  obtain ⟨-, -, -, hkept, -⟩ :=
    leases_unique maskedInets homePool (by decide) (by decide) homeNetwork hfresh [2, 1]
  have hlease : (run maskedInets homePool homeNetwork [2, 1] 1).currentDhcpIp =
      some ⟨0x0A0A000C, 24, by decide⟩ := by decide +kernel
  refine ⟨by decide +kernel, hlease, ?_⟩
  intro later
  exact (hkept 1 _ later hlease).2

end DhcpNetwork

end EasyTierHost
