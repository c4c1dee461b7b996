import EasyTierHost.Instance.Dhcp

/- The DHCP loop with the device it drives. An iteration that changes the address first
   replaces the NIC context by one that only consumes packets, and installs a new one
   when the device has opened. If the device does not open, the iteration takes the
   published address back, as it does when the pool is exhausted; but unlike there it
   keeps the lease it had. The lease then stands for an address that is neither
   published nor on a device, and once the conflict is gone the loop finds it free and
   is content with it. -/
namespace EasyTierHost

/-- What `nic_ctx` holds: nothing yet, tasks that consume the packets, or a device opened
under an address, if it has any. -/
inductive NicContext where
  | empty
  | mock
  | device (ipv4 : Option Ipv4Inet)
  deriving DecidableEq, Repr

/-- The loop's own state and its device. -/
structure DhcpLoop where
  node : DhcpNode
  nic : NicContext
  deriving DecidableEq, Repr

/-- What an iteration meets: the addresses of the routes, the order of the set they are put
in, and whether a device opens under an address. -/
structure DhcpView where
  routes : List (Option Ipv4Inet)
  first : FirstOfSet
  opens : Ipv4Inet → Bool

/-- The addresses in use. -/
def DhcpView.used (v : DhcpView) : List Ipv4Inet := v.routes.filterMap id

namespace Instance

/-- The loop body of `check_dhcp_ip_conflict` with the NIC context. -/
def dhcpIteration (L : InetLib) (range : Option DhcpRange) (closed : Bool) (v : DhcpView)
    (s : DhcpLoop) : DhcpLoop :=
  let current := if closed then none else s.node.currentDhcpIp
  let s := { s with node := { s.node with currentDhcpIp := current } }
  if v.routes.isEmpty then s
  else if current.any (keeps L range v.first v.used) then s
  else if current = candidate L range v.first v.used then s
  else
    -- clear_nic_ctx
    let s := { s with nic := .mock }
    match candidate L range v.first v.used with
    | some ip =>
      if s.node.noTun then
        { s with node := { s.node with currentDhcpIp := some ip, ipv4 := some ip } }
      else if v.opens ip then
        { nic := .device (some ip), node := { s.node with currentDhcpIp := some ip, ipv4 := some ip } }
      else { s with node := { s.node with ipv4 := none } }
    | none => { s with node := { s.node with currentDhcpIp := none, ipv4 := none } }

/-- The device follows the node and does not change what the loop does with it. -/
theorem dhcpIteration_node (L : InetLib) (range : Option DhcpRange) (closed : Bool) (v : DhcpView)
    (s : DhcpLoop) : (dhcpIteration L range closed v s).node
      = (checkDhcpIpConflict L range v.first closed v.opens v.routes s.node).1 := by
  unfold dhcpIteration checkDhcpIpConflict DhcpView.used
  by_cases hempty : v.routes.isEmpty = true
  · simp only [hempty, if_true]
  by_cases hkept : (if closed = true then none else s.node.currentDhcpIp).any
      (keeps L range v.first (v.routes.filterMap id)) = true
  · simp only [hempty, hkept, if_true, Bool.false_eq_true, if_false]
  by_cases hsame : (if closed = true then none else s.node.currentDhcpIp)
      = candidate L range v.first (v.routes.filterMap id)
  · simp only [hempty, hkept, if_pos hsame, Bool.false_eq_true, if_false]
  · simp only [hempty, hkept, if_neg hsame, Bool.false_eq_true, if_false]
    cases candidate L range v.first (v.routes.filterMap id) with
    | none => rfl
    | some ip =>
      cases hno : s.node.noTun with
      | true => rfl
      | false =>
        cases ho : v.opens ip with
        | true => simp [ho]
        | false => simp [ho]

end Instance

/-! ## One iteration -/

namespace DhcpLoop
variable {L : InetLib} {range : DhcpRange} {v : DhcpView} {s : DhcpLoop}

/-- The lease is published, and the device that was opened for it is installed. -/
def Agrees (s : DhcpLoop) : Prop :=
  ∀ ip, s.node.currentDhcpIp = some ip → s.node.ipv4 = some ip ∧ s.nic = .device (some ip)

/-- The lease cannot be kept, and no device opens under the address chosen instead. -/
def LosesDevice (L : InetLib) (range : DhcpRange) (v : DhcpView) (s : DhcpLoop) : Prop :=
  v.routes ≠ [] ∧ ∃ lease ip, s.node.currentDhcpIp = some lease ∧
    Instance.keeps L (some range) v.first v.used lease = false ∧
    range.candidate v.used = some ip ∧ ip ≠ lease ∧ v.opens ip = false

/-- An iteration with the NIC-closed notification not pending. -/
def step (L : InetLib) (range : DhcpRange) (v : DhcpView) (s : DhcpLoop) : DhcpLoop :=
  Instance.dhcpIteration L (some range) false v s

/-- The exits of the loop body: the state stays; a device is opened under a new address;
none opens, and the lease stays; the pool is exhausted. -/
theorem step_cases (L : InetLib) (range : DhcpRange) (v : DhcpView) (s : DhcpLoop) (htun : s.node.noTun = false) :
    (step L range v s = s ∧ ¬LosesDevice L range v s) ∨
    (∃ ip, step L range v s
        = ⟨{ s.node with currentDhcpIp := some ip, ipv4 := some ip }, .device (some ip)⟩ ∧
      ¬LosesDevice L range v s) ∨
    (step L range v s = ⟨{ s.node with ipv4 := none }, .mock⟩ ∧
      (s.node.currentDhcpIp = none ∨ LosesDevice L range v s)) ∨
    (step L range v s = ⟨{ s.node with currentDhcpIp := none, ipv4 := none }, .mock⟩ ∧
      ¬LosesDevice L range v s) := by
  unfold step Instance.dhcpIteration
  by_cases hempty : v.routes.isEmpty = true
  · refine .inl ⟨by simp only [hempty, if_true]; rfl, ?_⟩
    exact fun hl => hl.1 (List.isEmpty_iff.mp hempty)
  have hne : v.routes ≠ [] := fun h => hempty (List.isEmpty_iff.mpr h)
  by_cases hkept : s.node.currentDhcpIp.any (Instance.keeps L (some range) v.first v.used) = true
  · refine .inl ⟨by simp only [hempty, hkept, Bool.false_eq_true, if_false, if_true], ?_⟩
    intro hl
    obtain ⟨-, lease, ip, hlease, hk, -⟩ := hl
    rw [hlease, Option.any_some, hk] at hkept
    exact Bool.noConfusion hkept
  by_cases hsame : s.node.currentDhcpIp = Instance.candidate L (some range) v.first v.used
  · refine .inl ⟨by simp only [hempty, hkept, Bool.false_eq_true, if_false, if_pos hsame], ?_⟩
    intro hl
    obtain ⟨-, lease, ip, hlease, -, hcand, hip, -⟩ := hl
    rw [hlease] at hsame
    exact hip (Option.some.inj (hcand.symm.trans hsame.symm))
  simp only [hempty, hkept, Bool.false_eq_true, if_false, if_neg hsame, htun]
  cases hcand : Instance.candidate L (some range) v.first v.used with
  | none =>
    refine .inr (.inr (.inr ⟨rfl, ?_⟩))
    intro hl
    obtain ⟨-, lease, ip, -, -, hc, -⟩ := hl
    rw [show Instance.candidate L (some range) v.first v.used = range.candidate v.used from rfl, hc] at hcand
    cases hcand
  | some ip =>
    cases ho : v.opens ip with
    | true =>
      refine .inr (.inl ⟨ip, by simp only [ho, if_true], ?_⟩)
      intro hl
      obtain ⟨-, lease, other, -, -, hc, -, hfails⟩ := hl
      have hother : other = ip := Option.some.inj (hc.symm.trans hcand)
      rw [hother, ho] at hfails
      exact Bool.noConfusion hfails
    | false =>
      refine .inr (.inr (.inl ⟨by simp only [ho, Bool.false_eq_true, if_false], ?_⟩))
      cases hlease : s.node.currentDhcpIp with
      | none => exact .inl rfl
      | some lease =>
        refine .inr ⟨hne, lease, ip, hlease, ?_, hcand, ?_, ho⟩
        · rw [hlease, Option.any_some] at hkept
          simpa using hkept
        · intro he
          rw [hlease, hcand, he] at hsame
          exact hsame rfl

theorem step_noTun (htun : s.node.noTun = false) : (step L range v s).node.noTun = false := by
  rcases step_cases L range v s htun with h | h | h | h
  · rw [h.1]
    exact htun
  · obtain ⟨ip, heq, -⟩ := h
    rw [heq]
    exact htun
  · rw [h.1]
    exact htun
  · rw [h.1]
    exact htun

/-- One iteration keeps lease, address and device together exactly if it does not lose
the device. -/
theorem step_agrees_iff (htun : s.node.noTun = false) (h : s.Agrees) :
    (step L range v s).Agrees ↔ ¬LosesDevice L range v s := by
  rcases step_cases L range v s htun with hstay | hgrant | hfail | hfull
  · rw [hstay.1]
    exact iff_of_true h hstay.2
  · obtain ⟨ip, heq, hkept⟩ := hgrant
    rw [heq]
    refine iff_of_true (fun other hother => ?_) hkept
    have hip : ip = other := Option.some.inj hother
    rw [hip]
    exact ⟨rfl, rfl⟩
  · obtain ⟨heq, hlost⟩ := hfail
    rw [heq]
    rcases hlost with hnone | hlost
    · refine iff_of_true (fun ip hip => ?_) (fun hl => ?_)
      · exact absurd (hnone.symm.trans hip) (by simp)
      · obtain ⟨-, lease, -, hlease, -⟩ := hl
        exact absurd (hnone.symm.trans hlease) (by simp)
    · refine iff_of_false (fun hag => ?_) (fun hno => hno hlost)
      obtain ⟨-, lease, -, hlease, -⟩ := hlost
      have hpub := (hag lease hlease).1
      cases hpub
  · rw [hfull.1]
    refine iff_of_true (fun ip hip => ?_) hfull.2
    cases hip

/-! ## Runs -/

/-- Iterations in a row. -/
def run (L : InetLib) (range : DhcpRange) (s : DhcpLoop) (views : List DhcpView) : DhcpLoop :=
  views.foldl (fun s v => step L range v s) s

theorem run_take_succ {views : List DhcpView} {k : Nat} (hv : views[k]? = some v) :
    run L range s (views.take (k + 1)) = step L range v (run L range s (views.take k)) := by
  rw [run, List.take_add_one, hv, List.foldl_append]
  rfl

theorem run_noTun (views : List DhcpView) :
    ∀ {s : DhcpLoop}, s.node.noTun = false → (run L range s views).node.noTun = false := by
  induction views with
  | nil => exact fun h => h
  | cons v views ih => exact fun h => ih (step_noTun h)

/-- At every loop head the lease agrees with what is published exactly if no iteration so
far has lost the device; and where the two agree, an iteration that keeps the lease leaves
the node its address. -/
theorem run_agrees_iff (L : InetLib) (range : DhcpRange) (s : DhcpLoop) (htun : s.node.noTun = false)
    (hfresh : s.node.currentDhcpIp = none) (views : List DhcpView) :
    ((∀ k, (run L range s (views.take k)).Agrees) ↔
      ∀ k v, views[k]? = some v → ¬LosesDevice L range v (run L range s (views.take k))) ∧
    ∀ k v ip, (run L range s (views.take k)).Agrees →
      (run L range s (views.take k)).node.currentDhcpIp = some ip →
      Instance.keeps L (some range) v.first v.used ip = true →
      (step L range v (run L range s (views.take k))).node.ipv4 = some ip := by
  refine ⟨⟨fun h k v hv => ?_, fun h k => ?_⟩, fun k v ip hag hip hkeeps => ?_⟩
  · have hnext := h (k + 1)
    rw [run_take_succ hv] at hnext
    exact (step_agrees_iff (run_noTun _ htun) (h k)).mp hnext
  · induction k with
    | zero =>
      intro ip hip
      exact absurd (hfresh.symm.trans hip) (by simp)
    | succ k ih =>
      cases hv : views[k]? with
      | none =>
        rw [List.getElem?_eq_none_iff] at hv
        rw [List.take_of_length_le hv] at ih
        rw [List.take_of_length_le (by omega)]
        exact ih
      | some v =>
        rw [run_take_succ hv]
        exact (step_agrees_iff (run_noTun _ htun) ih).mpr (h k v hv)
  · have hstay : step L range v (run L range s (views.take k)) = run L range s (views.take k) := by
      generalize run L range s (views.take k) = t at hip
      unfold step Instance.dhcpIteration
      simp only [hip, Option.any_some, hkeeps, Bool.false_eq_true, if_false, if_true]
      rw [← hip]
      split
      · rfl
      · rfl
    rw [hstay]
    exact (hag ip hip).1

/-! ## A device that does not open -/

/-- A client that has the first address of the pool sees it used by another node, fails to
open a device under the second, and then sees the first free again. -/
def conflictViews : List DhcpView :=
  [⟨[some ⟨0x0A0A0001, 24, Ipv4Inet.bound_24⟩], firstListed, fun _ => true⟩,
   ⟨[some ⟨0x0A0A000B, 24, Ipv4Inet.bound_24⟩], firstListed, fun _ => false⟩,
   ⟨[some ⟨0x0A0A0001, 24, Ipv4Inet.bound_24⟩], firstListed, fun _ => true⟩]

def freshLoop : DhcpLoop := ⟨⟨true, false, none, none⟩, .mock⟩

/-- It keeps the first address, which is on no device and published nowhere. -/
theorem lease_without_address :
    (run maskedInets DhcpNetwork.homePool freshLoop conflictViews).node.currentDhcpIp
      = some ⟨0x0A0A000B, 24, Ipv4Inet.bound_24⟩ ∧
    (run maskedInets DhcpNetwork.homePool freshLoop conflictViews).node.ipv4 = none ∧
    (run maskedInets DhcpNetwork.homePool freshLoop conflictViews).nic = .mock ∧
    ¬∀ k, (run maskedInets DhcpNetwork.homePool freshLoop (conflictViews.take k)).Agrees := by
  have hlease : (run maskedInets DhcpNetwork.homePool freshLoop conflictViews).node.currentDhcpIp
      = some ⟨0x0A0A000B, 24, Ipv4Inet.bound_24⟩ := by decide +kernel
  have hpub : (run maskedInets DhcpNetwork.homePool freshLoop conflictViews).node.ipv4 = none := by decide +kernel
  refine ⟨hlease, hpub, by decide +kernel, fun hall => ?_⟩
  have hag := (hall 3 ⟨0x0A0A000B, 24, Ipv4Inet.bound_24⟩ hlease).1
  rw [show run maskedInets DhcpNetwork.homePool freshLoop (conflictViews.take 3)
    = run maskedInets DhcpNetwork.homePool freshLoop conflictViews from rfl, hpub] at hag
  cases hag

/-- Before the device that does not open, the lease agrees with what is published. -/
theorem first_lease_agrees :
    (run maskedInets DhcpNetwork.homePool freshLoop ((conflictViews.take 1).take 1)).Agrees := by
  refine (run_agrees_iff maskedInets DhcpNetwork.homePool freshLoop rfl rfl (conflictViews.take 1)).1.mpr ?_ 1
  intro k v hv hlost
  obtain ⟨-, lease, ip, hlease, -⟩ := hlost
  cases k with
  | zero => cases hlease
  | succ k => cases hv

end DhcpLoop

end EasyTierHost
