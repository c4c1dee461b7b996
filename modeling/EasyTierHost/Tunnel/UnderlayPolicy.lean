import EasyTierHost.Tunnel.Socket

/- underlay_policy.rs, with `bind` of common.rs, which asks it: once a physical
   source is installed, an underlay socket is bound to it and to its device. The
   policy is kept by two functions that look at the requested address, by the flag
   `bind` puts on an IPv6 socket and by the loop over the addresses of a lookup.
   The network namespace a socket is made in is not modelled: it decides what the
   system replies, and the replies are arbitrary. -/
namespace EasyTierHost
open Effects Effects.Prog

/-- `UnderlayBindingPolicy::resolve`. -/
def UnderlayBindingPolicy.resolve (policy : UnderlayBindingPolicy) (requested : SocketAddr) :
    Except IoError (SocketAddr × BindDev) :=
  -- local RPC and IPv6 retain their own routing
  if requested.ip.isLoopback || requested.isIpv6 then .ok (requested, .auto)
  else if !requested.ip.isUnspecified && requested.ip != .v4 policy.sourceIpv4 then
    .error (.addrNotAvailable "underlay socket requested a different source interface")
  else .ok (⟨.v4 policy.sourceIpv4, requested.port⟩, .custom policy.bindDevice)

namespace UnderlayPolicy

/-- `initialize`: the source is checked and its device looked up, and the cell is
set once. -/
def initializePolicy (target : TargetOs) (sourceIpv4 : Ipv4Addr) : TunnelM Unit := do
  refuse (target = .other) (.message "underlay binding is supported on Windows/Linux only")
  refuse (sourceIpv4.isUnspecified || sourceIpv4.isLoopback || sourceIpv4.isMulticast ||
    sourceIpv4 == Ipv4Addr.broadcast) (.message "invalid underlay IPv4 source")
  match ← getInterfaceNameByIp (.v4 sourceIpv4) with
  | none => throw (.message "underlay source is not assigned to a local interface")
  | some bindDevice =>
    match ← get with
    | none => set (some (UnderlayBindingPolicy.mk sourceIpv4 bindDevice))
    | some _ => throw (.message "underlay binding policy is immutable; restart Core to rebind")

/-- `resolve`. -/
def resolve (requested : SocketAddr) (original : BindDev) : TunnelM (SocketAddr × BindDev) := do
  match ← get with
  | some policy =>
    if requested.isIpv4 && !requested.ip.isLoopback then ofExcept (policy.resolve requested)
    else pure (requested, original)
  | none => pure (requested, original)

section
variable (target : TargetOs)

/-- `bind`, behind the resolution of the address. -/
def bindResolved (b : Bindable) (addr : SocketAddr) (dev : BindDev) (onlyV6 : Bool) :
    TunnelM Socket := do
  let dev ← (match dev with
    | .auto => getInterfaceNameByIp addr.ip
    | .disabled => pure none
    | .custom name => pure (some name))
  let fresh : Socket := { ipv6 := addr.isIpv6, type := b.type }
  let s ← Socket.call .new fresh fresh
  let s ← setupSocket2Ext target s addr dev onlyV6
  b.finalize s

/-- `common::bind`. -/
def bind (b : Bindable) (addr : SocketAddr) (dev : BindDev) (onlyV6 underlay : Bool) :
    TunnelM Socket := do
  let r ← (if underlay then resolve addr dev else pure (addr, dev))
  let policy ← get
  -- a dual-stack IPv6 socket must not bypass the IPv4 source policy
  bindResolved target b r.1 r.2 (onlyV6 || (underlay && policy.isSome && r.1.isIpv6))

/-- The loop of `bind_udp`. -/
def bindFirst (error : IoError) : List SocketAddr → TunnelM Socket
  | [] => throw error
  | addr :: rest =>
    tryCatch (bind target .udpSocket addr .auto false true) (fun e => bindFirst (.other e) rest)

/-- `bind_udp`, with what `lookup_host` finds. -/
def bindUdp (lookup : Except IoError (List SocketAddr)) : TunnelM Socket := do
  match ← get with
  | none => Socket.runtime
  | some _ =>
    let addresses ← ofExcept lookup
    bindFirst target (.addrNotAvailable "no suitable underlay address") addresses

/-- `0.0.0.0:0` or `[::]:0`, whichever the destination can be reached from. -/
def unspecifiedFor (destination : SocketAddr) : SocketAddr :=
  if destination.isIpv4 then ⟨.v4 0, 0⟩ else ⟨.v6 0, 0⟩

/-- `connect_tcp`. -/
def connectTcp (destination : SocketAddr) : TunnelM Socket := do
  let policy ← get
  if policy.isNone || destination.ip.isLoopback then Socket.runtime
  else do
    let s ← tryCatch (bind target .tcpSocket (unspecifiedFor destination) .auto false true)
      (fun e => throw (.other e))
    Socket.call (.connect destination) s s

end

/-! ## The installed policy -/

/-- What `initialize` checks of a policy and of the target. -/
structure Usable (target : TargetOs) (p : UnderlayBindingPolicy) : Prop where
  target : target ≠ .other
  specified : p.sourceIpv4.isUnspecified = false
  loopback : p.sourceIpv4.isLoopback = false
  multicast : p.sourceIpv4.isMulticast = false
  broadcast : p.sourceIpv4 ≠ Ipv4Addr.broadcast

/-- A run of `initialize` that succeeds leaves the policy. -/
def Installed (target : TargetOs) (p : UnderlayBindingPolicy) : Prop :=
  ∃ source script w₀, (initializePolicy target source script w₀).result = .ok () ∧
    (initializePolicy target source script w₀).world = some p

theorem initializePolicy_runs (target : TargetOs) (source : Ipv4Addr) (w₀ : Option UnderlayBindingPolicy) :
    Freely (initializePolicy target source) (fun _ w => ∀ p, w = some p → Usable target p)
      (fun _ _ => True) w₀ := by
  unfold initializePolicy
  apply Runs.bind
  refine Runs.refuse ?_ (fun _ => trivial)
  intro htarget
  apply Runs.bind
  refine Runs.refuse ?_ (fun _ => trivial)
  intro hsource
  simp only [Bool.or_eq_true, not_or, Bool.not_eq_true, beq_eq_false_iff_ne] at hsource
  obtain ⟨⟨⟨hspecified, hloopback⟩, hmulticast⟩, hbroadcast⟩ := hsource
  apply Runs.bind
  refine Runs.mono Runs.trivially ?_ (fun _ _ _ => trivial)
  intro name w _
  cases name with
  | none => exact Runs.throw trivial
  | some bindDevice =>
    apply Runs.bind
    apply Runs.get
    cases w with
    | some p => exact Runs.throw trivial
    | none =>
      intro s hs
      refine ⟨fun _ hm => absurd hm List.not_mem_nil, ?_, hs⟩
      intro p hp
      cases hp
      exact ⟨htarget, hspecified, hloopback, hmulticast, hbroadcast⟩

theorem Installed.usable {target : TargetOs} {p : UnderlayBindingPolicy} (h : Installed target p) :
    Usable target p := by
  obtain ⟨source, script, w₀, hresult, hworld⟩ := h
  obtain ⟨-, hends, -⟩ := initializePolicy_runs target source w₀ script (fun _ => trivial)
  rw [hresult] at hends
  exact hends p hworld

/-! ## Where the sockets can send from -/

/-- An IPv4 address a socket can send from. One that is bound to no address of its
own may get any, and so may one of both domains. -/
def ipv4Source (s : Socket) (a : Ipv4Addr) : Prop :=
  match s.ipv6, s.bound with
  | true, _ => s.onlyV6 = false
  | false, some ⟨.v4 b, _⟩ => b.isUnspecified = true ∨ a = b
  | false, _ => True

/-- The three kinds of sockets the policy lets through. -/
inductive Permitted (p : UnderlayBindingPolicy) (requested : SocketAddr) (s : Socket) : Prop where
  | physical (domain : s.ipv6 = false)
      (bound : s.bound = some ⟨.v4 p.sourceIpv4, requested.port⟩)
      (device : s.device = some p.bindDevice)
  | loopback (domain : s.ipv6 = false) (ip : Ipv4Addr) (isIpv4 : requested.ip = .v4 ip)
      (isLoopback : ip.isLoopback = true) (bound : s.bound = some requested)
  | onlyV6 (domain : s.ipv6 = true) (flag : s.onlyV6 = true)

/-- And they have no other IPv4 source. -/
structure Confined (p : UnderlayBindingPolicy) (requested : SocketAddr) (s : Socket) : Prop where
  permitted : Permitted p requested s
  sources : ∀ a, ipv4Source s a → a = p.sourceIpv4 ∨ requested.ip = .v4 a ∧ a.isLoopback = true

variable {target : TargetOs} {p : UnderlayBindingPolicy}

theorem Permitted.confined (hp : Usable target p) {requested : SocketAddr} {s : Socket}
    (h : Permitted p requested s) : Confined p requested s := by
  refine ⟨h, ?_⟩
  intro a ha
  cases h with
  | physical hdomain hbound hdevice =>
    simp only [ipv4Source, hdomain, hbound, hp.specified, Bool.false_eq_true, false_or] at ha
    exact .inl ha
  | loopback hdomain ip hip hloopback hbound =>
    obtain ⟨address, port⟩ := requested
    cases hip
    have hspecified : ip.isUnspecified = false := by
      cases hu : ip.isUnspecified with
      | false => rfl
      | true =>
        rw [Ipv4Addr.isUnspecified, beq_iff_eq] at hu
        rw [hu] at hloopback
        exact absurd hloopback (by decide)
    simp only [ipv4Source, hdomain, hbound, hspecified, Bool.false_eq_true, false_or] at ha
    exact .inr ⟨by rw [ha], by rw [ha]; exact hloopback⟩
  | onlyV6 hdomain hflag =>
    simp only [ipv4Source, hdomain, hflag] at ha
    cases ha

/-- What the resolution makes of a request. -/
theorem resolve_runs {I : Moment SocketEvent (Option UnderlayBindingPolicy) → Prop}
    {requested : SocketAddr} {original : BindDev} :
    Runs (fun _ => True) I (resolve requested original) (fun r w => w = some p ∧
      (r = (⟨.v4 p.sourceIpv4, requested.port⟩, .custom p.bindDevice) ∨
        r = (requested, original) ∧ (requested.isIpv4 = true → requested.ip.isLoopback = true)))
      (fun _ w => w = some p) (some p) := by
  unfold resolve
  apply Runs.bind
  apply Runs.get
  refine Runs.ite ?_ ?_
  · intro hforeign
    simp only [Bool.and_eq_true, Bool.not_eq_true'] at hforeign
    have hkept : (requested.ip.isLoopback || requested.isIpv6) = false := by
      rw [hforeign.2, SocketAddr.isIpv6, hforeign.1]
      rfl
    refine Runs.ofExcept ?_ (fun _ _ => rfl)
    intro r hr
    unfold UnderlayBindingPolicy.resolve at hr
    rw [if_neg (by rw [hkept]; exact Bool.false_ne_true)] at hr
    split at hr
    next => cases hr
    next => cases hr; exact ⟨rfl, .inl rfl⟩
  · intro hown
    refine Runs.pure ⟨rfl, .inr ⟨rfl, ?_⟩⟩
    intro hv4
    simpa [hv4] using hown

/-- The rest of `bind` makes a socket of the resolved address. -/
theorem bindResolved_makes {P : Socket → Prop} {w : Option UnderlayBindingPolicy} {b : Bindable}
    {addr : SocketAddr} {dev : BindDev} {onlyV6 : Bool}
    (hP : ∀ found s, (∀ name, dev = .custom name → found = some name) →
      SetUp target addr.isIpv6 addr found onlyV6 s → P s) :
    Makes P (bindResolved target b addr dev onlyV6) P w := by
  unfold bindResolved
  refine Runs.seq (P := fun found w' => w' = w ∧ ∀ name, dev = .custom name → found = some name) ?_ ?_
  · cases dev with
    | auto =>
      unfold getInterfaceNameByIp
      refine Runs.ite (fun _ => Runs.pure ⟨rfl, fun _ h => by cases h⟩) ?_
      intro _
      apply Runs.bind
      apply Runs.ask
      intro r _
      exact Runs.pure ⟨rfl, fun _ h => by cases h⟩
    | disabled => exact Runs.pure ⟨rfl, fun _ h => by cases h⟩
    | custom name => exact Runs.pure ⟨rfl, fun _ h => by cases h; rfl⟩
  · intro found w' h
    obtain ⟨rfl, hfound⟩ := h
    refine Makes.bind (Q := fun s => s = { ipv6 := addr.isIpv6, type := b.type })
      (Makes.call rfl (fun h => absurd h (by decide))) ?_
    intro s he
    subst he
    refine Makes.bind (setupSocket2Ext_makes rfl) ?_
    intro s hs
    have hPs := hP found s hfound hs
    refine Makes.mono (finalize_makes hPs b) ?_
    intro s' he
    rw [he]
    exact hPs

/-- `bind` with the policy installed. -/
theorem bind_makes (hp : Usable target p) (b : Bindable) (addr : SocketAddr) (dev : BindDev)
    (onlyV6 : Bool) :
    Makes (Confined p addr) (bind target b addr dev onlyV6 true) (Confined p addr) (some p) := by
  unfold bind
  refine Runs.seq resolve_runs ?_
  intro r w h
  obtain ⟨rfl, hr⟩ := h
  apply Runs.bind
  apply Runs.get
  apply bindResolved_makes
  intro found s hfound hset
  apply Permitted.confined hp
  cases hr with
  | inl hr =>
    rw [hr] at hfound hset
    exact .physical hset.domain (hset.bound rfl)
      (hset.device _ (hfound _ rfl) hp.target hp.specified)
  | inr hr =>
    obtain ⟨hr, hloopback⟩ := hr
    rw [hr] at hset
    cases hv4 : addr.isIpv4 with
    | true =>
      obtain ⟨ip, hip⟩ := addr.exists_v4 hv4
      have hl := hloopback hv4
      rw [hip] at hl
      have hdomain : s.ipv6 = false := by
        rw [hset.domain, SocketAddr.isIpv6, hv4]
        rfl
      exact .loopback hdomain ip hip hl (hset.bound hv4)
    | false =>
      -- the policy sets the flag, whatever was asked for
      have hv6 : addr.isIpv6 = true := by
        rw [SocketAddr.isIpv6, hv4]
        rfl
      have hflag := hset.flag hv6
      simp only [hv6, Option.isSome_some, Bool.and_true, Bool.or_true] at hflag
      exact .onlyV6 (hset.domain.trans hv6) hflag

/-- Some address of the list is the one the socket was made for. -/
theorem bindFirst_makes (hp : Usable target p) (all : List SocketAddr) :
    ∀ (addresses : List SocketAddr) (error : IoError), (∀ a ∈ addresses, a ∈ all) →
      Makes (fun s => ∃ a ∈ all, Confined p a s) (bindFirst target error addresses)
        (fun s => ∃ a ∈ all, Confined p a s) (some p)
  | [], _, _ => Makes.throw
  | addr :: rest, _, hall => by
    have hmem : addr ∈ all := hall addr List.mem_cons_self
    have hbind := bind_makes hp .udpSocket addr .auto false
    refine Makes.tryCatch (Makes.weaken hbind ?_) ?_
    · intro s hs
      exact ⟨addr, hmem, hs⟩
    · intro e
      exact bindFirst_makes hp all rest (.other e) (fun a ha => hall a (List.mem_cons_of_mem addr ha))

theorem bindUdp_makes (hp : Usable target p) (lookup : Except IoError (List SocketAddr)) :
    Makes (fun s => ∃ addresses, lookup = .ok addresses ∧ ∃ a ∈ addresses, Confined p a s)
      (bindUdp target lookup)
      (fun s => ∃ addresses, lookup = .ok addresses ∧ ∃ a ∈ addresses, Confined p a s) (some p) := by
  unfold bindUdp
  apply Runs.bind
  apply Runs.get
  apply Runs.bind
  refine Runs.ofExcept ?_ (fun _ _ => rfl)
  intro addresses hlookup
  have hfirst := bindFirst_makes hp addresses addresses
    (.addrNotAvailable "no suitable underlay address") (fun _ ha => ha)
  refine Makes.weaken hfirst ?_
  intro s hs
  exact ⟨addresses, hlookup, hs⟩

theorem connectTcp_makes (hp : Usable target p) {destination : SocketAddr}
    (hd : destination.ip.isLoopback = false) :
    Makes (Confined p (unspecifiedFor destination)) (connectTcp target destination)
      (Confined p (unspecifiedFor destination)) (some p) := by
  unfold connectTcp
  apply Runs.bind
  apply Runs.get
  refine Runs.ite (fun h => absurd h (by simp [hd])) ?_
  intro _
  refine Makes.bind (Makes.tryCatch (bind_makes hp .tcpSocket _ .auto false) (fun _ => Makes.throw)) ?_
  intro s hs
  exact Makes.call hs (fun _ => ⟨hs, hs⟩)

/-- With the policy installed no underlay socket leaves the physical source: one that
is bound, listened on or connected is bound to the source and sends through its
device, or is bound to the loopback address asked for, or is an IPv6 socket that
cannot carry IPv4. -/
theorem underlay_confined (h : Installed target p) :
    (∀ b addr dev onlyV6, Makes (Confined p addr) (bind target b addr dev onlyV6 true)
      (Confined p addr) (some p)) ∧
    (∀ lookup, Makes (fun s => ∃ addresses, lookup = .ok addresses ∧ ∃ a ∈ addresses, Confined p a s)
      (bindUdp target lookup)
      (fun s => ∃ addresses, lookup = .ok addresses ∧ ∃ a ∈ addresses, Confined p a s) (some p)) ∧
    ∀ destination, destination.ip.isLoopback = false →
      Makes (Confined p (unspecifiedFor destination)) (connectTcp target destination)
        (Confined p (unspecifiedFor destination)) (some p) :=
  ⟨bind_makes h.usable, bindUdp_makes h.usable, fun _ hd => connectTcp_makes h.usable hd⟩

/-! ## A host on one network -/

def wanPolicy : UnderlayBindingPolicy := ⟨0xc0000205, "wan0"⟩

/-- No call fails, and the source is an address of `wan0`. -/
def wanScript : Nat → SysReply :=
  fun _ => { interfaces := some [⟨"lo", [.v4 0x7f000001]⟩, ⟨"wan0", [.v4 0xc0000205]⟩] }

theorem wan_installed : Installed .linux wanPolicy :=
  ⟨0xc0000205, wanScript, none, rfl, rfl⟩

/-- A socket for any address is bound to 192.0.2.5 and to `wan0`. -/
theorem wan_socket_confined : ∃ s,
    (bind .linux .udpSocket ⟨.v4 0, 11010⟩ .auto false true wanScript (some wanPolicy)).result =
      .ok s ∧ Confined wanPolicy ⟨.v4 0, 11010⟩ s := by
  have h := (underlay_confined wan_installed).1 .udpSocket ⟨.v4 0, 11010⟩ .auto false wanScript
    (fun _ => trivial)
  cases hresult : (bind .linux .udpSocket ⟨.v4 0, 11010⟩ .auto false true wanScript
      (some wanPolicy)).result with
  | ok s =>
    have hends := h.2.1
    rw [hresult] at hends
    exact ⟨s, rfl, hends.2⟩
  | error e =>
    have hok : (bind .linux .udpSocket ⟨.v4 0, 11010⟩ .auto false true wanScript
      (some wanPolicy)).result.isOk = true := by decide +kernel
    rw [hresult] at hok
    cases hok

end UnderlayPolicy
end EasyTierHost
