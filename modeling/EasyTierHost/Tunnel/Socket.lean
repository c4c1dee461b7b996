import EasyTierHost.Effects.Runs
import EasyTierHost.Instance.Inet

/- Sockets of Core, after common.rs: a socket is what the operating system has been
   told of it, and every call either tells it one more thing or fails. The script
   says which; it also says which interfaces there are whenever they are listed.
   The sockets are values here, and the trace shows each call with the socket it
   leaves. Of the targets the Apple ones are left out: they bind a device by its
   index, and the underlay policy cannot be installed on them. -/
namespace EasyTierHost
open Effects Effects.Prog

/-! ## Addresses -/

namespace Ipv4Addr

def isUnspecified (a : Ipv4Addr) : Bool := a == 0
def isLoopback (a : Ipv4Addr) : Bool := a.toNat / 2^24 == 127
def isMulticast (a : Ipv4Addr) : Bool := a.toNat / 2^28 == 14
def broadcast : Ipv4Addr := 0xffffffff

end Ipv4Addr

/-- `std::net::Ipv6Addr`. -/
abbrev Ipv6Addr := BitVec 128

/-- `std::net::IpAddr`. -/
inductive IpAddr where
  | v4 (ip : Ipv4Addr)
  | v6 (ip : Ipv6Addr)
  deriving DecidableEq, Repr

namespace IpAddr

def isUnspecified : IpAddr → Bool
  | v4 ip => ip.isUnspecified
  | v6 ip => ip == 0

/-- Of the IPv6 addresses `::1` alone; one that embeds an IPv4 address is not looked
through. -/
def isLoopback : IpAddr → Bool
  | v4 ip => ip.isLoopback
  | v6 ip => ip == 1

def isMulticast : IpAddr → Bool
  | v4 ip => ip.isMulticast
  | v6 ip => ip.toNat / 2^120 == 255

end IpAddr

/-- `std::net::SocketAddr`. -/
structure SocketAddr where
  ip : IpAddr
  port : UInt16
  deriving DecidableEq, Repr

def SocketAddr.isIpv4 (addr : SocketAddr) : Bool :=
  match addr.ip with
  | .v4 _ => true
  | .v6 _ => false

def SocketAddr.isIpv6 (addr : SocketAddr) : Bool := !addr.isIpv4

theorem SocketAddr.exists_v4 (addr : SocketAddr) (h : addr.isIpv4 = true) : ∃ ip, addr.ip = .v4 ip := by
  unfold isIpv4 at h
  split at h
  next ip hip => exact ⟨ip, hip⟩
  next => cases h

/-! ## Sockets and calls -/

/-- `socket2::Type`. -/
inductive SocketType where
  | stream | dgram
  deriving DecidableEq, Repr

/-- A socket: its domain, and what has been set on it. `device` is the interface it
sends through, where one was set. -/
structure Socket where
  ipv6 : Bool
  type : SocketType
  onlyV6 : Bool := false
  nonblocking : Bool := false
  reuseAddress : Bool := false
  bound : Option SocketAddr := none
  device : Option String := none
  deriving DecidableEq, Repr

/-- The calls on a socket. -/
inductive SocketCall where
  | new | type | disableConnectionReset | setIpUnicastIf | setOnlyV6 | setNonblocking | setReuseAddress
  | bind | bindDevice | setNodelay | fromStd | listen | connect (destination : SocketAddr)
  deriving DecidableEq, Repr

/-- An external effect: a call and the socket it leaves, or a socket the runtime
makes by itself. -/
inductive SocketEvent where
  | call (c : SocketCall) (s : Socket)
  | runtime (s : Socket)
  deriving DecidableEq, Repr

/-- The targets as far as the code tells them apart. -/
inductive TargetOs where
  | windows | linux | other
  deriving DecidableEq, Repr

/-- `io::Error`. A `TunnelError` is the error it wraps, and an `anyhow::Error` its
message. -/
inductive IoError where
  | os (code : Int)
  | addrNotAvailable (message : String)
  | notFound (message : String)
  | other (source : IoError)
  | message (text : String)
  deriving DecidableEq, Repr

/-- `network_interface::NetworkInterface`. -/
structure NetworkInterface where
  name : String
  addr : List IpAddr
  deriving DecidableEq, Repr

/-- A reply: whether a call fails, the interfaces if they can be listed, and the
socket the runtime makes. -/
structure SysReply where
  error : Option IoError := none
  interfaces : Option (List NetworkInterface) := none
  socket : Socket := ⟨false, .stream, false, false, false, none, none⟩

/-- `UnderlayBindingPolicy`. -/
structure UnderlayBindingPolicy where
  sourceIpv4 : Ipv4Addr
  bindDevice : String
  deriving DecidableEq, Repr

/-- The world of these programs is the cell `POLICY`. -/
abbrev TunnelM := Prog SocketEvent SysReply (Option UnderlayBindingPolicy) IoError

/-- A call on `s` that leaves `done` when it succeeds. -/
def Socket.call (c : SocketCall) (s done : Socket) : TunnelM Socket := do
  let r ← ask
  effect (.call c (if r.error.isNone then done else s)) id
  outcome r.error
  pure done

/-- A socket of the runtime, `UdpSocket::bind` or `TcpStream::connect`. -/
def Socket.runtime : TunnelM Socket := do
  let r ← ask
  outcome r.error
  effect (.runtime r.socket) id
  pure r.socket

/-! ## Setting a socket up -/

/-- `BindDev`. -/
inductive BindDev where
  | auto
  | disabled
  | custom (name : String)
  deriving DecidableEq, Repr

def getInterfaceNameByIp (localIp : IpAddr) : TunnelM (Option String) :=
  if localIp.isUnspecified || localIp.isMulticast then pure none
  else do
    let r ← ask
    pure ((r.interfaces.bind (fun l => l.find? (fun i => i.addr.contains localIp))).map
      NetworkInterface.name)

/-- `set_ip_unicast_if`, by the index of the interface of that name. -/
def setIpUnicastIf (s : Socket) (iface : String) : TunnelM Socket := do
  let r ← ask
  match r.interfaces.bind (fun l => l.find? (fun i => i.name == iface)) with
  | none => throw (.notFound iface)
  | some found => Socket.call .setIpUnicastIf s { s with device := some found.name }

def setupSocketForWin (s : Socket) (bindDev : Option String) (isUdp : Bool) : TunnelM Socket := do
  let s ← (if isUdp then Socket.call .disableConnectionReset s s else pure s)
  match bindDev with
  | some iface => setIpUnicastIf s iface
  | none => pure s

section
variable (target : TargetOs)

/-- `setup_socket2_ext`. -/
def setupSocket2Ext (s : Socket) (addr : SocketAddr) (bindDev : Option String) (onlyV6 : Bool) :
    TunnelM Socket := do
  let s ← (if target = .windows then do
      let s ← Socket.call .type s s
      setupSocketForWin s bindDev (s.type == .dgram)
    else pure s)
  let s ← (if addr.isIpv6 then Socket.call .setOnlyV6 s { s with onlyV6 := onlyV6 } else pure s)
  let s ← Socket.call .setNonblocking s { s with nonblocking := true }
  let s ← Socket.call .setReuseAddress s { s with reuseAddress := target != .windows }
  -- a failed bind of an IPv6 address is only logged
  let s ← tryCatch (Socket.call .bind s { s with bound := some addr })
    (fun e => if addr.isIpv4 then throw e else pure s)
  if addr.ip.isUnspecified then pure s
  else match bindDev with
    | some name =>
      if target = .linux then Socket.call .bindDevice s { s with device := some name } else pure s
    | none => pure s

/-- `Bindable`. -/
inductive Bindable where
  | tcpSocket | tcpListener | udpSocket
  deriving DecidableEq, Repr

namespace Bindable

def type : Bindable → SocketType
  | udpSocket => .dgram
  | _ => .stream

def finalize : Bindable → Socket → TunnelM Socket
  | tcpSocket, s => tryCatch (Socket.call .setNodelay s s) (fun _ => pure s)
  | tcpListener, s => do
    let s ← tryCatch (Socket.call .setNodelay s s) (fun _ => pure s)
    Socket.call .listen s s
  | udpSocket, s => Socket.call .fromStd s s

end Bindable
end

/-! ## What a socket is after its setup -/

/-- A call that lets a socket send or be sent to. -/
def SocketCall.uses : SocketCall → Bool
  | listen => true
  | connect _ => true
  | _ => false

/-- Every socket that is listened on or connected satisfies `P`. -/
def Uses (P : Socket → Prop) (m : Moment SocketEvent (Option UnderlayBindingPolicy)) : Prop :=
  ∀ c s, m.event = .call c s → c.uses = true → P s

variable {P : Socket → Prop} {w : Option UnderlayBindingPolicy}

/-- A run that leaves the policy alone and returns a socket in `Q`. -/
abbrev Makes (P : Socket → Prop) (x : TunnelM Socket) (Q : Socket → Prop)
    (w : Option UnderlayBindingPolicy) : Prop :=
  Runs (fun _ => True) (Uses P) x (fun s w' => w' = w ∧ Q s) (fun _ w' => w' = w) w

namespace Makes
variable {Q Q' : Socket → Prop} {x : TunnelM Socket}

theorem pure {s : Socket} (h : Q s) : Makes P (pure s) Q w := Runs.pure ⟨rfl, h⟩

theorem mono (hx : Makes P x Q w) (h : ∀ s, Q s → Q' s) : Makes P x Q' w :=
  Runs.mono hx (fun _ _ hs => ⟨hs.1, h _ hs.2⟩) (fun _ _ hw => hw)

theorem bind {f : Socket → TunnelM Socket} (hx : Makes P x Q w)
    (hf : ∀ s, Q s → Makes P (f s) Q' w) : Makes P (x >>= f) Q' w := by
  refine Runs.seq hx ?_
  intro s w' h
  rw [h.1]
  exact hf s h.2

theorem tryCatch {h : IoError → TunnelM Socket} (hx : Makes P x Q w)
    (hh : ∀ e, Makes P (h e) Q w) : Makes P (tryCatch x h) Q w := by
  refine Runs.tryCatch (Runs.mono hx (fun _ _ hs => hs) ?_)
  intro e w' hw
  rw [hw]
  exact hh e

theorem throw {e : IoError} : Makes P (throw e) Q w := Runs.throw rfl

theorem mono_uses {P' : Socket → Prop} (hx : Makes P x Q w) (h : ∀ s, P s → P' s) :
    Makes P' x Q w := by
  apply Runs.mono_moment hx
  intro m hm c s he hc
  exact h s (hm c s he hc)

/-- Weaker conditions on what is used and on what is returned. -/
theorem weaken {P' : Socket → Prop} (hx : Makes P x P w) (h : ∀ s, P s → P' s) :
    Makes P' x P' w :=
  mono (mono_uses hx h) h

/-- A call leaves the socket as it says, and one that is a use needs the socket to
satisfy `P` beforehand. -/
theorem call {c : SocketCall} {s done : Socket} (hQ : Q done)
    (hP : c.uses = true → P s ∧ P done) : Makes P (Socket.call c s done) Q w := by
  unfold Socket.call
  apply Runs.bind
  apply Runs.ask
  intro r _
  apply Runs.bind
  apply Runs.effect
  · intro c' s' he hc
    cases he
    have hboth := hP hc
    split
    · exact hboth.2
    · exact hboth.1
  · apply Runs.bind
    apply Runs.outcome
    · intro _
      exact Runs.pure ⟨rfl, hQ⟩
    · intro _ _
      rfl

end Makes

theorem setIpUnicastIf_makes {s : Socket} {iface : String} :
    Makes P (setIpUnicastIf s iface) (fun s' => s' = { s with device := some iface }) w := by
  unfold setIpUnicastIf
  apply Runs.bind
  apply Runs.ask
  intro r _
  cases hfound : r.interfaces.bind (fun l => l.find? (fun i => i.name == iface)) with
  | none => exact Makes.throw
  | some found =>
    obtain ⟨l, -, hfind⟩ := Option.bind_eq_some_iff.mp hfound
    have hname : found.name = iface := by simpa using List.find?_some hfind
    exact Makes.call (by rw [hname]) (fun h => absurd h (by decide))

theorem setupSocketForWin_makes {s : Socket} {bindDev : Option String} {isUdp : Bool}
    (hs : s.device = none) :
    Makes P (setupSocketForWin s bindDev isUdp) (fun s' => s' = { s with device := bindDev }) w := by
  unfold setupSocketForWin
  refine Makes.bind (Q := fun s' => s' = s) ?_ ?_
  · cases isUdp with
    | true => exact Makes.call rfl (fun h => absurd h (by decide))
    | false => exact Makes.pure rfl
  · intro s' he
    rw [he]
    cases bindDev with
    | some iface => exact setIpUnicastIf_makes
    | none => exact Makes.pure (by rw [← hs])

/-- The setup of a new socket: the domain stays, an IPv6 socket has the flag, an IPv4
one is bound, and on Windows and Linux one bound to an address of its own sends
through the device. -/
structure SetUp (target : TargetOs) (ipv6 : Bool) (addr : SocketAddr) (bindDev : Option String)
    (onlyV6 : Bool) (s : Socket) : Prop where
  domain : s.ipv6 = ipv6
  flag : addr.isIpv6 = true → s.onlyV6 = onlyV6
  bound : addr.isIpv4 = true → s.bound = some addr
  device : ∀ name, bindDev = some name → target ≠ .other → addr.ip.isUnspecified = false →
    s.device = some name

theorem setupSocket2Ext_makes {target : TargetOs} {s : Socket} {addr : SocketAddr}
    {bindDev : Option String} {onlyV6 : Bool} (hs : s.device = none) :
    Makes P (setupSocket2Ext target s addr bindDev onlyV6)
      (SetUp target s.ipv6 addr bindDev onlyV6) w := by
  unfold setupSocket2Ext
  refine Makes.bind (Q := fun s' => s' = { s with device := if target = .windows then bindDev else none })
    ?_ ?_
  · split
    · refine Makes.bind (Q := fun s' => s' = s) (Makes.call rfl (fun h => absurd h (by decide))) ?_
      intro s' he
      rw [he]
      exact setupSocketForWin_makes hs
    · exact Makes.pure (by rw [← hs])
  intro s₁ h₁
  refine Makes.bind (Q := fun s' => s'.ipv6 = s.ipv6 ∧ (addr.isIpv6 = true → s'.onlyV6 = onlyV6) ∧
    s'.device = s₁.device) ?_ ?_
  · split
    · exact Makes.call ⟨by rw [h₁], fun _ => rfl, rfl⟩ (fun h => absurd h (by decide))
    next hv => exact Makes.pure ⟨by rw [h₁], fun h => absurd h hv, rfl⟩
  intro s₂ h₂
  refine Makes.bind (Q := fun s' => s' = { s₂ with nonblocking := true })
    (Makes.call rfl (fun h => absurd h (by decide))) ?_
  intro s₃ h₃
  refine Makes.bind (Q := fun s' => s' = { s₃ with reuseAddress := target != .windows })
    (Makes.call rfl (fun h => absurd h (by decide))) ?_
  intro s₄ h₄
  refine Makes.bind (Q := fun s' => s'.ipv6 = s.ipv6 ∧ (addr.isIpv6 = true → s'.onlyV6 = onlyV6) ∧
    (addr.isIpv4 = true → s'.bound = some addr) ∧ s'.device = s₁.device) ?_ ?_
  · subst h₃ h₄
    refine Makes.tryCatch (Makes.call ⟨h₂.1, h₂.2.1, fun _ => rfl, h₂.2.2⟩
      (fun h => absurd h (by decide))) ?_
    intro e
    split
    · exact Makes.throw
    next hv => exact Makes.pure ⟨h₂.1, h₂.2.1, fun h => absurd h hv, h₂.2.2⟩
  intro s₅ h₅
  obtain ⟨hdomain, hflag, hbound, hdevice⟩ := h₅
  by_cases hunspecified : addr.ip.isUnspecified = true
  · rw [if_pos hunspecified]
    refine Makes.pure ⟨hdomain, hflag, hbound, ?_⟩
    intro _ _ _ h
    rw [hunspecified] at h
    cases h
  · rw [if_neg hunspecified]
    cases bindDev with
    | none => exact Makes.pure ⟨hdomain, hflag, hbound, fun _ h => by cases h⟩
    | some iface =>
      show Makes P (if target = .linux then
        Socket.call .bindDevice s₅ { s₅ with device := some iface } else pure s₅) _ w
      by_cases hlinux : target = .linux
      · rw [if_pos hlinux]
        exact Makes.call ⟨hdomain, hflag, hbound, fun _ h _ _ => h⟩ (fun h => absurd h (by decide))
      · -- the device of a Windows socket was set before the bind
        rw [if_neg hlinux]
        refine Makes.pure ⟨hdomain, hflag, hbound, ?_⟩
        intro name hname htarget _
        have hwindows : target = .windows := by
          cases target with
          | windows => rfl
          | linux => exact absurd rfl hlinux
          | other => exact absurd rfl htarget
        rw [hdevice, h₁, if_pos hwindows]
        exact hname

/-- The socket is handed on as it is; a listener is used on the way. -/
theorem finalize_makes {s : Socket} (hs : P s) : ∀ b : Bindable,
    Makes P (b.finalize s) (fun s' => s' = s) w := by
  have hnodelay : Makes P (tryCatch (Socket.call .setNodelay s s) (fun _ => pure s))
      (fun s' => s' = s) w :=
    Makes.tryCatch (Makes.call rfl (fun h => absurd h (by decide))) (fun _ => Makes.pure rfl)
  intro b
  cases b with
  | tcpSocket => exact hnodelay
  | tcpListener =>
    refine Makes.bind hnodelay ?_
    intro s' he
    rw [he]
    exact Makes.call rfl (fun _ => ⟨hs, hs⟩)
  | udpSocket => exact Makes.call rfl (fun h => absurd h (by decide))

end EasyTierHost
