import EasyTierHost.Core.ConfigDocument
import EasyTierHost.Core.NodeReadiness
import EasyTierHost.Instance.Dhcp

/- The address plan as it is written three times: as the constants the Host checks
   its node against, as the lines it writes for Core, and as the pool Core leases
   from. `TomlConfigLoader::get_ipv4` and `get_dhcp_range` of config.rs read the
   lines back. Core parses an address with the length of its network by way of the
   `cidr` package, which is a parameter: an `InetReader` reads the dotted form
   with a length behind a slash. -/
namespace EasyTierHost
open Text EasyTierConfigBuilder NodeReadiness

/-! ## What Core reads -/

namespace Ipv4Addr

/-- `Ipv4Addr::new`. -/
def new (a b c d : UInt8) : Ipv4Addr :=
  UInt32.ofNat (a.toNat * 2^24 + b.toNat * 2^16 + c.toNat * 2^8 + d.toNat)

/-- One number of an address: up to three decimal digits, and no zero in front of
another digit. -/
def readOctet (cs : List Char) : Option UInt8 :=
  if 1 ≤ cs.length ∧ cs.length ≤ 3 ∧ cs.all Char.isDigit ∧ (cs.head? ≠ some '0' ∨ cs.length = 1) then
    let n := Nat.ofDigitChars 10 cs 0
    if n < 256 then some (UInt8.ofNat n) else none
  else none

/-- `Ipv4Addr::from_str`. -/
def fromStr (cs : List Char) : Option Ipv4Addr :=
  match (IPAddress.splitAtChar '.' cs).mapM readOctet with
  | some [a, b, c, d] => some (new a b c d)
  | _ => none

end Ipv4Addr

/-- `Ipv4Inet::from_str`, as far as Core relies on it. -/
structure InetReader where
  fromStr : List Char → Option Ipv4Inet
  dotted : ∀ (a b c d : UInt8) (n : Nat) (h : n ≤ 32),
    fromStr ((IPAddress.v4 a b c d).text ++ "/" ++ toString n).toList =
      some ⟨Ipv4Addr.new a b c d, n, h⟩

namespace TomlConfigLoader

def getIpv4 (x : InetReader) (doc : Toml.Document) : Option Ipv4Inet :=
  match doc.lookup "ipv4".toList with
  | some (.value (.string cs)) => (x.fromStr cs).map (fun c =>
      if c.networkLength = 32 then ⟨c.address, 24, Ipv4Inet.bound_24⟩ else c)
  | _ => none

def getDhcp (doc : Toml.Document) : Bool :=
  match doc.lookup "dhcp".toList with
  | some (.value (.boolean b)) => b
  | _ => false

def field (t : Toml.Table) (key : String) : Option (List Char) :=
  match t.lookup key.toList with
  | some (.string cs) => some cs
  | _ => none

/-- The fields of a `DhcpRange`, as serde reads them. -/
def dhcpRange (x : InetReader) (t : Toml.Table) : Option DhcpRange := do
  let network ← (field t "network").bind x.fromStr
  let start ← (field t "start").bind Ipv4Addr.fromStr
  let last ← (field t "end").bind Ipv4Addr.fromStr
  pure ⟨network, start, last⟩

def getDhcpRange (x : InetReader) (doc : Toml.Document) : Option DhcpRange :=
  match doc.lookup "dhcp_range".toList with
  | some (.table t) => dhcpRange x t
  | _ => none

/-- The addresses a node can take under a configuration: the one of the `ipv4` line,
and with DHCP those of the pool. -/
def addresses (x : InetReader) (doc : Toml.Document) : Set Ipv4Addr :=
  {a | (∃ inet, getIpv4 x doc = some inet ∧ inet.address = a) ∨
    (getDhcp doc = true ∧ ∃ range, getDhcpRange x doc = some range ∧ range.contains a = true)}

end TomlConfigLoader

/-! ## Addresses of the Host and of Core -/

/-- The Host's address is Core's. -/
def IPAddress.Is (ip : IPAddress) (a : Ipv4Addr) : Prop := OverlayAddressPlan.number ip = some a.toNat

namespace Ipv4Addr

theorem toNat_new (a b c d : UInt8) :
    (new a b c d).toNat = a.toNat * 2^24 + b.toNat * 2^16 + c.toNat * 2^8 + d.toNat := by
  have ha := a.toNat_lt
  have hb := b.toNat_lt
  have hc := c.toNat_lt
  have hd := d.toNat_lt
  rw [new, UInt32.toNat_ofNat', Nat.mod_eq_of_lt]
  omega

theorem is_new (a b c d : UInt8) : (IPAddress.v4 a b c d).Is (new a b c d) := by
  rw [IPAddress.Is, toNat_new]
  rfl

theorem eq_new {a b c d : UInt8} {n : Ipv4Addr} (h : (IPAddress.v4 a b c d).Is n) :
    n = new a b c d := by
  have hn := h.symm.trans (is_new a b c d)
  exact UInt32.toNat_inj.1 (Option.some.inj hn)

/-- Different octets make different numbers. -/
theorem new_inj {a b c d a' b' c' d' : UInt8} (h : new a b c d = new a' b' c' d') :
    IPAddress.v4 a b c d = IPAddress.v4 a' b' c' d' := by
  have hn := congrArg (fun n : Ipv4Addr => IPAddress.ofNumber n.toNat) h
  simpa only [toNat_new, IPAddress.ofNumber_octets] using hn

end Ipv4Addr

/-! ## What the Host's text configures -/

open TomlConfigLoader

/-- The lines `Build` writes for the pool. -/
def hostPool : DhcpRange := ⟨⟨Ipv4Addr.new 10 10 0 0, 16, by decide⟩, 0x0a0a000b, 0x0a0afffe⟩

/-- Whether the instance is named changes no other key. -/
theorem lookup_prescribed (p : NetworkProfile) (secret : String) (instanceId : Option Guid)
    {key : List Char} (hkey : key ≠ "instance_id".toList) :
    (prescribed p secret instanceId).lookup key = (prescribed p secret none).lookup key := by
  cases instanceId with
  | none => rfl
  | some id =>
    have hother : (key == "instance_id".toList) = false := beq_false_of_ne hkey
    unfold prescribed rootValues
    simp only [List.map_append, List.lookup_append, List.map_cons, List.map_nil, List.lookup_cons, hother,
      List.lookup_nil]

/-- The `ipv4` line of the prescribed document. -/
theorem getIpv4_prescribed (x : InetReader) (p : NetworkProfile) (secret : String)
    (instanceId : Option Guid) : getIpv4 x (prescribed p secret instanceId) =
      match p.role with
      | .gateway => getIpv4 x [("ipv4".toList, .value (.string "10.10.0.1/16".toList))]
      | .dedicated => getIpv4 x
          [("ipv4".toList, .value (.string (dedicatedText p.dedicatedIndex ++ "/16").toList))]
      | _ => none := by
  unfold getIpv4
  rw [lookup_prescribed p secret instanceId (by decide)]
  unfold prescribed rootValues
  cases hrole : p.role with
  | seed => rfl
  | gateway => rfl
  | dedicated => rfl
  | client => rfl

theorem getIpv4_dotted (x : InetReader) (d : UInt8) {line : String}
    (hline : line = (IPAddress.v4 10 10 0 d).text ++ "/16") :
    getIpv4 x [("ipv4".toList, .value (.string line.toList))] =
      some ⟨Ipv4Addr.new 10 10 0 d, 16, by decide⟩ := by
  have hread := x.dotted 10 10 0 d 16 (by decide)
  have htext : line = (IPAddress.v4 10 10 0 d).text ++ "/" ++ toString 16 := by
    rw [hline, String.append_assoc]
    rfl
  rw [← htext] at hread
  rw [getIpv4, List.lookup_cons_self]
  simp only [hread]
  rfl

/-- A dedicated server owns the address of its index. -/
theorem dedicatedText_eq {p : NetworkProfile} (hp : NetworkProfileValidator.Valid p)
    (hrole : p.role = .dedicated) : ∃ i : UInt8, 2 ≤ i.toNat ∧ i.toNat ≤ 10 ∧
      p.dedicatedIndex = some (i.toNat : Int) ∧
      dedicatedText p.dedicatedIndex = (IPAddress.v4 10 10 0 i).text := by
  obtain ⟨index, hindex, hlo, hhi⟩ := hp.dedicated hrole
  obtain ⟨n, rfl⟩ := Int.eq_ofNat_of_zero_le (by omega : 0 ≤ index)
  have hn : (UInt8.ofNat n).toNat = n := by
    rw [UInt8.toNat_ofNat']
    omega
  refine ⟨UInt8.ofNat n, by omega, by omega, by rw [hn, hindex], ?_⟩
  have hdigits : toString (UInt8.ofNat n) = toString n := by
    show Nat.repr (UInt8.ofNat n).toNat = Nat.repr n
    rw [hn]
  rw [hindex, IPAddress.text, hdigits]
  rfl

theorem getDhcpRange_prescribed (x : InetReader) (p : NetworkProfile) (secret : String)
    (instanceId : Option Guid) : getDhcpRange x (prescribed p secret instanceId) =
      match p.role with
      | .client => dhcpRange x dhcpPool
      | _ => none := by
  unfold getDhcpRange
  rw [lookup_prescribed p secret instanceId (by decide)]
  unfold prescribed rootValues
  cases hrole : p.role with
  | seed => rfl
  | gateway => rfl
  | dedicated => rfl
  | client => rfl

theorem dhcpRange_dhcpPool (x : InetReader) : dhcpRange x dhcpPool = some hostPool := by
  have hnetwork : x.fromStr "10.10.0.0/16".toList = some hostPool.network :=
    x.dotted 10 10 0 0 16 (by decide)
  have hstart : Ipv4Addr.fromStr "10.10.0.11".toList = some hostPool.start := by decide +kernel
  have hlast : Ipv4Addr.fromStr "10.10.255.254".toList = some hostPool.end := by decide +kernel
  show ((some "10.10.0.0/16".toList).bind x.fromStr).bind (fun network =>
    ((some "10.10.0.11".toList).bind Ipv4Addr.fromStr).bind (fun start =>
      ((some "10.10.255.254".toList).bind Ipv4Addr.fromStr).bind (fun last =>
        some (DhcpRange.mk network start last)))) = some hostPool
  rw [Option.bind_some, Option.bind_some, Option.bind_some, hnetwork, hstart, hlast]
  rfl

theorem getDhcp_prescribed (p : NetworkProfile) (secret : String) (instanceId : Option Guid) :
    getDhcp (prescribed p secret instanceId) = (p.role == .client) := by
  rfl

theorem getIpv4_gateway (x : InetReader) {p : NetworkProfile} (hrole : p.role = .gateway)
    (secret : String) (instanceId : Option Guid) : getIpv4 x (prescribed p secret instanceId) =
      some ⟨Ipv4Addr.new 10 10 0 1, 16, by decide⟩ := by
  rw [getIpv4_prescribed, hrole]
  exact getIpv4_dotted x 1 (by decide)

theorem getIpv4_dedicated (x : InetReader) {p : NetworkProfile} (hrole : p.role = .dedicated)
    {i : UInt8} (hi : dedicatedText p.dedicatedIndex = (IPAddress.v4 10 10 0 i).text)
    (secret : String) (instanceId : Option Guid) : getIpv4 x (prescribed p secret instanceId) =
      some ⟨Ipv4Addr.new 10 10 0 i, 16, by decide⟩ := by
  rw [getIpv4_prescribed, hrole]
  exact getIpv4_dotted x i (by rw [hi])

theorem contains_hostPool {a : Ipv4Addr} :
    hostPool.contains a = true ↔ 0x0a0a000b ≤ a.toNat ∧ a.toNat ≤ 0x0a0afffe :=
  DhcpRange.contains_iff

/-- Whose address it is: the lowest is the gateway's, the next nine are those of the
dedicated servers, and the clients have the rest. -/
def owner (a : Ipv4Addr) : NodeRole × Option Int :=
  if a.toNat ≤ 0x0a0a0001 then (.gateway, none)
  else if a.toNat ≤ 0x0a0a000a then (.dedicated, some (a.toNat - 0x0a0a0000))
  else (.client, none)

theorem owner_dedicated {i : UInt8} (hlo : 2 ≤ i.toNat) (hhi : i.toNat ≤ 10) :
    owner (Ipv4Addr.new 10 10 0 i) = (.dedicated, some (i.toNat : Int)) := by
  have hn : (Ipv4Addr.new 10 10 0 i).toNat = 0x0a0a0000 + i.toNat := Ipv4Addr.toNat_new 10 10 0 i
  have hindex : ((0x0a0a0000 + i.toNat : Nat) : Int) - 0x0a0a0000 = i.toNat := by omega
  rw [owner, hn, if_neg (by omega), if_pos (by omega), hindex]

theorem owner_pool {a : Ipv4Addr} (h : hostPool.contains a = true) : owner a = (.client, none) := by
  obtain ⟨hlo, -⟩ := contains_hostPool.mp h
  rw [owner, if_neg (by omega), if_neg (by omega)]

/-- An address that Core can take from the Host's text tells the role and the index
of the node. -/
theorem owner_of_mem {x : InetReader} {p : NetworkProfile} (hp : NetworkProfileValidator.Valid p)
    (secret : String) (instanceId : Option Guid) {a : Ipv4Addr}
    (h : a ∈ addresses x (prescribed p secret instanceId)) :
    owner a = (p.role, p.dedicatedIndex) := by
  obtain ⟨inet, hinet, rfl⟩ | ⟨hdhcp, range, hrange, ha⟩ := h
  · cases hrole : p.role with
    | seed => rw [getIpv4_prescribed, hrole] at hinet; cases hinet
    | client => rw [getIpv4_prescribed, hrole] at hinet; cases hinet
    | gateway =>
      rw [getIpv4_gateway x hrole] at hinet
      rw [← Option.some.inj hinet, hp.undedicated (by simp [hrole])]
      decide
    | dedicated =>
      obtain ⟨i, hlo, hhi, hindex, htext⟩ := dedicatedText_eq hp hrole
      rw [getIpv4_dedicated x hrole htext] at hinet
      rw [← Option.some.inj hinet, hindex]
      exact owner_dedicated hlo hhi
  · have hrole : p.role = .client := by simpa [getDhcp_prescribed] using hdhcp
    rw [getDhcpRange_prescribed, hrole] at hrange
    have hpool : hostPool = range := Option.some.inj ((dhcpRange_dhcpPool x).symm.trans hrange)
    rw [hrole, hp.undedicated (by simp [hrole])]
    exact owner_pool (hpool ▸ ha)

theorem read_build {q : NetworkProfile} {secret : String} {instanceId : Option Guid}
    {text : String} {doc : Toml.Document} (hb : build q secret instanceId = .ok text)
    (hr : Toml.read text.toList = some doc) : doc = prescribed q secret instanceId := by
  obtain ⟨hq, -, rfl⟩ := build_ok hb
  exact Option.some.inj (hr.symm.trans (read_lines hq secret instanceId))

/-! ## Readiness -/

/-- The overlay addresses of a node are what its role and the document call for. -/
def AgreesWithCore (x : InetReader) (role : NodeRole) (doc : Toml.Document)
    (own : Set IPAddress) : Prop :=
  match role with
  | .seed => own = ∅
  | .client => ∃ range, getDhcpRange x doc = some range ∧
      ∃ ip a, own = {ip} ∧ ip.Is a ∧ range.contains a = true
  | _ => ∃ inet, getIpv4 x doc = some inet ∧ ∃ ip, own = {ip} ∧ ip.Is inet.address

/-- A node with an address of its own is ready under it alone. -/
theorem judge_own {x : InetReader} {p : NetworkProfile} {doc : Toml.Document} {d : UInt8}
    (hrole : p.role = .gateway ∨ p.role = .dedicated)
    (hinet : getIpv4 x doc = some ⟨Ipv4Addr.new 10 10 0 d, 16, by decide⟩)
    (hjudge : ∀ own actual, (judge p own actual).ready = true ↔ own = (IPAddress.v4 10 10 0 d).text)
    (own : Set IPAddress) (hown : ∀ ip ∈ own, ∃ c d, ip = .v4 10 10 c d) :
    (∃ c d, own = {.v4 10 10 c d} ∧
      (judge p (IPAddress.v4 10 10 c d).text (.v4 10 10 c d)).ready = true) ↔
      AgreesWithCore x p.role doc own := by
  have hline : AgreesWithCore x p.role doc own ↔
      ∃ inet, getIpv4 x doc = some inet ∧ ∃ ip, own = {ip} ∧ ip.Is inet.address := by
    cases hrole with
    | inl h => rw [h]; exact Iff.rfl
    | inr h => rw [h]; exact Iff.rfl
  rw [hline]
  constructor
  · intro h
    obtain ⟨c, d', hset, hj⟩ := h
    rw [IPAddress.text_v4_inj ((hjudge _ _).mp hj)] at hset
    exact ⟨_, hinet, _, hset, Ipv4Addr.is_new 10 10 0 d⟩
  · intro h
    obtain ⟨inet, hi, ip, hset, his⟩ := h
    have haddress : inet.address = Ipv4Addr.new 10 10 0 d := by
      rw [← Option.some.inj (hinet.symm.trans hi)]
    obtain ⟨c, d', rfl⟩ := hown ip (by rw [hset]; rfl)
    have hsame := Ipv4Addr.new_inj ((Ipv4Addr.eq_new his).symm.trans haddress)
    exact ⟨c, d', hset, (hjudge _ _).mpr (congrArg IPAddress.text hsame)⟩

/-- The Host's range of clients is Core's pool. -/
theorem isClient_iff (c d : UInt8) :
    OverlayAddressPlan.isClient (.v4 10 10 c d) = true ↔
      hostPool.contains (Ipv4Addr.new 10 10 c d) = true := by
  have hn : (Ipv4Addr.new 10 10 c d).toNat = 10 * 2^24 + 10 * 2^16 + c.toNat * 2^8 + d.toNat :=
    Ipv4Addr.toNat_new 10 10 c d
  have hoverlay : OverlayAddressPlan.isOverlay (.v4 10 10 c d) = true :=
    NodeReadiness.isOverlay_iff.mpr ⟨c, d, rfl⟩
  rw [contains_hostPool, hn]
  show (OverlayAddressPlan.isOverlay (.v4 10 10 c d) &&
    decide (0x0a0a000b ≤ 10 * 2^24 + 10 * 2^16 + c.toNat * 2^8 + d.toNat) &&
    decide (10 * 2^24 + 10 * 2^16 + c.toNat * 2^8 + d.toNat ≤ 0x0a0afffe)) = true ↔ _
  rw [hoverlay, Bool.true_and, Bool.and_eq_true, decide_eq_true_eq, decide_eq_true_eq]

/-- A client is ready under one address of the pool. -/
theorem judge_client {x : InetReader} {p : NetworkProfile} {doc : Toml.Document}
    (hrole : p.role = .client) (hrange : getDhcpRange x doc = some hostPool)
    (own : Set IPAddress) (hown : ∀ ip ∈ own, ∃ c d, ip = .v4 10 10 c d) :
    (∃ c d, own = {.v4 10 10 c d} ∧
      (judge p (IPAddress.v4 10 10 c d).text (.v4 10 10 c d)).ready = true) ↔
      AgreesWithCore x p.role doc own := by
  have hjudge : ∀ own actual, (judge p own actual).ready = true ↔
      OverlayAddressPlan.isClient actual = true := by
    intro own actual
    simp only [judge, hrole]
    split
    next h => simp [h]
    next h => simp [h]
  have hpool : AgreesWithCore x p.role doc own ↔ ∃ range, getDhcpRange x doc = some range ∧
      ∃ ip a, own = {ip} ∧ ip.Is a ∧ range.contains a = true := by
    rw [hrole]
    exact Iff.rfl
  rw [hpool]
  constructor
  · intro h
    obtain ⟨c, d, hset, hj⟩ := h
    have hcontains := (isClient_iff c d).mp ((hjudge _ _).mp hj)
    exact ⟨_, hrange, _, _, hset, Ipv4Addr.is_new 10 10 c d, hcontains⟩
  · intro h
    obtain ⟨range, hr, ip, a, hset, his, ha⟩ := h
    have hsame : range = hostPool := Option.some.inj (hr.symm.trans hrange)
    obtain ⟨c, d, rfl⟩ := hown ip (by rw [hset]; rfl)
    rw [hsame, Ipv4Addr.eq_new his] at ha
    exact ⟨c, d, hset, (hjudge _ _).mpr ((isClient_iff c d).mpr ha)⟩

/-- Whatever the node's addresses are, it is ready exactly when they agree with the
document Core reads. -/
theorem ready_iff (x : InetReader) {p : NetworkProfile} (hp : NetworkProfileValidator.Valid p)
    (secret : String) (instanceId : Option Guid) (addresses : List IPAddress) :
    ∃ result, evaluate p addresses = .ok result ∧ (result.ready = true ↔
      AgreesWithCore x p.role (prescribed p secret instanceId) (overlaySet addresses)) := by
  by_cases hseed : p.role = .seed
  · rw [hseed]
    exact evaluate_seed hseed addresses
  · obtain ⟨result, hresult, hready⟩ := evaluate_owner hseed addresses
    refine ⟨result, hresult, hready.trans ?_⟩
    have hown : ∀ ip ∈ overlaySet addresses, ∃ c d, ip = .v4 10 10 c d := fun ip hip => hip.2
    cases hrole : p.role with
    | seed => exact absurd hrole hseed
    | gateway =>
      rw [← hrole]
      refine judge_own (d := 1) (.inl hrole) (getIpv4_gateway x hrole secret instanceId) ?_ _ hown
      intro own actual
      have htext : OverlayAddressPlan.gateway = (IPAddress.v4 10 10 0 1).text := by decide
      simp only [judge, hrole, htext]
      split
      next h => simp [h]
      next h => simp [h]
    | dedicated =>
      obtain ⟨i, hlo, hhi, hindex, htext⟩ := dedicatedText_eq hp hrole
      rw [← hrole]
      refine judge_own (.inr hrole) (getIpv4_dedicated x hrole htext secret instanceId) ?_ _ hown
      intro own actual
      have hany : p.dedicatedIndex.any (fun i => decide (2 ≤ i ∧ i ≤ 10)) = true := by
        rw [hindex, Option.any_some, decide_eq_true_eq]
        omega
      simp only [judge, hrole, htext, hany, true_and]
      split
      next h => simp [h]
      next h => simp [h]
    | client =>
      have hrange : getDhcpRange x (prescribed p secret instanceId) = some hostPool := by
        rw [getDhcpRange_prescribed, hrole]
        exact dhcpRange_dhcpPool x
      rw [← hrole]
      exact judge_client hrole hrange _ hown

/-- What the Host writes for Core and what it checks its node against are the same:
a node is ready exactly when its overlay addresses are those Core can take from the
text, and no address can be taken by two roles or by two dedicated servers. -/
theorem readiness_agrees (x : InetReader) (p : NetworkProfile) (secret : String)
    (instanceId : Option Guid) (hv : NetworkProfileValidator.validate p = .ok ())
    (hs : isNullOrWhiteSpace secret = false) :
    ∃ text doc, build p secret instanceId = .ok text ∧ Toml.read text.toList = some doc ∧
      (∀ locals : List IPAddress, ∃ result, evaluate p locals = .ok result ∧
        (result.ready = true ↔ AgreesWithCore x p.role doc (overlaySet locals))) ∧
      ∀ (q : NetworkProfile) (secret' : String) (instanceId' : Option Guid) (text' : String)
        (doc' : Toml.Document), build q secret' instanceId' = .ok text' →
        Toml.read text'.toList = some doc' →
        p.role ≠ q.role ∨ p.dedicatedIndex ≠ q.dedicatedIndex →
        ∀ a, a ∈ addresses x doc → a ∉ addresses x doc' := by
  have hp := NetworkProfileValidator.validate_ok hv
  refine ⟨_, _, build_valid instanceId hv hs, read_lines hp secret instanceId,
    ready_iff x hp secret instanceId, ?_⟩
  intro q secret' instanceId' text' doc' hbuild' hread' hdiffer
  obtain ⟨hq, -, -⟩ := build_ok hbuild'
  have hdoc : doc' = prescribed q secret' instanceId' := read_build hbuild' hread'
  rw [hdoc]
  intro a ha ha'
  have howner := (owner_of_mem hp secret instanceId ha).symm.trans
    (owner_of_mem hq secret' instanceId' ha')
  cases hdiffer with
  | inl h => exact h (congrArg Prod.fst howner)
  | inr h => exact h (congrArg Prod.snd howner)

/-! ## A dedicated server -/

theorem readOctet_digits : ∀ n < 256, Ipv4Addr.readOctet (Nat.toDigits 10 n) = some (UInt8.ofNat n) := by
  decide +kernel

theorem readOctet_octet (n : UInt8) : Ipv4Addr.readOctet (Nat.toDigits 10 n.toNat) = some n := by
  rw [readOctet_digits n.toNat n.toNat_lt, UInt8.ofNat_toNat]

theorem fromStr_text (a b c d : UInt8) :
    Ipv4Addr.fromStr (IPAddress.v4 a b c d).text.toList = some (Ipv4Addr.new a b c d) := by
  have hparts : (IPAddress.octets a b c d).mapM Ipv4Addr.readOctet = some [a, b, c, d] := by
    simp [IPAddress.octets, readOctet_octet]
  rw [Ipv4Addr.fromStr, IPAddress.splitAtChar_text, hparts]

/-- A reader of the dotted form. -/
def InetReader.slash : InetReader where
  fromStr cs :=
    match IPAddress.splitAtChar '/' cs with
    | [address, length] =>
      (Ipv4Addr.fromStr address).bind (fun a => (Ipv4Addr.readOctet length).bind (fun n =>
        if h : n.toNat ≤ 32 then some ⟨a, n.toNat, h⟩ else none))
    | _ => none
  dotted a b c d n h := by
    have hdigits : ∀ k, '/' ∉ Nat.toDigits 10 k := IPAddress.not_mem_digits (by decide)
    have hslash : '/' ∉ (IPAddress.v4 a b c d).text.toList := by
      rw [IPAddress.text_v4_toList]
      simp [IPAddress.octets, List.intercalate_cons_cons, hdigits]
    have hlist : ((IPAddress.v4 a b c d).text ++ "/" ++ toString n).toList =
        (IPAddress.v4 a b c d).text.toList ++ '/' :: Nat.toDigits 10 n := by
      simp
    have hlen : (UInt8.ofNat n).toNat = n := by
      rw [UInt8.toNat_ofNat']
      omega
    rw [hlist, IPAddress.splitAtChar_append _ hslash, IPAddress.splitAtChar_of_not_mem (hdigits n)]
    simp only [fromStr_text, readOctet_digits n (by omega), Option.bind_some, hlen, h, dif_pos]

def roomServer : NetworkProfile :=
  { networkName := "home", secretFile := "secret", role := .dedicated,
    seedPhysicalIp := some "192.168.1.2", dedicatedIndex := some 7 }

def roomServerAddresses : List IPAddress :=
  [.v4 192 168 1 9, .v4 10 10 0 7, .v6 "fe80::1", .v4 10 10 0 7]

/-- The address the room server is ready under is the one Core takes. -/
theorem room_server_agrees : ∃ text doc, build roomServer "pass" none = .ok text ∧
    Toml.read text.toList = some doc ∧
    AgreesWithCore .slash .dedicated doc (overlaySet roomServerAddresses) := by
  obtain ⟨text, doc, hbuild, hread, hready, -⟩ :=
    readiness_agrees .slash roomServer "pass" none (by rfl) (by decide)
  obtain ⟨result, hresult, hiff⟩ := hready roomServerAddresses
  have hvalue : (evaluate roomServer roomServerAddresses).toOption =
      some ⟨true, "Dedicated server overlay address ready", some "10.10.0.7"⟩ := by decide +kernel
  rw [hresult] at hvalue
  have htrue : result.ready = true := congrArg NodeReadinessResult.ready (Option.some.inj hvalue)
  exact ⟨text, doc, hbuild, hread, hiff.mp htrue⟩

end EasyTierHost
