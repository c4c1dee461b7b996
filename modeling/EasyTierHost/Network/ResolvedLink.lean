import EasyTierHost.Abstractions.AddressText
import EasyTierHost.Core.JsonElement

/- What systemd-resolved keeps of a link, and ResolvedLink.cs, which reads it: three
   properties, each a JSON value. `Link.value` is how a property is written, an address
   as its family and its bytes, a domain as its name and whether it only routes. Read
   back, the properties are the link's (`parse_value`), and of all addresses only
   10.10.0.1 is read as the gateway's. -/
namespace EasyTierHost

/-! ## A link of systemd-resolved -/

/-- The address of a server. -/
structure ServerAddress where
  bytes : List UInt8
  size : bytes.length = 4 ∨ bytes.length = 16
  deriving DecidableEq

/-- A link that is up: its interface, and what resolved has for it. -/
structure Link where
  identity : String
  servers : List ServerAddress
  domains : List (String × Bool)
  defaultRoute : Bool
  deriving DecidableEq

/-- `org.freedesktop.resolve1.Link`. -/
inductive LinkProperty where
  | dns | domains | defaultRoute
  deriving DecidableEq, Repr

/-- A server as its family and its bytes. -/
def ServerAddress.value (server : ServerAddress) : Json :=
  .array [.number (if server.bytes.length = 4 then 2 else 10),
    .array (server.bytes.map (fun b => .number b.toNat))]

def Link.value (link : Link) : LinkProperty → Json
  | .dns => .array (link.servers.map ServerAddress.value)
  | .domains => .array (link.domains.map (fun d => .array [.string d.1, .boolean d.2]))
  | .defaultRoute => .boolean link.defaultRoute

/-! ## `ResolvedLink` -/

/-- `DnsDomain`. -/
structure DnsDomain where
  name : Option String
  routingOnly : Bool
  deriving DecidableEq, Repr

/-- `ResolvedLinkState`. -/
structure ResolvedLinkState where
  servers : List String
  domains : List DnsDomain
  defaultRoute : Bool
  deriving DecidableEq, Repr

namespace ResolvedLink

def parseServer (entry : Json) : Except Err String := do
  let bytes ← (← (← entry.item 1).enumerateArray).mapM Json.getByte
  let family ← (← entry.item 0).getInt32
  if (family = 2 ∧ bytes.length ≠ 4) ∨ (family = 10 ∧ bytes.length ≠ 16) ∨ (family ≠ 2 ∧ family ≠ 10) then
    throw (.io "Invalid resolved DNS address")
  match IPAddress.ofBytes bytes with
  | some ip => return ip.text
  | none => throw (.other "ArgumentException")

def parseDomain (d : Json) : Except Err DnsDomain := do
  let name ← (← d.item 0).getString
  let routingOnly ← (← d.item 1).getBoolean
  return ⟨name, routingOnly⟩

/-- `Parse`. -/
def parse (dns domains defaultRoute : Json) : Except Err ResolvedLinkState := do
  let servers ← (← dns.enumerateArray).mapM parseServer
  let domains ← (← domains.enumerateArray).mapM parseDomain
  let defaultRoute ← defaultRoute.getBoolean
  return ⟨servers, domains, defaultRoute⟩

/-- The element of busctl's output a property is in. -/
def propertyElement (output : Json) : Except Err Json := do
  (← output.getProperty "data").item 0

/-! ## Reading back what is written -/

/-- The text of a server's address. -/
def serverText (server : ServerAddress) : String :=
  ((IPAddress.ofBytes server.bytes).map IPAddress.text).getD ""

theorem parseServer_value (server : ServerAddress) : parseServer server.value = .ok (serverText server) := by
  have hbytes : (server.bytes.map (fun b => Json.number b.toNat)).mapM Json.getByte = .ok server.bytes := by
    have hmap := Json.mapM_map_ok Json.getByte_number server.bytes
    rw [List.map_id'] at hmap
    exact hmap
  have hread : parseServer server.value = (do
      let bytes ← (server.bytes.map (fun b => Json.number b.toNat)).mapM Json.getByte
      let family ← Json.getInt32 (.number (if server.bytes.length = 4 then 2 else 10))
      if (family = 2 ∧ bytes.length ≠ 4) ∨ (family = 10 ∧ bytes.length ≠ 16) ∨
          (family ≠ 2 ∧ family ≠ 10) then
        throw (.io "Invalid resolved DNS address")
      match IPAddress.ofBytes bytes with
      | some ip => return ip.text
      | none => throw (.other "ArgumentException")) := rfl
  rw [hread, hbytes]
  obtain ⟨bytes, h | h⟩ := server
  · obtain ⟨a, b, c, d, rfl⟩ := IPAddress.exists_four h
    simp [Json.getInt32, serverText, IPAddress.ofBytes, pure, bind, Except.pure, Except.bind]
  · simp [h, Json.getInt32, serverText, IPAddress.ofBytes_sixteen h, pure, bind, Except.pure, Except.bind]

/-- The state of a link as it is read. -/
def stateOf (link : Link) : ResolvedLinkState where
  servers := link.servers.map serverText
  domains := link.domains.map (fun d => ⟨some d.1, d.2⟩)
  defaultRoute := link.defaultRoute

theorem parse_value (link : Link) :
    parse (link.value .dns) (link.value .domains) (link.value .defaultRoute) = .ok (stateOf link) := by
  have hservers := Json.mapM_map_ok parseServer_value link.servers
  have hdomains := Json.mapM_map_ok (f := parseDomain) (g := fun d : String × Bool => .array [.string d.1, .boolean d.2])
    (h := fun d => ⟨some d.1, d.2⟩) (fun _ => rfl) link.domains
  have hread : parse (link.value .dns) (link.value .domains) (link.value .defaultRoute) = (do
      let servers ← (link.servers.map ServerAddress.value).mapM parseServer
      let domains ← (link.domains.map (fun d => Json.array [.string d.1, .boolean d.2])).mapM parseDomain
      return ⟨servers, domains, link.defaultRoute⟩) := rfl
  rw [hread, hservers, hdomains]
  rfl

/-- The bytes of the overlay's gateway. -/
def gatewayBytes : List UInt8 := [10, 10, 0, 1]

/-- No other address is read as the gateway's. -/
theorem serverText_eq_gateway (server : ServerAddress) :
    serverText server = OverlayAddressPlan.gateway ↔ server.bytes = gatewayBytes := by
  have hgateway : OverlayAddressPlan.gateway = (IPAddress.v4 10 10 0 1).text := rfl
  constructor
  · intro h
    obtain ⟨bytes, hsize | hsize⟩ := server
    · obtain ⟨a, b, c, d, rfl⟩ := IPAddress.exists_four hsize
      have hv4 := IPAddress.text_v4_inj (h.trans hgateway)
      injection hv4 with ha hb hc hd
      rw [ha, hb, hc, hd]
      rfl
    · have htext : serverText ⟨bytes, .inr hsize⟩ = String.ofList (IPAddress.textV6 bytes) := by
        rw [serverText, IPAddress.ofBytes_sixteen hsize]
        rfl
      have hcolon := IPAddress.colon_mem_textV6 hsize
      rw [htext, hgateway] at h
      rw [← String.toList_ofList (l := IPAddress.textV6 bytes), h] at hcolon
      exact absurd hcolon (IPAddress.colon_not_mem_text_v4 10 10 0 1)
  · intro h
    obtain ⟨bytes, hsize⟩ := server
    subst h
    rfl

end ResolvedLink

end EasyTierHost
