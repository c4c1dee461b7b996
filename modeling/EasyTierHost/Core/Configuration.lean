import EasyTierHost.Abstractions.Models
import EasyTierHost.Text.Toml

/- The configuration the Host writes for Core: the profile validator and the
   TOML text of Configuration.cs, and the command line of
   EasyTierArgumentBuilder.cs. Strings are well-formed Unicode, as those the JSON
   reader and the secret file give are; a character outside the BMP is two units
   in the source and both are copied, which is what copying the character does.
   A string that the source checks for null is not null here. -/
namespace EasyTierHost

/-- `char.IsWhiteSpace`. -/
def isWhiteSpace (c : Char) : Bool :=
  let n := c.toNat
  (0x9 ≤ n && n ≤ 0xd) || n == 0x20 || n == 0x85 || n == 0xa0 || n == 0x1680 ||
    (0x2000 ≤ n && n ≤ 0x200a) || n == 0x2028 || n == 0x2029 || n == 0x202f || n == 0x205f ||
    n == 0x3000

/-- `string.IsNullOrWhiteSpace`. -/
def isNullOrWhiteSpace (s : String) : Bool := s.toList.all isWhiteSpace

/-! ## The profile validator -/

namespace NetworkProfileValidator

def deviceChar (c : Char) : Bool := c.isAlphanum || c == '_' || c == '-'

/-- `DevicePattern`, `^[a-zA-Z0-9_-]{1,32}$`: the dollar also matches in front of
a final line feed. -/
def devicePattern (name : String) : Bool :=
  let cs := name.toList
  let body := if cs.getLast? = some '\n' then cs.dropLast else cs
  1 ≤ body.length && body.length ≤ 32 && body.all deviceChar

/-- The address test of the seed and of the DNS upstreams. -/
def physicalIpv4 (text : String) : Bool :=
  match IPAddress.tryParse text with
  | some ip => isPhysicalUnicast ip
  | none => false

def require (ok : Bool) (reason : String) : Except Err Unit :=
  if ok then .ok () else .error (.host "ETH003" reason)

def validPort (n : Int) : Bool := 0 < n && n ≤ 65535

def validate (p : NetworkProfile) : Except Err Unit := do
  require (p.schemaVersion == 1) "Unsupported configuration schema"
  require (!isNullOrWhiteSpace p.networkName) "Network name required"
  require (!isNullOrWhiteSpace p.secretFile) "Secret file required"
  require (!isNullOrWhiteSpace p.corePath && !isNullOrWhiteSpace p.cliPath)
    "Core and CLI paths required"
  require (validPort p.port && validPort p.rpcPort && p.rpcPort != p.port)
    "Invalid/conflicting ports"
  require (devicePattern p.deviceName) "Invalid TUN device name"
  (if p.role ≠ .seed then
    require ((p.seedPhysicalIp.map physicalIpv4).getD false)
      "Seed must be a physical unicast IPv4 address"
  else .ok ())
  require (if p.role = .dedicated then (p.dedicatedIndex.map (fun i => decide (2 ≤ i ∧ i ≤ 10))).getD false
      else p.dedicatedIndex.isNone)
    "Dedicated index must be 2..10 and only used for Dedicated"
  require (!p.enableInternetGateway || p.role == .client) "Only clients select an Internet gateway"
  p.dnsUpstreams.forM (fun dns =>
    require (physicalIpv4 dns) "DNS upstream must be a physical unicast IPv4 address")

/-- What a profile that passed the validator satisfies. -/
structure Valid (p : NetworkProfile) : Prop where
  schema : p.schemaVersion = 1
  name : isNullOrWhiteSpace p.networkName = false
  secretFile : isNullOrWhiteSpace p.secretFile = false
  paths : isNullOrWhiteSpace p.corePath = false ∧ isNullOrWhiteSpace p.cliPath = false
  port : 0 < p.port ∧ p.port ≤ 65535
  rpcPort : 0 < p.rpcPort ∧ p.rpcPort ≤ 65535 ∧ p.rpcPort ≠ p.port
  device : devicePattern p.deviceName = true
  seed : p.role ≠ .seed → ∃ text, p.seedPhysicalIp = some text ∧ physicalIpv4 text = true
  dedicated : p.role = .dedicated → ∃ i, p.dedicatedIndex = some i ∧ 2 ≤ i ∧ i ≤ 10
  undedicated : p.role ≠ .dedicated → p.dedicatedIndex = none
  gateway : p.enableInternetGateway = true → p.role = .client
  upstreams : ∀ dns ∈ p.dnsUpstreams, physicalIpv4 dns = true

theorem require_ok {ok : Bool} {reason : String} (h : require ok reason = .ok ()) : ok = true := by
  unfold require at h
  split at h
  · assumption
  · cases h

/-- The first of two checks passed, and so did the second. -/
theorem bind_ok {a b : Except Err Unit} (h : (a >>= fun _ => b) = .ok ()) :
    a = .ok () ∧ b = .ok () := by
  cases a with
  | error e => cases h
  | ok u => exact ⟨rfl, h⟩

theorem forM_require_ok {check : String → Bool} {reason : String} {l : List String}
    (h : l.forM (fun s => require (check s) reason) = .ok ()) : ∀ s ∈ l, check s = true := by
  induction l with
  | nil => simp
  | cons a l ih =>
    obtain ⟨ha, hl⟩ := bind_ok h
    intro s hs
    rcases List.mem_cons.mp hs with rfl | hs
    · exact require_ok ha
    · exact ih hl s hs

theorem validate_ok {p : NetworkProfile} (h : validate p = .ok ()) : Valid p := by
  obtain ⟨schema, h⟩ := bind_ok h
  obtain ⟨name, h⟩ := bind_ok h
  obtain ⟨secretFile, h⟩ := bind_ok h
  obtain ⟨paths, h⟩ := bind_ok h
  obtain ⟨ports, h⟩ := bind_ok h
  obtain ⟨device, h⟩ := bind_ok h
  obtain ⟨seed, h⟩ := bind_ok h
  obtain ⟨dedicated, h⟩ := bind_ok h
  obtain ⟨gateway, h⟩ := bind_ok h
  replace ports := require_ok ports
  simp only [validPort, Bool.and_eq_true, decide_eq_true_eq, bne_iff_ne] at ports
  replace dedicated := require_ok dedicated
  refine ⟨by simpa using require_ok schema, by simpa using require_ok name,
    by simpa using require_ok secretFile, by simpa using require_ok paths, ports.1.1,
    ⟨ports.1.2.1, ports.1.2.2, ports.2⟩, require_ok device, ?_, ?_, ?_, ?_,
    forM_require_ok h⟩
  · intro hrole
    rw [if_pos hrole] at seed
    have hs := require_ok seed
    cases hp : p.seedPhysicalIp with
    | none => simp [hp] at hs
    | some text => exact ⟨text, rfl, by simpa [hp] using hs⟩
  · intro hrole
    rw [if_pos hrole] at dedicated
    cases hp : p.dedicatedIndex with
    | none => simp [hp] at dedicated
    | some i => exact ⟨i, rfl, by simpa [hp] using dedicated⟩
  · intro hrole
    rw [if_neg hrole] at dedicated
    simpa using dedicated
  · intro he
    have hg := require_ok gateway
    simpa [he] using hg

end NetworkProfileValidator

/-! ## The text for Core -/

/-- `Guid`, as the number its digits spell. -/
abbrev Guid := BitVec 128

def hexChar (upper : Bool) (d : Nat) : Char :=
  (if upper then "0123456789ABCDEF" else "0123456789abcdef").toList.getD d '0'

/-- The digits `first .. first + count - 1` of the 32 a `Guid` has. -/
def Guid.digits (g : Guid) (first count : Nat) : String :=
  String.ofList ((List.range count).map (fun i => hexChar false (g.toNat / 16 ^ (31 - (first + i)) % 16)))

/-- The format "D". -/
def Guid.text (g : Guid) : String :=
  g.digits 0 8 ++ "-" ++ g.digits 8 4 ++ "-" ++ g.digits 12 4 ++ "-" ++ g.digits 16 4 ++ "-" ++
    g.digits 20 12

namespace EasyTierConfigBuilder

/-- The format "X4". -/
def hex4 (n : Nat) : List Char :=
  [hexChar true (n / 4096 % 16), hexChar true (n / 256 % 16), hexChar true (n / 16 % 16),
    hexChar true (n % 16)]

/-- What `Quote` appends for one character. -/
def escape (c : Char) : List Char :=
  if c = '"' then ['\\', '"']
  else if c = '\\' then ['\\', '\\']
  else if c = '\n' then ['\\', 'n']
  else if c = '\r' then ['\\', 'r']
  else if c = '\t' then ['\\', 't']
  else if c.toNat < 0x20 ∨ c.toNat = 0x7f then '\\' :: 'u' :: hex4 c.toNat
  else [c]

def quote (text : String) : String :=
  String.ofList ('"' :: (text.toList.flatMap escape ++ ['"']))

def flag (b : Bool) : String := if b then "true" else "false"

/-- The lines in front of the network identity. -/
def headLines (p : NetworkProfile) (instanceId : Option Guid) : List String :=
  ["instance_name = " ++ quote "EasyTierHost",
    "dhcp = " ++ flag (p.role == .client),
    "listeners = [\"tcp://0.0.0.0:" ++ toString p.port ++ "\", \"udp://0.0.0.0:" ++
      toString p.port ++ "\"]"] ++
  (match instanceId with
    | some id => ["instance_id = \"" ++ id.text ++ "\""]
    | none => []) ++
  (if p.role = .gateway ∨ p.role = .dedicated then
    ["ipv4 = \"10.10.0." ++
      (if p.role = .gateway then "1" else (p.dedicatedIndex.map toString).getD "") ++ "/16\""]
  else []) ++
  (if p.role = .client then ["exit_nodes = [\"10.10.0.1\"]"] else [])

/-- The lines behind the network identity. -/
def tailLines (p : NetworkProfile) : List String :=
  (if p.role ≠ .seed then
    ["", "[[peer]]", "uri = \"tcp://" ++ p.seedPhysicalIp.getD "" ++ ":" ++ toString p.port ++ "\""]
  else []) ++
  (if p.role = .client then
    ["", "[dhcp_range]", "network = \"10.10.0.0/16\"", "start = \"10.10.0.11\"",
      "end = \"10.10.255.254\""]
  else []) ++
  ["", "[flags]", "dev_name = " ++ quote p.deviceName, "no_tun = " ++ flag (p.role == .seed),
    "enable_exit_node = " ++ flag (p.role == .gateway), "bind_device = true"]

def lines (p : NetworkProfile) (secret : String) (instanceId : Option Guid) : List String :=
  headLines p instanceId ++
  ["", "[network_identity]", "network_name = " ++ quote p.networkName,
    "network_secret = " ++ quote secret] ++
  tailLines p

def build (p : NetworkProfile) (secret : String) (instanceId : Option Guid) : Except Err String := do
  NetworkProfileValidator.validate p
  if isNullOrWhiteSpace secret then throw (.host "ETH003" "Network secret is empty")
  pure ("\n".intercalate (lines p secret instanceId) ++ "\n")

theorem build_ok {p : NetworkProfile} {secret : String} {instanceId : Option Guid} {text : String}
    (h : build p secret instanceId = .ok text) :
    NetworkProfileValidator.Valid p ∧ isNullOrWhiteSpace secret = false ∧
      text = "\n".intercalate (lines p secret instanceId) ++ "\n" := by
  unfold build at h
  cases hv : NetworkProfileValidator.validate p with
  | error e => rw [hv] at h; cases h
  | ok u =>
    rw [hv] at h
    cases hs : isNullOrWhiteSpace secret with
    | true => rw [hs] at h; cases h
    | false =>
      rw [hs] at h
      cases h
      exact ⟨NetworkProfileValidator.validate_ok hv, rfl, rfl⟩

theorem build_valid {p : NetworkProfile} {secret : String} (instanceId : Option Guid)
    (hv : NetworkProfileValidator.validate p = .ok ()) (hs : isNullOrWhiteSpace secret = false) :
    build p secret instanceId = .ok ("\n".intercalate (lines p secret instanceId) ++ "\n") := by
  unfold build
  rw [hv, hs]
  rfl

end EasyTierConfigBuilder

/-! ## The command line -/

namespace EasyTierArgumentBuilder

/-- The test of the underlay address. -/
def underlayArguments (text : String) : Except Err (List String) :=
  match IPAddress.tryParse text with
  | some ip =>
    if isPhysicalUnicast ip then .ok ["--underlay-source-ipv4", ip.text]
    else .error (.host "ETH301" "Invalid physical IPv4 for underlay binding")
  | none => .error (.host "ETH301" "Invalid physical IPv4 for underlay binding")

def build (profile : NetworkProfile) (configurationPath : String) (options : CoreLaunchOptions) :
    Except Err (List String) := do
  if isNullOrWhiteSpace configurationPath then
    throw (.host "ETH003" "Core configuration path required")
  let args := ["--config-file", configurationPath,
    "--rpc-portal", "127.0.0.1:" ++ toString profile.rpcPort]
  match options.underlaySourceIpv4 with
  | some text =>
    if isNullOrWhiteSpace text then pure args
    else pure (args ++ (← underlayArguments text))
  | none => pure args

end EasyTierArgumentBuilder

end EasyTierHost
