import EasyTierHost.Core.Configuration
import EasyTierHost.Text.JsonText

/- What the Host makes of the replies of Core's command line, after
   CoreStatusReader.cs. The text is anything at all, so an element is kept as it is
   written: a number may be a fraction or out of range, a string may end in half of
   a surrogate pair. `Guid.TryParse` and the host that `Uri.TryCreate` finds in an
   absolute URI are parameters; neither throws. -/
namespace EasyTierHost
open Text

/-- `JsonElement`, in a document whose names and strings are not yet unescaped. -/
abbrev JsonElement := JsonText.Value

/-- `JsonDocument.Parse`, to a depth of 64. -/
def JsonDocument.parse (json : String) : Except Err JsonElement :=
  match JsonText.parse 64 json.toList with
  | some root => .ok root
  | none => .error (.other "JsonException")

namespace JsonElement
open JsonText

/-- What an element of another kind throws, and a string or name with half of a
surrogate pair. -/
def invalid : Err := .invalidOperation "The requested operation requires another element"

def isObject : JsonElement → Bool
  | .object _ => true
  | _ => false

def isArray : JsonElement → Bool
  | .array _ => true
  | _ => false

def isNumber : JsonElement → Bool
  | .number _ => true
  | _ => false

def isBoolean : JsonElement → Bool
  | .boolean _ => true
  | _ => false

/-- Whether a name as written is the name asked for. One with escapes is unescaped
only when it is longer than the name and agrees with it up to its first escape. -/
def nameMatches (name raw : List Char) : Except Err Bool :=
  let before := raw.takeWhile (· ≠ '\\')
  if before = raw then .ok (raw == name)
  else if name.length < (String.ofList raw).utf8ByteSize ∧ before.length < name.length ∧
      before.isPrefixOf name then
    match unescape (raw.drop before.length) with
    | some rest => .ok (rest == name.drop before.length)
    | none => .error invalid
  else .ok false

/-- The fields are searched from the last one. -/
def find (name : List Char) : List (List Char × JsonElement) → Except Err (Option JsonElement)
  | [] => .ok none
  | (raw, x) :: fields => do if ← nameMatches name raw then pure (some x) else find name fields

/-- `TryGetProperty`, for a name in ASCII. -/
def tryGetProperty (name : String) : JsonElement → Except Err (Option JsonElement)
  | .object fields => find name.toList fields.reverse
  | _ => .error invalid

/-- `GetProperty`. -/
def getProperty (name : String) (e : JsonElement) : Except Err JsonElement := do
  match ← tryGetProperty name e with
  | some x => pure x
  | none => throw (.other "KeyNotFoundException")

def enumerateArray : JsonElement → Except Err (List JsonElement)
  | .array items => .ok items
  | _ => .error invalid

/-- `GetString`, of which null is one value. -/
def getString : JsonElement → Except Err (Option String)
  | .string raw =>
    match unescape raw with
    | some cs => .ok (some (String.ofList cs))
    | none => .error invalid
  | .null => .ok none
  | _ => .error invalid

def getBoolean : JsonElement → Except Err Bool
  | .boolean b => .ok b
  | _ => .error invalid

/-- The number of a `uint`: digits alone, below 2^32. -/
def uint (raw : List Char) : Option Nat :=
  if raw.all Char.isDigit then
    let n := Nat.ofDigitChars 10 raw 0
    if n < 2^32 then some n else none
  else none

/-- `GetUInt32`. -/
def getUInt32 : JsonElement → Except Err Nat
  | .number raw =>
    match uint raw with
    | some n => .ok n
    | none => .error .format
  | _ => .error invalid

end JsonElement

/-- `CoreNodeStatus`; the version may be null. -/
structure CoreNodeStatus where
  peerId : Nat
  instanceId : Guid
  overlayIp : Option String
  version : Option String
  deriving DecidableEq, Repr

/-- `CorePeerStatus`. -/
structure CorePeerStatus where
  peerId : Nat
  overlayIp : Option String
  endpoints : List IPAddress
  deriving DecidableEq, Repr

namespace CoreStatusReader
open JsonElement

section
variable (guidTryParse : String → Option Guid) (uriHost : String → Option String)

/-- `Guid.Parse`. -/
def guidParse : Option String → Except Err Guid
  | none => .error (.other "ArgumentNullException")
  | some text =>
    match guidTryParse text with
    | some g => .ok g
    | none => .error .format

/-- The part in front of the first slash, unless it is no address or is 0.0.0.0. -/
def overlayOf (text : Option String) : Option String :=
  let ipv4 := text.map (fun t => String.ofList ((IPAddress.splitAtChar '/' t.toList).headD []))
  ipv4.filter (fun t => match IPAddress.tryParse t with
    | some ip => ip ≠ .v4 0 0 0 0
    | none => false)

/-- What `ParseNode` throws for a document that is no object. -/
def oneInstance : Err := .host "ETH003" "Expected one EasyTierHost instance"

/-- `ParseNode`, of the root of the document. -/
def nodeStatus (node : JsonElement) : Except Err CoreNodeStatus := do
  if !node.isObject then throw oneInstance
  let ipv4 ← (← node.getProperty "ipv4_addr").getString
  let peerId ← (← node.getProperty "peer_id").getUInt32
  let instanceId ← guidParse guidTryParse (← (← node.getProperty "inst_id").getString)
  let version ← (← node.getProperty "version").getString
  pure ⟨peerId, instanceId, overlayOf ipv4, version⟩

def parseNode (json : String) : Except Err CoreNodeStatus := do
  nodeStatus guidTryParse (← JsonDocument.parse json)

/-- `Trim('[', ']')`. -/
def trimBrackets (text : String) : String :=
  let bracket := fun (c : Char) => c == '[' || c == ']'
  String.ofList (((text.toList.dropWhile bracket).reverse.dropWhile bracket).reverse)

/-- The endpoint a URL names, if it is a physical IPv4 address. -/
def endpointOf (url : Option String) : Option IPAddress :=
  ((url.bind uriHost).bind (fun host => IPAddress.tryParse (trimBrackets host))).filter isPhysicalUnicast

/-- The endpoint under one of the two fields of a tunnel, added to those found. -/
def fieldEndpoint (tunnel : JsonElement) (endpoints : List IPAddress) (field : String) :
    Except Err (List IPAddress) := do
  match ← tunnel.tryGetProperty field with
  | none => pure endpoints
  | some endpoint =>
    if !endpoint.isObject then pure endpoints
    else match ← endpoint.tryGetProperty "url" with
      | none => pure endpoints
      | some url =>
        match endpointOf uriHost (← url.getString) with
        | some ip => pure (if ip ∈ endpoints then endpoints else endpoints ++ [ip])
        | none => pure endpoints

def isClosed (connection : JsonElement) : Except Err Bool := do
  match ← connection.tryGetProperty "is_closed" with
  | some closed => closed.getBoolean
  | none => pure false

/-- The endpoints of an open connection; one without a tunnel is passed over. -/
def tunnelEndpoints (endpoints : List IPAddress) (connection : JsonElement) :
    Except Err (List IPAddress) := do
  match ← connection.tryGetProperty "tunnel" with
  | none => pure endpoints
  | some tunnel =>
    if !tunnel.isObject then pure endpoints
    else ["resolved_remote_addr", "remote_addr"].foldlM (fieldEndpoint uriHost tunnel) endpoints

/-- One connection; a closed one is passed over. -/
def connectionEndpoints (endpoints : List IPAddress) (connection : JsonElement) :
    Except Err (List IPAddress) := do
  if ← isClosed connection then pure endpoints else tunnelEndpoints uriHost endpoints connection

/-- The endpoints of a peer. -/
def peerEndpoints (pair : JsonElement) : Except Err (List IPAddress) := do
  match ← pair.tryGetProperty "peer" with
  | none => pure []
  | some peer =>
    if !peer.isObject then pure []
    else match ← peer.tryGetProperty "conns" with
      | none => pure []
      | some connections => do
        (← connections.enumerateArray).foldlM (connectionEndpoints uriHost) []

/-- The overlay address of a route. -/
def routeAddress (route : JsonElement) : Except Err (Option String) := do
  match ← route.tryGetProperty "ipv4_addr" with
  | none => pure none
  | some address =>
    if !address.isObject then pure none
    else do
      let number ← (← (← address.getProperty "address").getProperty "addr").getUInt32
      pure (some (IPAddress.ofNumber number).text)

/-- One pair of a route and a peer; without a route it is passed over. -/
def peerStatus (result : List CorePeerStatus) (pair : JsonElement) :
    Except Err (List CorePeerStatus) := do
  match ← pair.tryGetProperty "route" with
  | none => pure result
  | some route =>
    if !route.isObject then pure result
    else do
      let ipv4 ← routeAddress route
      let endpoints ← peerEndpoints uriHost pair
      let peerId ← (← route.getProperty "peer_id").getUInt32
      pure (result ++ [⟨peerId, ipv4, endpoints⟩])

/-- `ParsePeers`, of the root of the document. -/
def peerStatuses (root : JsonElement) : Except Err (List CorePeerStatus) := do
  if !root.isArray then throw (.io "Invalid peer status response")
  (← root.enumerateArray).foldlM (peerStatus uriHost) []

def parsePeers (json : String) : Except Err (List CorePeerStatus) := do
  peerStatuses uriHost (← JsonDocument.parse json)

end

end CoreStatusReader
end EasyTierHost
