import EasyTierHost.Core.CoreStatusReader
import EasyTierHost.Effects.Outcome

/- Which replies of Core's command line the readiness loops of
   ClientInternetCoordinator.cs and GatewayCoordinator.cs survive. The loops catch
   four kinds of exceptions and ask again. An element of the wrong kind throws one of
   the four; a missing property, a number out of range and a text that is no GUID
   throw others, so what decides is which of the unchecked reads is reached. -/
namespace EasyTierHost
open Text Effects

/-- What the `catch` of the readiness loops lets the loop survive. -/
def Err.retried : Err → Bool
  | .invalidOperation _ => true
  | .io _ => true
  | .cancelled => true
  | .other type => type == "JsonException"
  | _ => false

/-! ## Conditions on an element -/

namespace JsonElement
open JsonText

/-- Null, or a string without half of a surrogate pair. -/
def isText : JsonElement → Bool
  | .string raw => (unescape raw).isSome
  | .null => true
  | _ => false

def isUInt32 : JsonElement → Bool
  | .number raw => (uint raw).isSome
  | _ => false

/-- The property is there and satisfies `P`, or the search for it ends in an
element that is no object or in a name with half of a surrogate pair. -/
def Required (name : String) (P : JsonElement → Prop) (e : JsonElement) : Prop :=
  match e.tryGetProperty name with
  | .ok (some x) => P x
  | .ok none => False
  | .error _ => True

/-- If the property is there it satisfies `P`. -/
def IfThere (name : String) (P : JsonElement → Prop) (e : JsonElement) : Prop :=
  ∀ x, e.tryGetProperty name = .ok (some x) → P x

/-- The property is there and satisfies `P`. -/
def Has (name : String) (P : JsonElement → Prop) (e : JsonElement) : Prop :=
  ∃ x, e.tryGetProperty name = .ok (some x) ∧ P x

/-- The property is not there, or satisfies `P`. -/
def AbsentOr (name : String) (P : JsonElement → Prop) (e : JsonElement) : Prop :=
  e.tryGetProperty name = .ok none ∨ Has name P e

/-! ## What an accessor lets through -/

theorem nameMatches_survives (name raw : List Char) : Survives Err.retried (nameMatches name raw) := by
  simp only [nameMatches]
  split
  · exact survives_ok _
  · split
    · split
      · exact survives_ok _
      · exact survives_error.mpr rfl
    · exact survives_ok _

theorem find_survives (name : List Char) : ∀ fields, Survives Err.retried (find name fields)
  | [] => survives_ok _
  | (raw, x) :: fields => by
    rw [find, survives_bind]
    refine ⟨nameMatches_survives name raw, ?_⟩
    intro found _
    cases found with
    | true => exact survives_ok _
    | false => exact find_survives name fields

theorem tryGetProperty_survives (name : String) (e : JsonElement) :
    Survives Err.retried (e.tryGetProperty name) := by
  unfold tryGetProperty
  split
  · exact find_survives _ _
  · exact survives_error.mpr rfl

theorem getString_survives (e : JsonElement) : Survives Err.retried e.getString := by
  unfold getString
  split
  · split
    · exact survives_ok _
    · exact survives_error.mpr rfl
  · exact survives_ok _
  · exact survives_error.mpr rfl

section
variable {α : Type} {name : String} {e : JsonElement} {P : JsonElement → Prop}

theorem survives_tryGetProperty {k : Option JsonElement → Except Err α}
    (hnone : Survives Err.retried (k none))
    (h : ∀ x, Survives Err.retried (k (some x)) ↔ P x) :
    Survives Err.retried (e.tryGetProperty name >>= k) ↔ IfThere name P e := by
  rw [survives_bind]
  constructor
  · intro hs x hx
    exact (h x).mp (hs.2 (some x) hx)
  · intro hp
    refine ⟨tryGetProperty_survives name e, ?_⟩
    intro found hfound
    cases found with
    | none => exact hnone
    | some x => exact (h x).mpr (hp x hfound)

theorem returns_tryGetProperty {k : Option JsonElement → Except Err α}
    (hnone : Returns (k none)) (h : ∀ x, Returns (k (some x)) ↔ P x) :
    Returns (e.tryGetProperty name >>= k) ↔ AbsentOr name P e := by
  rw [returns_bind]
  constructor
  · intro hr
    obtain ⟨found, hfound, hk⟩ := hr
    cases found with
    | none => exact .inl hfound
    | some x => exact .inr ⟨x, hfound, (h x).mp hk⟩
  · intro hl
    cases hl with
    | inl hl => exact ⟨none, hl, hnone⟩
    | inr hl =>
      obtain ⟨x, hx, hp⟩ := hl
      exact ⟨some x, hx, (h x).mpr hp⟩

theorem survives_getProperty {f : JsonElement → Except Err α}
    (h : ∀ x, Survives Err.retried (f x) ↔ P x) :
    Survives Err.retried (e.getProperty name >>= f) ↔ Required name P e := by
  unfold getProperty Required
  cases hfound : e.tryGetProperty name with
  | ok found =>
    cases found with
    | some x => exact h x
    | none =>
      show Survives Err.retried (.error (.other "KeyNotFoundException")) ↔ False
      rw [survives_error]
      decide
  | error err =>
    have herr := tryGetProperty_survives name e err hfound
    show Survives Err.retried (.error err) ↔ True
    rw [survives_error, herr]
    decide

theorem returns_getProperty {f : JsonElement → Except Err α} (h : ∀ x, Returns (f x) ↔ P x) :
    Returns (e.getProperty name >>= f) ↔ Has name P e := by
  unfold getProperty Has
  cases hfound : e.tryGetProperty name with
  | ok found =>
    cases found with
    | some x =>
      show Returns (f x) ↔ _
      rw [h x]
      simp
    | none =>
      show Returns (.error _) ↔ _
      simp
  | error err =>
    show Returns (.error err) ↔ _
    simp

theorem returns_getString : Returns e.getString ↔ e.isText = true := by
  cases e with
  | string raw =>
    cases hraw : unescape raw with
    | some cs => simp [getString, isText, hraw]
    | none => simp [getString, isText, hraw]
  | null => simp [getString, isText]
  | boolean b => simp [getString, isText]
  | number raw => simp [getString, isText]
  | array items => simp [getString, isText]
  | object fields => simp [getString, isText]

theorem survives_getText {f : Option String → Except Err α} {P : Prop}
    (h : ∀ t, Survives Err.retried (f t) ↔ P) :
    Survives Err.retried (e.getString >>= f) ↔ (e.isText = true → P) := by
  rw [survives_seq h, returns_getString]
  exact and_iff_right (getString_survives e)

/-- The three ends of `GetUInt32`. -/
theorem getUInt32_cases (e : JsonElement) :
    (∃ n, e.getUInt32 = .ok n ∧ e.isNumber = true ∧ e.isUInt32 = true) ∨
      (e.getUInt32 = .error .format ∧ e.isNumber = true ∧ e.isUInt32 = false) ∨
      (e.getUInt32 = .error invalid ∧ e.isNumber = false ∧ e.isUInt32 = false) := by
  cases e with
  | number raw =>
    cases hraw : uint raw with
    | some n => exact .inl ⟨n, by simp [getUInt32, hraw], rfl, by simp [isUInt32, hraw]⟩
    | none => exact .inr (.inl ⟨by simp [getUInt32, hraw], rfl, by simp [isUInt32, hraw]⟩)
  | null => exact .inr (.inr ⟨rfl, rfl, rfl⟩)
  | string raw => exact .inr (.inr ⟨rfl, rfl, rfl⟩)
  | boolean b => exact .inr (.inr ⟨rfl, rfl, rfl⟩)
  | array items => exact .inr (.inr ⟨rfl, rfl, rfl⟩)
  | object fields => exact .inr (.inr ⟨rfl, rfl, rfl⟩)

theorem survives_getUInt32 {f : Nat → Except Err α} {P : Prop}
    (h : ∀ n, Survives Err.retried (f n) ↔ P) :
    Survives Err.retried (e.getUInt32 >>= f) ↔ (e.isNumber = true → e.isUInt32 = true ∧ P) := by
  obtain ⟨n, hget, hnumber, huint⟩ | ⟨hget, hnumber, huint⟩ | ⟨hget, hnumber, huint⟩ :=
    getUInt32_cases e
  · rw [hget, hnumber, huint]
    show Survives Err.retried (f n) ↔ _
    rw [h n]
    simp
  · rw [hget, hnumber, huint]
    show Survives Err.retried (.error Err.format) ↔ _
    rw [survives_error]
    simp [Err.retried]
  · rw [hget, hnumber]
    show Survives Err.retried (.error invalid) ↔ _
    rw [survives_error]
    simp [Err.retried, invalid]

theorem returns_getUInt32 {f : Nat → Except Err α} {P : Prop} (h : ∀ n, Returns (f n) ↔ P) :
    Returns (e.getUInt32 >>= f) ↔ e.isUInt32 = true ∧ P := by
  obtain ⟨n, hget, -, huint⟩ | ⟨hget, -, huint⟩ | ⟨hget, -, huint⟩ := getUInt32_cases e
  · rw [hget, huint]
    show Returns (f n) ↔ _
    rw [h n]
    simp
  · rw [hget, huint]
    show Returns (.error Err.format) ↔ _
    simp
  · rw [hget, huint]
    show Returns (.error invalid) ↔ _
    simp

/-- A number that is read for what is returned. -/
theorem survives_readUInt32 {g : Nat → α} :
    Survives Err.retried (e.getUInt32 >>= fun n => pure (g n)) ↔
      (e.isNumber = true → e.isUInt32 = true) := by
  have hg : ∀ n, Survives Err.retried (pure (g n) : Except Err α) ↔ True := by
    intro n
    exact iff_true_intro (survives_ok (g n))
  rw [survives_getUInt32 hg, and_true]

theorem returns_readUInt32 {g : Nat → α} :
    Returns (e.getUInt32 >>= fun n => pure (g n)) ↔ e.isUInt32 = true := by
  have hg : ∀ n, Returns (pure (g n) : Except Err α) ↔ True := by
    intro n
    exact iff_true_intro (returns_ok (g n))
  rw [returns_getUInt32 hg, and_true]

end

end JsonElement

/-! ## The node -/

open JsonElement CoreStatusReader

section
variable (guidTryParse : String → Option Guid) (uriHost : String → Option String)

/-- A string that spells a GUID. -/
def spellsGuid : JsonElement → Bool
  | .string raw => ((JsonText.unescape raw).map (fun cs => (guidTryParse (String.ofList cs)).isSome)).getD false
  | _ => false

/-- What `ParseNode` reads without a check is there and of the right form, unless a
read before it meets an element of the wrong kind. -/
def NodeFits (node : JsonElement) : Prop :=
  Required "ipv4_addr" (fun ipv4 => ipv4.isText = true →
    Required "peer_id" (fun peerId => peerId.isNumber = true → peerId.isUInt32 = true ∧
      Required "inst_id" (fun instanceId => instanceId.isText = true →
        spellsGuid guidTryParse instanceId = true ∧ Required "version" (fun _ => True) node) node)
    node) node

/-- `Guid.Parse` throws what is not caught unless there is a GUID to read. -/
theorem survives_guidParse {α : Type} {e : JsonElement} {t : Option String} {f : Guid → Except Err α}
    {P : Prop} (ht : e.getString = .ok t) (h : ∀ g, Survives Err.retried (f g) ↔ P) :
    Survives Err.retried (guidParse guidTryParse t >>= f) ↔ spellsGuid guidTryParse e = true ∧ P := by
  cases e with
  | string raw =>
    cases hraw : JsonText.unescape raw with
    | none => simp [getString, hraw] at ht
    | some cs =>
      simp only [getString, hraw] at ht
      cases ht
      cases hg : guidTryParse (String.ofList cs) with
      | some g =>
        simp only [guidParse, hg, spellsGuid, hraw]
        show Survives Err.retried (f g) ↔ _
        rw [h g]
        simp [hg]
      | none =>
        simp only [guidParse, hg, spellsGuid, hraw]
        show Survives Err.retried (.error Err.format) ↔ _
        rw [survives_error]
        simp [Err.retried, hg]
  | null =>
    cases ht
    show Survives Err.retried (.error (.other "ArgumentNullException")) ↔ _
    rw [survives_error]
    simp [Err.retried, spellsGuid]
  | number raw => cases ht
  | boolean b => cases ht
  | array items => cases ht
  | object fields => cases ht

theorem nodeStatus_survives {node : JsonElement} (hnode : node.isObject = true) :
    Survives Err.retried (nodeStatus guidTryParse node) ↔ NodeFits guidTryParse node := by
  unfold nodeStatus NodeFits
  rw [hnode]
  show Survives Err.retried (getProperty "ipv4_addr" node >>= _) ↔ _
  refine survives_getProperty (fun ipv4 => survives_getText (fun _ => ?_))
  refine survives_getProperty (fun peerId => survives_getUInt32 (fun _ => ?_))
  refine survives_getProperty (fun instanceId => ?_)
  have hversion : ∀ (ipv4 : Option String) (n : Nat) (g : Guid), Survives Err.retried (do
      let version ← (← node.getProperty "version").getString
      pure (CoreNodeStatus.mk n g (overlayOf ipv4) version)) ↔ Required "version" (fun _ => True) node := by
    intro ipv4 n g
    refine survives_getProperty (fun version => ?_)
    rw [survives_getText (P := True) (fun _ => by simp [pure, Except.pure])]
    simp
  rw [survives_bind]
  constructor
  · intro h htext
    obtain ⟨text, ht⟩ := returns_getString.mpr htext
    exact (survives_guidParse guidTryParse ht (hversion _ _)).mp (h.2 text ht)
  · intro h
    refine ⟨getString_survives instanceId, ?_⟩
    intro text ht
    exact (survives_guidParse guidTryParse ht (hversion _ _)).mpr (h (returns_getString.mp ⟨text, ht⟩))

/-! ## The peers -/

/-- The endpoint under a field of a tunnel can be looked at. -/
def EndpointReads (field : String) (tunnel : JsonElement) : Prop :=
  AbsentOr field (fun endpoint => endpoint.isObject = true →
    AbsentOr "url" (fun url => url.isText = true) endpoint) tunnel

/-- An element that holds `true` under `is_closed`. -/
def IsClosed (connection : JsonElement) : Prop :=
  Has "is_closed" (fun closed => closed = .boolean true) connection

def ConnectionReads (connection : JsonElement) : Prop :=
  AbsentOr "is_closed" (fun closed => closed.isBoolean = true) connection ∧
    (¬ IsClosed connection → AbsentOr "tunnel" (fun tunnel => tunnel.isObject = true →
      EndpointReads "resolved_remote_addr" tunnel ∧ EndpointReads "remote_addr" tunnel) connection)

/-- The connections of a peer can be looked at. -/
def EndpointsRead (pair : JsonElement) : Prop :=
  AbsentOr "peer" (fun peer => peer.isObject = true →
    AbsentOr "conns" (fun connections =>
      ∃ items, connections = .array items ∧ ∀ c ∈ items, ConnectionReads c) peer) pair

theorem fieldEndpoint_survives (tunnel : JsonElement) (endpoints : List IPAddress) (field : String) :
    Survives Err.retried (fieldEndpoint uriHost tunnel endpoints field) := by
  unfold fieldEndpoint
  refine Survives.bind (tryGetProperty_survives _ _) ?_
  intro found
  cases found with
  | none => exact survives_ok _
  | some endpoint =>
    refine survives_unless.mpr (fun _ => Survives.bind (tryGetProperty_survives _ _) ?_)
    intro found
    cases found with
    | none => exact survives_ok _
    | some url =>
      refine Survives.bind (getString_survives url) ?_
      intro t
      split
      · exact survives_ok _
      · exact survives_ok _

theorem fieldEndpoint_returns (tunnel : JsonElement) (endpoints : List IPAddress) (field : String) :
    Returns (fieldEndpoint uriHost tunnel endpoints field) ↔ EndpointReads field tunnel := by
  unfold fieldEndpoint
  refine returns_tryGetProperty (returns_ok _) ?_
  intro endpoint
  rw [returns_unless]
  refine imp_congr_right (fun _ => returns_tryGetProperty (returns_ok _) ?_)
  intro url
  rw [returns_seq (P := True) ?_, returns_getString, and_true]
  intro t
  split
  · simp [pure, Except.pure]
  · simp [pure, Except.pure]

theorem isClosed_survives (connection : JsonElement) : Survives Err.retried (isClosed connection) := by
  unfold isClosed
  refine Survives.bind (tryGetProperty_survives _ _) ?_
  intro found
  cases found with
  | none => exact survives_ok _
  | some closed =>
    cases closed with
    | boolean b => exact survives_ok _
    | _ => exact survives_error.mpr rfl

theorem isClosed_returns (connection : JsonElement) :
    Returns (isClosed connection) ↔
      AbsentOr "is_closed" (fun closed => closed.isBoolean = true) connection := by
  unfold isClosed
  refine returns_tryGetProperty (returns_ok _) ?_
  intro closed
  cases closed with
  | boolean b => simp [getBoolean, isBoolean]
  | _ => simp [getBoolean, isBoolean]

theorem isClosed_true {connection : JsonElement} :
    isClosed connection = .ok true ↔ IsClosed connection := by
  unfold isClosed IsClosed Has
  cases hfound : connection.tryGetProperty "is_closed" with
  | error err =>
    show (.error err : Except Err Bool) = .ok true ↔ _
    simp
  | ok found =>
    cases found with
    | none =>
      show (.ok false : Except Err Bool) = .ok true ↔ _
      simp
    | some closed =>
      show closed.getBoolean = .ok true ↔ _
      cases closed with
      | boolean b => simp [getBoolean]
      | _ => simp [getBoolean]

theorem tunnelEndpoints_survives (endpoints : List IPAddress) (connection : JsonElement) :
    Survives Err.retried (tunnelEndpoints uriHost endpoints connection) := by
  unfold tunnelEndpoints
  refine Survives.bind (tryGetProperty_survives _ _) ?_
  intro found
  cases found with
  | none => exact survives_ok _
  | some tunnel =>
    refine survives_unless.mpr (fun _ => survives_foldlM ?_ _ _)
    exact fieldEndpoint_survives uriHost tunnel

theorem tunnelEndpoints_returns (endpoints : List IPAddress) (connection : JsonElement) :
    Returns (tunnelEndpoints uriHost endpoints connection) ↔
      AbsentOr "tunnel" (fun tunnel => tunnel.isObject = true →
        EndpointReads "resolved_remote_addr" tunnel ∧ EndpointReads "remote_addr" tunnel) connection := by
  unfold tunnelEndpoints
  refine returns_tryGetProperty (returns_ok _) ?_
  intro tunnel
  rw [returns_unless]
  refine imp_congr_right (fun _ => ?_)
  rw [returns_foldlM (fun eps field => fieldEndpoint_returns uriHost tunnel eps field)]
  simp

theorem connectionEndpoints_survives (endpoints : List IPAddress) (connection : JsonElement) :
    Survives Err.retried (connectionEndpoints uriHost endpoints connection) := by
  unfold connectionEndpoints
  refine Survives.bind (isClosed_survives connection) ?_
  intro closed
  cases closed with
  | true => exact survives_ok _
  | false => exact tunnelEndpoints_survives uriHost endpoints connection

theorem connectionEndpoints_returns (endpoints : List IPAddress) (connection : JsonElement) :
    Returns (connectionEndpoints uriHost endpoints connection) ↔ ConnectionReads connection := by
  unfold connectionEndpoints ConnectionReads
  rw [returns_bind, ← isClosed_returns, ← isClosed_true, ← tunnelEndpoints_returns uriHost endpoints]
  constructor
  · intro h
    obtain ⟨closed, hclosed, hr⟩ := h
    refine ⟨⟨closed, hclosed⟩, ?_⟩
    intro hopen
    cases closed with
    | true => exact absurd hclosed hopen
    | false => exact hr
  · intro h
    obtain ⟨⟨closed, hclosed⟩, hr⟩ := h
    refine ⟨closed, hclosed, ?_⟩
    cases closed with
    | true => exact returns_ok _
    | false => exact hr (by rw [hclosed]; simp)

theorem enumerateArray_eq {e : JsonElement} {items : List JsonElement} :
    e.enumerateArray = .ok items ↔ e = .array items := by
  cases e with
  | array l => simp [enumerateArray]
  | _ => simp [enumerateArray]

theorem enumerateArray_survives (e : JsonElement) : Survives Err.retried e.enumerateArray := by
  cases e with
  | array l => exact survives_ok _
  | _ => exact survives_error.mpr rfl

theorem peerEndpoints_survives (pair : JsonElement) :
    Survives Err.retried (peerEndpoints uriHost pair) := by
  unfold peerEndpoints
  refine Survives.bind (tryGetProperty_survives _ _) ?_
  intro found
  cases found with
  | none => exact survives_ok _
  | some peer =>
    refine survives_unless.mpr (fun _ => Survives.bind (tryGetProperty_survives _ _) ?_)
    intro found
    cases found with
    | none => exact survives_ok _
    | some connections =>
      refine Survives.bind (enumerateArray_survives connections) ?_
      intro items
      exact survives_foldlM (connectionEndpoints_survives uriHost) items []

theorem peerEndpoints_returns (pair : JsonElement) :
    Returns (peerEndpoints uriHost pair) ↔ EndpointsRead pair := by
  unfold peerEndpoints
  refine returns_tryGetProperty (returns_ok _) ?_
  intro peer
  rw [returns_unless]
  refine imp_congr_right (fun _ => returns_tryGetProperty (returns_ok _) ?_)
  intro connections
  rw [returns_bind]
  simp only [enumerateArray_eq, returns_foldlM (connectionEndpoints_returns uriHost)]

/-- The numbers of an address are there and in range. -/
def AddressReads (route : JsonElement) : Prop :=
  AbsentOr "ipv4_addr" (fun address => address.isObject = true →
    Has "address" (fun inner => Has "addr" (fun number => number.isUInt32 = true) inner) address) route

/-- What is read of an address without a check is there and in range, unless a read
meets an element of the wrong kind. -/
def AddressFits (route : JsonElement) : Prop :=
  IfThere "ipv4_addr" (fun address => address.isObject = true →
    Required "address" (fun inner => Required "addr" (fun number =>
      number.isNumber = true → number.isUInt32 = true) inner) address) route

theorem routeAddress_returns (route : JsonElement) :
    Returns (routeAddress route) ↔ AddressReads route := by
  unfold routeAddress
  refine returns_tryGetProperty (returns_ok _) ?_
  intro address
  rw [returns_unless]
  refine imp_congr_right (fun _ => returns_getProperty (fun inner => returns_getProperty ?_))
  intro number
  exact returns_readUInt32

theorem routeAddress_survives (route : JsonElement) :
    Survives Err.retried (routeAddress route) ↔ AddressFits route := by
  unfold routeAddress
  refine survives_tryGetProperty (survives_ok _) ?_
  intro address
  rw [survives_unless]
  refine imp_congr_right (fun _ => survives_getProperty (fun inner => survives_getProperty ?_))
  intro number
  exact survives_readUInt32

/-- A pair that `ParsePeers` gets past. -/
def PairReads (pair : JsonElement) : Prop :=
  AbsentOr "route" (fun route => route.isObject = true → AddressReads route ∧ EndpointsRead pair ∧
    Has "peer_id" (fun peerId => peerId.isUInt32 = true) route) pair

/-- A pair at which it throws nothing else than what is caught. -/
def PairFits (pair : JsonElement) : Prop :=
  IfThere "route" (fun route => route.isObject = true → AddressFits route ∧
    (AddressReads route → EndpointsRead pair →
      Required "peer_id" (fun peerId => peerId.isNumber = true → peerId.isUInt32 = true) route)) pair

/-- Every pair it comes to fits. -/
def PeersFit (root : JsonElement) : Prop :=
  ∀ before pair after, root = .array (before ++ pair :: after) →
    (∀ p ∈ before, PairReads p) → PairFits pair

theorem peerStatus_returns (result : List CorePeerStatus) (pair : JsonElement) :
    Returns (peerStatus uriHost result pair) ↔ PairReads pair := by
  unfold peerStatus
  refine returns_tryGetProperty (returns_ok _) ?_
  intro route
  rw [returns_unless]
  refine imp_congr_right (fun _ => ?_)
  rw [← routeAddress_returns, ← peerEndpoints_returns uriHost]
  refine returns_seq (fun ipv4 => returns_seq (fun endpoints => returns_getProperty ?_))
  intro peerId
  exact returns_readUInt32

theorem peerStatus_survives (result : List CorePeerStatus) (pair : JsonElement) :
    Survives Err.retried (peerStatus uriHost result pair) ↔ PairFits pair := by
  unfold peerStatus
  refine survives_tryGetProperty (survives_ok _) ?_
  intro route
  rw [survives_unless]
  refine imp_congr_right (fun _ => ?_)
  rw [← routeAddress_survives, ← routeAddress_returns, ← peerEndpoints_returns uriHost]
  refine survives_seq (fun ipv4 => ?_)
  refine (survives_seq (fun endpoints => survives_getProperty ?_)).trans
    (and_iff_right (peerEndpoints_survives uriHost pair))
  intro peerId
  exact survives_readUInt32

theorem peerStatuses_survives (root : JsonElement) :
    Survives Err.retried (peerStatuses uriHost root) ↔ PeersFit root := by
  cases root with
  | array items =>
    show Survives Err.retried (items.foldlM (peerStatus uriHost) []) ↔ _
    rw [survives_foldlM_iff (peerStatus_returns uriHost) (peerStatus_survives uriHost)]
    simp only [PeersFit, JsonText.Value.array.injEq]
  | _ =>
    constructor
    · intro _ before pair after h
      cases h
    · intro _
      exact survives_error.mpr rfl

/-! ## Every reply -/

theorem parse_survives (json : String) : Survives Err.retried (JsonDocument.parse json) := by
  unfold JsonDocument.parse
  split
  · exact survives_ok _
  · exact survives_error.mpr rfl

/-- `ParseNode` returns, or throws what the loops catch, or refuses a document that is
no object. -/
def NodeReplyRetried (json : String) : Prop :=
  ∀ e, parseNode guidTryParse json = .error e → e.retried = true ∨
    e = oneInstance ∧ ∃ root, JsonDocument.parse json = .ok root ∧ root.isObject = false

theorem parseNode_retried_iff (json : String) : NodeReplyRetried guidTryParse json ↔
    ∀ root, JsonDocument.parse json = .ok root → root.isObject = true → NodeFits guidTryParse root := by
  unfold NodeReplyRetried parseNode
  cases hparse : JsonDocument.parse json with
  | error err =>
    constructor
    · intro _ root h
      cases h
    · intro _ e h
      cases h
      exact .inl (parse_survives json err hparse)
  | ok root =>
    show (∀ e, nodeStatus guidTryParse root = .error e → _) ↔ _
    cases hroot : root.isObject with
    | true =>
      constructor
      · intro h root' he _
        cases he
        rw [← nodeStatus_survives guidTryParse hroot]
        intro e herr
        cases h e herr with
        | inl h => exact h
        | inr h =>
          obtain ⟨-, root', he, hno⟩ := h
          cases he
          rw [hroot] at hno
          cases hno
      · intro h e herr
        exact .inl ((nodeStatus_survives guidTryParse hroot).mpr (h root rfl hroot) e herr)
    | false =>
      have hrefused : nodeStatus guidTryParse root = .error oneInstance := by
        unfold nodeStatus
        rw [hroot]
        rfl
      constructor
      · intro _ root' he htrue
        cases he
        rw [hroot] at htrue
        cases htrue
      · intro _ e herr
        cases hrefused.symm.trans herr
        exact .inr ⟨rfl, root, rfl, hroot⟩

theorem parsePeers_retried_iff (json : String) : Survives Err.retried (parsePeers uriHost json) ↔
    ∀ root, JsonDocument.parse json = .ok root → PeersFit root := by
  unfold parsePeers
  rw [survives_bind]
  simp only [peerStatuses_survives]
  exact and_iff_right (parse_survives json)

/-- A reply is fatal exactly when a property that is read without a check is missing,
or holds a number out of range or a text that is no GUID, and nothing before it ends
the reading in a way that is caught. -/
theorem replies_retried_iff (json : String) :
    (NodeReplyRetried guidTryParse json ↔ ∀ root, JsonDocument.parse json = .ok root →
      root.isObject = true → NodeFits guidTryParse root) ∧
    (Survives Err.retried (parsePeers uriHost json) ↔ ∀ root, JsonDocument.parse json = .ok root →
      PeersFit root) :=
  ⟨parseNode_retried_iff guidTryParse json, parsePeers_retried_iff uriHost json⟩

end

/-- An empty object and a route without a peer identifier end the readiness loop. -/
theorem missing_property_fatal :
    ¬ NodeReplyRetried (fun _ => none) "\x7b\x7d" ∧
    ¬ Survives Err.retried (parsePeers (fun _ => none) "[\x7b\"route\": \x7b\x7d\x7d]") := by
  have hnode : parseNode (fun _ => none) "\x7b\x7d" = .error (.other "KeyNotFoundException") := by rfl
  have hpeers : parsePeers (fun _ => none) "[\x7b\"route\": \x7b\x7d\x7d]" =
      .error (.other "KeyNotFoundException") := by rfl
  constructor
  · intro h
    cases h _ hnode with
    | inl h => exact absurd h (by decide)
    | inr h => cases h.1
  · intro h
    exact absurd (h _ hpeers) (by decide)

end EasyTierHost
