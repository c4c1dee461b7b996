import Mathlib.Data.List.Forall2
import EasyTierHost.Core.ConfigText

/- What the configuration text says. Every line of the text `Build` writes is read
   as the item it was meant to be, whatever characters the profile and the secret
   hold, and the items make up the table the role prescribes. -/
namespace EasyTierHost
open Text EasyTierConfigBuilder

/-! ## What the role prescribes -/

/-- The keys of the root table that hold values. -/
def rootValues (p : NetworkProfile) (instanceId : Option Guid) : Toml.Table :=
  [("instance_name".toList, .string "EasyTierHost".toList),
    ("dhcp".toList, .boolean (p.role == .client)),
    ("listeners".toList, .array [("tcp://0.0.0.0:" ++ toString p.port).toList,
      ("udp://0.0.0.0:" ++ toString p.port).toList])] ++
  (match instanceId with
    | some id => [("instance_id".toList, .string id.text.toList)]
    | none => []) ++
  (match p.role with
    | .gateway => [("ipv4".toList, .string "10.10.0.1/16".toList)]
    | .dedicated => [("ipv4".toList,
        .string ("10.10.0." ++ (p.dedicatedIndex.map toString).getD "" ++ "/16").toList)]
    | .client => [("exit_nodes".toList, .array ["10.10.0.1".toList])]
    | .seed => [])

def networkIdentity (networkName secret : String) : Toml.Table :=
  [("network_name".toList, .string networkName.toList),
    ("network_secret".toList, .string secret.toList)]

/-- The peer, which is the seed. -/
def peer (p : NetworkProfile) : Toml.Table :=
  [("uri".toList, .string ("tcp://" ++ p.seedPhysicalIp.getD "" ++ ":" ++ toString p.port).toList)]

def dhcpPool : Toml.Table :=
  [("network".toList, .string "10.10.0.0/16".toList), ("start".toList, .string "10.10.0.11".toList),
    ("end".toList, .string "10.10.255.254".toList)]

def flags (p : NetworkProfile) : Toml.Table :=
  [("dev_name".toList, .string p.deviceName.toList), ("no_tun".toList, .boolean (p.role == .seed)),
    ("enable_exit_node".toList, .boolean (p.role == .gateway)),
    ("bind_device".toList, .boolean true)]

/-- The document of a profile: which tables there are depends on the role alone. -/
def prescribed (p : NetworkProfile) (secret : String) (instanceId : Option Guid) : Toml.Document :=
  (rootValues p instanceId).map (fun e => (e.1, .value e.2)) ++
  [("network_identity".toList, .table (networkIdentity p.networkName secret))] ++
  (match p.role with
    | .seed => []
    | .client => [("peer".toList, .tables [peer p]), ("dhcp_range".toList, .table dhcpPool)]
    | _ => [("peer".toList, .tables [peer p])]) ++
  [("flags".toList, .table (flags p))]

/-! ## The items of the text -/

/-- The pairs of a table. -/
def pairs (t : Toml.Table) : List Toml.Item := t.map (fun e => .pair e.1 e.2)

/-- The items in front of the network identity. -/
def headItems (p : NetworkProfile) (instanceId : Option Guid) : List Toml.Item :=
  pairs (rootValues p instanceId)

/-- The items behind it. -/
def tailItems (p : NetworkProfile) : List Toml.Item :=
  (if p.role ≠ .seed then .blank :: .tableArray "peer".toList :: pairs (peer p) else []) ++
  (if p.role = .client then .blank :: .table "dhcp_range".toList :: pairs dhcpPool else []) ++
  .blank :: .table "flags".toList :: pairs (flags p)

/-- A line is read as an item. -/
def Says (line : String) (item : Toml.Item) : Prop := Toml.readLine line.toList = some item

instance (line : String) (item : Toml.Item) : Decidable (Says line item) :=
  inferInstanceAs (Decidable (_ = _))

theorem says_quote (key text : String) (hk : BareKey key) {line : String}
    (hline : line.toList = key.toList ++ ' ' :: '=' :: ' ' :: (quote text).toList) :
    Says line (.pair key.toList (.string text.toList)) :=
  readLine_quote key text hk hline

theorem says_string (key content : String) (hk : BareKey key) (hc : Tame content) {line : String}
    (hline : line.toList = key.toList ++ ' ' :: '=' :: ' ' :: '"' :: (content.toList ++ ['"'])) :
    Says line (.pair key.toList (.string content.toList)) := by
  have hr := Toml.readValue_string (Toml.readString_literal hc.literal [])
  rw [Says, hline, Toml.readLine_pair hk.1 hk.2, hr]
  rfl

theorem says_flag {key : String} {item : Bool → Toml.Item} (b : Bool)
    (h : Says (key ++ "true") (item true) ∧ Says (key ++ "false") (item false)) :
    Says (key ++ flag b) (item b) := by
  cases b
  · exact h.2
  · exact h.1

theorem says_array (key a b : String) (hk : BareKey key) (h₁ : Tame a) (h₂ : Tame b)
    {line : String} (hline : line.toList = key.toList ++ ' ' :: '=' :: ' ' :: '[' :: '"' ::
      (a.toList ++ '"' :: ',' :: ' ' :: '"' :: (b.toList ++ ['"', ']']))) :
    Says line (.pair key.toList (.array [a.toList, b.toList])) := by
  rw [Says, hline, Toml.readLine_pair hk.1 hk.2, Toml.readValue_two h₁.literal h₂.literal]
  rfl

theorem says_singleton {line : String} {item : Toml.Item} (h : Says line item) :
    List.Forall₂ Says [line] [item] := .cons h .nil

/-- Every line in front of the identity says what it should. -/
theorem says_headLines {p : NetworkProfile} (hp : NetworkProfileValidator.Valid p)
    (instanceId : Option Guid) :
    List.Forall₂ Says (headLines p instanceId) (headItems p instanceId) := by
  have hport : Tame (toString p.port) := tame_int (by have := hp.port; omega)
  have hfirst : List.Forall₂ Says
      ["instance_name = " ++ quote "EasyTierHost", "dhcp = " ++ flag (p.role == .client),
        "listeners = [\"tcp://0.0.0.0:" ++ toString p.port ++ "\", \"udp://0.0.0.0:" ++
          toString p.port ++ "\"]"]
      [.pair "instance_name".toList (.string "EasyTierHost".toList),
        .pair "dhcp".toList (.boolean (p.role == .client)),
        .pair "listeners".toList (.array [("tcp://0.0.0.0:" ++ toString p.port).toList,
          ("udp://0.0.0.0:" ++ toString p.port).toList])] := by
    refine .cons ?_ (.cons ?_ (.cons ?_ .nil))
    · exact says_quote "instance_name" "EasyTierHost" (by decide) (by simp)
    · exact @says_flag "dhcp = " (fun b => .pair "dhcp".toList (.boolean b)) _ (by decide +kernel)
    · exact says_array "listeners" ("tcp://0.0.0.0:" ++ toString p.port)
        ("udp://0.0.0.0:" ++ toString p.port) (by decide) (.append (by decide) hport)
        (.append (by decide) hport) (by simp)
  have hipv4 : ∀ host : String, Tame host → Says ("ipv4 = \"10.10.0." ++ host ++ "/16\"")
      (.pair "ipv4".toList (.string ("10.10.0." ++ host ++ "/16").toList)) := by
    intro host hh
    exact says_string "ipv4" ("10.10.0." ++ host ++ "/16") (by decide)
      (.append (.append (by decide) hh) (by decide)) (by simp)
  unfold headLines headItems rootValues pairs
  rw [List.map_append, List.map_append, List.append_assoc]
  refine List.rel_append (List.rel_append hfirst ?_) ?_
  · cases instanceId with
    | none => exact .nil
    | some id =>
      exact says_singleton (says_string "instance_id" id.text (by decide) (tame_guid id) (by simp))
  · cases hrole : p.role with
    | seed => exact .nil
    | gateway => exact says_singleton (hipv4 "1" (by decide))
    | dedicated =>
      obtain ⟨i, hi, hlo, -⟩ := hp.dedicated hrole
      rw [hi]
      exact says_singleton (hipv4 (toString i) (tame_int (by omega)))
    | client =>
      have hexit : Says "exit_nodes = [\"10.10.0.1\"]"
          (.pair "exit_nodes".toList (.array ["10.10.0.1".toList])) := by decide +kernel
      exact says_singleton hexit

/-- And so does every line behind it. -/
theorem says_tailLines {p : NetworkProfile} (hp : NetworkProfileValidator.Valid p) :
    List.Forall₂ Says (tailLines p) (tailItems p) := by
  have hport : Tame (toString p.port) := tame_int (by have := hp.port; omega)
  have hblank : Says "" .blank := by decide
  have hpeer : p.role ≠ .seed → List.Forall₂ Says
      ["", "[[peer]]", "uri = \"tcp://" ++ p.seedPhysicalIp.getD "" ++ ":" ++ toString p.port ++ "\""]
      (.blank :: .tableArray "peer".toList :: pairs (peer p)) := by
    intro hrole
    obtain ⟨text, ht, hv⟩ := hp.seed hrole
    rw [peer, ht, Option.getD_some]
    refine .cons hblank (.cons (by decide) (says_singleton ?_))
    exact says_string "uri" ("tcp://" ++ text ++ ":" ++ toString p.port) (by decide)
      (.append (.append (.append (by decide) (tame_of_physicalIpv4 hv)) (by decide)) hport) (by simp)
  have hpool : List.Forall₂ Says
      ["", "[dhcp_range]", "network = \"10.10.0.0/16\"", "start = \"10.10.0.11\"",
        "end = \"10.10.255.254\""]
      (.blank :: .table "dhcp_range".toList :: pairs dhcpPool) := by
    refine .cons hblank (.cons (by decide) (.cons ?_ (.cons ?_ (.cons ?_ .nil))))
    · decide +kernel
    · decide +kernel
    · decide +kernel
  have hflags : List.Forall₂ Says
      ["", "[flags]", "dev_name = " ++ quote p.deviceName, "no_tun = " ++ flag (p.role == .seed),
        "enable_exit_node = " ++ flag (p.role == .gateway), "bind_device = true"]
      (.blank :: .table "flags".toList :: pairs (flags p)) := by
    refine .cons hblank (.cons (by decide) (.cons ?_ (.cons ?_ (.cons ?_ (.cons ?_ .nil)))))
    · exact says_quote "dev_name" p.deviceName (by decide) (by simp)
    · exact @says_flag "no_tun = " (fun b => .pair "no_tun".toList (.boolean b)) _
        (by decide +kernel)
    · exact @says_flag "enable_exit_node = "
        (fun b => .pair "enable_exit_node".toList (.boolean b)) _ (by decide +kernel)
    · decide +kernel
  unfold tailLines tailItems
  refine List.rel_append ?_ hflags
  apply List.rel_append
  · split
    next hrole => exact hpeer hrole
    next => exact .nil
  · split
    next => exact hpool
    next => exact .nil

/-! ## The document -/

theorem mapM_says {ls : List String} {items : List Toml.Item} (h : List.Forall₂ Says ls items) :
    (ls.map String.toList).mapM Toml.readLine = some items := by
  induction h with
  | nil => rfl
  | cons hs _ ih =>
    have hread : Toml.readLine _ = some _ := hs
    simp [hread, ih]

theorem says_lines {p : NetworkProfile} (hp : NetworkProfileValidator.Valid p) (secret : String)
    (instanceId : Option Guid) :
    List.Forall₂ Says (lines p secret instanceId)
      (headItems p instanceId ++ identityItems p.networkName secret ++ tailItems p) := by
  refine List.rel_append (List.rel_append (says_headLines hp instanceId) ?_) (says_tailLines hp)
  refine .cons (by decide) (.cons (by decide) (.cons ?_ (.cons ?_ .nil)))
  · exact says_quote "network_name" p.networkName (by decide) (by simp)
  · exact says_quote "network_secret" secret (by decide) (by simp)

/-- The text is read as its items, with a blank line behind the last line feed. -/
theorem parse_items {p : NetworkProfile} (hp : NetworkProfileValidator.Valid p) (secret : String)
    (instanceId : Option Guid) :
    Toml.parse (terminated (lines p secret instanceId)) =
      some (headItems p instanceId ++ identityItems p.networkName secret ++ tailItems p ++
        [.blank]) := by
  rw [parse_terminated hp, mapM_says (says_lines hp secret instanceId)]
  rfl

/-- The items make up the prescribed document: which keys and headers there are is
decided by the role and by whether there is an instance id, so the reader runs the
same way whatever the values are. -/
theorem assemble_items (p : NetworkProfile) (secret : String) (instanceId : Option Guid) :
    Toml.assemble [] none (headItems p instanceId ++ identityItems p.networkName secret ++
      tailItems p ++ [.blank]) = some (prescribed p secret instanceId) := by
  unfold headItems tailItems prescribed flags rootValues
  cases instanceId with
  | none =>
    cases hrole : p.role with
    | seed => rfl
    | gateway => rfl
    | dedicated => rfl
    | client => rfl
  | some id =>
    cases hrole : p.role with
    | seed => rfl
    | gateway => rfl
    | dedicated => rfl
    | client => rfl

theorem read_lines {p : NetworkProfile} (hp : NetworkProfileValidator.Valid p) (secret : String)
    (instanceId : Option Guid) :
    Toml.read ("\n".intercalate (lines p secret instanceId) ++ "\n").toList =
      some (prescribed p secret instanceId) := by
  rw [toList_joined _ (by simp [lines]), Toml.read, parse_items hp]
  exact assemble_items p secret instanceId

/-- The text `Build` writes for a valid profile and a secret is a TOML document, and
it is the table the role prescribes with the very strings of the profile. -/
theorem build_decodes (p : NetworkProfile) (secret : String) (instanceId : Option Guid)
    (hv : NetworkProfileValidator.validate p = .ok ()) (hs : isNullOrWhiteSpace secret = false) :
    ∃ text, build p secret instanceId = .ok text ∧
      Toml.read text.toList = some (prescribed p secret instanceId) := by
  have hp := NetworkProfileValidator.validate_ok hv
  exact ⟨_, build_valid instanceId hv hs, read_lines hp secret instanceId⟩

/-- A client whose network is named with a quote, a line feed and a header of its
own. -/
def trickyProfile : NetworkProfile :=
  { networkName := "a\"\n[flags]\ndev_name = \"b", secretFile := "secret",
    seedPhysicalIp := some "192.0.2.1" }

theorem build_decodes_tricky : ∃ text doc,
    build trickyProfile "p\"\\\n" none = .ok text ∧ Toml.read text.toList = some doc ∧
      doc.length = 8 ∧ doc.lookup "network_identity".toList = some (.table
        [("network_name".toList, .string "a\"\n[flags]\ndev_name = \"b".toList),
          ("network_secret".toList, .string "p\"\\\n".toList)]) := by
  obtain ⟨text, hb, hr⟩ := build_decodes trickyProfile "p\"\\\n" none (by rfl) (by decide)
  exact ⟨text, _, hb, hr, rfl, rfl⟩

end EasyTierHost
