import Mathlib.Data.List.Nodup
import EasyTierHost.Core.JsonElement
import EasyTierHost.Gateway.GatewayBootstrapper

/- LinuxNatManager.cs, the gateway's platform on Linux, and the rollback of
   GatewayBootstrapper.cs over it. Every command may exit with any code, fail to start
   or time out, and one that does not exit with 0 may have had its effect all the same.
   `iptables -C` exits with 0 or 1 as the rule is there or not; any other outcome says
   nothing. `RemoveNatAsync` takes every code but 0, and a command that does not start,
   for the rule's absence: the results say exactly when that is right. -/
namespace EasyTierHost
open Effects Effects.Prog

/-! ## The machine -/

/-- What a snapshot taken on Linux records. -/
structure LinuxRecord where
  ownerToken : String
  physicalInterfaceName : String
  globalForwardingEnabled : Bool
  deriving DecidableEq, Repr

abbrev LinuxSnapshot := GatewayPlatformSnapshot LinuxRecord

/-- A table of nftables. -/
structure NftTable where
  family : String
  name : String
  comment : Option String
  deriving DecidableEq, Repr

/-- The rules of the chain POSTROUTING, and the tables; a family has no two tables of one
name. -/
structure LinuxNat where
  rules : List (List String)
  tables : List NftTable
  unique : (tables.map (fun t => (t.family, t.name))).Nodup
  deriving DecidableEq

structure LinuxPlatform where
  nat : LinuxNat
  forwarding : Bool
  deriving DecidableEq

/-- `iptables -D` deletes the first rule that matches. -/
def LinuxNat.deleteRule (rule : List String) (nat : LinuxNat) : LinuxNat :=
  { nat with rules := nat.rules.erase rule }

/-- `nft delete table ip`. -/
def LinuxNat.deleteTable (name : String) (nat : LinuxNat) : LinuxNat where
  rules := nat.rules
  tables := nat.tables.filter (fun t => !(t.family == "ip" && t.name == name))
  unique := (List.filter_sublist.map _).nodup nat.unique

/-- How `RunAsync` ends. -/
inductive CommandOutcome where
  | exited (code : Int)
  | threw (e : Err)

def CommandOutcome.succeeded : CommandOutcome → Bool
  | exited code => code == 0
  | threw _ => false

structure LinuxReply where
  outcome : CommandOutcome
  /-- A command that failed had its effect. -/
  applied : Bool

/-- `ex is Win32Exception`: the process did not start. -/
def Err.isWin32 : Err → Bool
  | other type => type == "Win32Exception"
  | _ => false

inductive LinuxEvent where
  | deleteRule (rule : List String)
  | deleteTable (name : String)
  | writeForwarding
  | dnsStop
  | save
  | deleteFile
  deriving DecidableEq, Repr

abbrev LinuxM (W : Type) := Prog LinuxEvent LinuxReply W Err

/-- What nft prints: its tables, and one of them. -/
structure Nft where
  listTables : List NftTable → Json
  listTable : NftTable → Json

namespace LinuxNatManager

/-! ## Commands -/

/-- `RunAsync` of a command with an effect. -/
def runAsync (event : LinuxEvent) (change : LinuxPlatform → LinuxPlatform) : LinuxM LinuxPlatform Int := do
  let r ← ask
  effect event (fun w => if r.outcome.succeeded || r.applied then change w else w)
  match r.outcome with
  | .exited code => return code
  | .threw e => throw e

/-- `RunAsync` of a command that prints what there is. -/
def queryAsync : LinuxM LinuxPlatform Int := do
  let r ← ask
  match r.outcome with
  | .exited code => return code
  | .threw e => throw e

/-- `iptables -C`: of its codes 0 and 1 are about the rule. -/
def checkAsync (rule : List String) : LinuxM LinuxPlatform Int := do
  let code ← queryAsync
  let w ← get
  return if code = 0 ∨ code = 1 then (if w.nat.rules.contains rule then 0 else 1) else code

/-- The check of `CheckedAsync`. -/
def exitZero (executable : String) (code : Int) : LinuxM LinuxPlatform Unit :=
  refuse (code ≠ 0) (.invalidOperation (executable ++ " failed (exit " ++ toString code ++ ")"))

/-! ## `LinuxNatManager` -/

def identifierChar (c : Char) : Bool :=
  c.isAlphanum || c == '_' || c == '.' || c == ':' || c == '-'

/-- `^[a-zA-Z0-9_.:-]{1,64}$`, where the end may have a line end before it. -/
def isIdentifier (value : String) : Bool :=
  let chars := if value.toList.getLast? = some '\n' then value.toList.dropLast else value.toList
  1 ≤ chars.length && chars.length ≤ 64 && chars.all identifierChar

def name (value : String) : Except Err String :=
  if isIdentifier value then .ok value
  else .error (.host "ETH003" "Unsupported network interface/resource name")

/-- `StartsWith("ipt_")`. -/
def isIptables (s : LinuxSnapshot) : Bool := "ipt_".toList.isPrefixOf s.resourceName.toList

/-- `"EasyTierHost:" + ..`. -/
def markerText (s : LinuxSnapshot) : String := "EasyTierHost:" ++ s.forwarding.ownerToken

def marker (s : LinuxSnapshot) : Except Err String := do
  let _ ← name s.forwarding.ownerToken
  return markerText s

/-- The rule of a snapshot, as iptables is told it. -/
def ownedRule (s : LinuxSnapshot) : List String :=
  ["-s", OverlayAddressPlan.cidr, "-o", s.forwarding.physicalInterfaceName,
    "-m", "comment", "--comment", markerText s, "-j", "MASQUERADE"]

/-- `IptablesRuleArguments`: the options, and the rule. -/
def iptablesRuleArguments (s : LinuxSnapshot) (action : String) : Except Err (List String × List String) := do
  if action ≠ "-A" ∧ action ≠ "-C" ∧ action ≠ "-D" then throw (.other "ArgumentException")
  let _ ← name s.forwarding.physicalInterfaceName
  let _ ← marker s
  return (["-t", "nat", action, "POSTROUTING"], ownedRule s)

def iptablesRuleExists (s : LinuxSnapshot) : LinuxM LinuxPlatform Bool :=
  tryCatch (do
    let arguments ← ofExcept (iptablesRuleArguments s "-C")
    let code ← checkAsync arguments.2
    return code == 0)
    (fun e => if e.isWin32 then return false else throw e)

/-- `Any` of a predicate that may throw. -/
def anyElement (p : Json → Except Err Bool) : List Json → Except Err Bool
  | [] => .ok false
  | e :: es => do if ← p e then return true else anyElement p es

/-- `RootElement.GetProperty("nftables").EnumerateArray().Any(..)`. -/
def anyListed (p : Json → Except Err Bool) (json : Json) : Except Err Bool := do
  anyElement p (← (← json.getProperty "nftables").enumerateArray)

def isNamed (resource : String) (e : Json) : Except Err Bool := do
  match ← e.tryGetProperty "table" with
  | none => return false
  | some t =>
    if (← (← t.getProperty "family").getString) = some "ip" then
      return (← (← t.getProperty "name").getString) = some resource
    else return false

def isMarked (s : LinuxSnapshot) (e : Json) : Except Err Bool := do
  match ← e.tryGetProperty "table" with
  | none => return false
  | some t =>
    match ← t.tryGetProperty "comment" with
    | none => return false
    | some comment => return (← comment.getString) = some (← marker s)

section
variable (nft : Nft)

def tableExists (s : LinuxSnapshot) : LinuxM LinuxPlatform Bool := do
  exitZero "nft" (← queryAsync)
  ofExcept (anyListed (isNamed s.resourceName) (nft.listTables (← get).nat.tables))

/-- `OwnedAsync`; nft fails for a table that is not there. -/
def owned (s : LinuxSnapshot) : LinuxM LinuxPlatform Bool := do
  let table ← ofExcept (name s.resourceName)
  exitZero "nft" (← queryAsync)
  match (← get).nat.tables.find? (fun t => t.family == "ip" && t.name == table) with
  | none => throw (.invalidOperation "nft failed (exit 1)")
  | some t => ofExcept (anyListed (isMarked s) (nft.listTable t))

def removeNat (s : LinuxSnapshot) : LinuxM LinuxPlatform Unit := do
  if isIptables s then
    if ← iptablesRuleExists s then
      let arguments ← ofExcept (iptablesRuleArguments s "-D")
      exitZero "iptables" (← runAsync (.deleteRule arguments.2)
        (fun w => { w with nat := w.nat.deleteRule arguments.2 }))
  else
    if ← tableExists nft s then
      refuse (!(← owned nft s)) (.io "NAT table ownership mismatch")
      let table ← ofExcept (name s.resourceName)
      exitZero "nft" (← runAsync (.deleteTable table)
        (fun w => { w with nat := w.nat.deleteTable table }))

end

def restoreForwarding (s : LinuxSnapshot) : LinuxM LinuxPlatform Unit := do
  if !s.forwarding.globalForwardingEnabled then
    exitZero "sysctl" (← runAsync .writeForwarding (fun w => { w with forwarding := false }))
    exitZero "sysctl" (← queryAsync)
    refuse ((← get).forwarding) (.io "Forwarding rollback incomplete")

/-! ## What nft reports -/

/-- An element about a table: family, name and comment can be read in it by name, in any
order and among whatever else it has. -/
def Tells (t : NftTable) (e : Json) : Prop :=
  ∃ table, e.tryGetProperty "table" = .ok (some table) ∧ table.getProperty "family" = .ok (.string t.family) ∧
    table.getProperty "name" = .ok (.string t.name) ∧
    table.tryGetProperty "comment" = .ok (t.comment.map Json.string)

/-- A report about `tables`: its elements that are about tables are about these, and each
of these has one. -/
def Reports (json : Json) (tables : List NftTable) : Prop :=
  ∃ elements, json.getProperty "nftables" = .ok (.array elements) ∧
    (∀ e ∈ elements, e.tryGetProperty "table" = .ok none ∨ ∃ t ∈ tables, Tells t e) ∧
    ∀ t ∈ tables, ∃ e ∈ elements, Tells t e

/-- nft reports the tables as they are. -/
structure Faithful (nft : Nft) : Prop where
  tables : ∀ tables, Reports (nft.listTables tables) tables
  table : ∀ t, Reports (nft.listTable t) [t]

/-- Where the predicate throws nowhere, the search says whether it holds of an element. -/
theorem anyElement_iff {p : Json → Except Err Bool} : ∀ {l : List Json}, (∀ e ∈ l, ∃ b, p e = .ok b) →
    ∃ b, anyElement p l = .ok b ∧ (b = true ↔ ∃ e ∈ l, p e = .ok true)
  | [], _ => ⟨false, rfl, by simp⟩
  | e :: l, h => by
    obtain ⟨b, hb⟩ := h e List.mem_cons_self
    cases b with
    | true => exact ⟨true, by rw [anyElement, hb]; rfl, iff_of_true rfl ⟨e, List.mem_cons_self, hb⟩⟩
    | false =>
      obtain ⟨c, hc, hiff⟩ := anyElement_iff (fun x hx => h x (List.mem_cons_of_mem e hx))
      refine ⟨c, ?_, ?_⟩
      · rw [anyElement, hb, ← hc]
        rfl
      · rw [hiff, List.exists_mem_cons_iff, hb]
        simp

/-- What the search finds, the predicate holds of. -/
theorem anyElement_true {p : Json → Except Err Bool} : ∀ {l : List Json}, anyElement p l = .ok true →
    ∃ e ∈ l, p e = .ok true
  | [], h => by cases h
  | e :: l, h => by
    rw [anyElement] at h
    cases hb : p e with
    | error x =>
      rw [hb] at h
      cases h
    | ok b =>
      cases b with
      | true => exact ⟨e, List.mem_cons_self, hb⟩
      | false =>
        rw [hb] at h
        obtain ⟨x, hx, hpx⟩ := anyElement_true h
        exact ⟨x, List.mem_cons_of_mem e hx, hpx⟩

theorem anyListed_eq {p : Json → Except Err Bool} {json : Json} {elements : List Json}
    (h : json.getProperty "nftables" = .ok (.array elements)) : anyListed p json = anyElement p elements := by
  rw [anyListed, h]
  rfl

theorem isNamed_other (resource : String) {e : Json} (h : e.tryGetProperty "table" = .ok none) :
    isNamed resource e = .ok false := by
  rw [isNamed, h]
  rfl

theorem isNamed_table (resource : String) {t : NftTable} {e : Json} (h : Tells t e) :
    isNamed resource e = .ok (t.family == "ip" && t.name == resource) := by
  obtain ⟨table, htable, hfamily, hname, -⟩ := h
  rw [isNamed, htable]
  simp only [bind, Except.bind, hfamily, hname, Json.getString]
  by_cases hip : t.family = "ip"
  · simp [hip, pure, Except.pure]
    rfl
  · simp [hip, pure, Except.pure]

/-- The list says whether the table is there. -/
theorem anyListed_isNamed (resource : String) {json : Json} {tables : List NftTable} (h : Reports json tables) :
    anyListed (isNamed resource) json = .ok (tables.any fun t => t.family == "ip" && t.name == resource) := by
  obtain ⟨elements, hjson, htold, hall⟩ := h
  have hok : ∀ e ∈ elements, ∃ b, isNamed resource e = .ok b := by
    intro e he
    rcases htold e he with hother | ⟨t, -, ht⟩
    · exact ⟨false, isNamed_other resource hother⟩
    · exact ⟨_, isNamed_table resource ht⟩
  obtain ⟨b, hb, hiff⟩ := anyElement_iff hok
  rw [anyListed_eq hjson, hb]
  congr 1
  rw [Bool.eq_iff_iff, hiff, List.any_eq_true]
  constructor
  · rintro ⟨e, he, hnamed⟩
    rcases htold e he with hother | ⟨t, ht, htells⟩
    · rw [isNamed_other resource hother] at hnamed
      cases hnamed
    · rw [isNamed_table resource htells] at hnamed
      exact ⟨t, ht, Except.ok.inj hnamed⟩
  · rintro ⟨t, ht, hkey⟩
    obtain ⟨e, he, htells⟩ := hall t ht
    exact ⟨e, he, by rw [isNamed_table resource htells, hkey]⟩

/-- Only the owner's comment marks a table. -/
theorem anyListed_isMarked {s : LinuxSnapshot} {json : Json} {t : NftTable} (h : Reports json [t])
    (hmarked : anyListed (isMarked s) json = .ok true) : t.comment = some (markerText s) := by
  obtain ⟨elements, hjson, htold, -⟩ := h
  rw [anyListed_eq hjson] at hmarked
  obtain ⟨e, he, hm⟩ := anyElement_true hmarked
  rw [isMarked] at hm
  rcases htold e he with hother | ⟨t', ht', table, htable, -, -, hcomment⟩
  · rw [hother] at hm
    cases hm
  · obtain rfl := List.mem_singleton.mp ht'
    rw [htable] at hm
    simp only [bind, Except.bind, hcomment] at hm
    cases hc : t'.comment with
    | none =>
      rw [hc] at hm
      cases hm
    | some c =>
      rw [hc, marker] at hm
      cases hname : name s.forwarding.ownerToken with
      | error e =>
        rw [hname] at hm
        cases hm
      | ok token =>
        rw [hname] at hm
        have hsame : decide (some c = some (markerText s)) = true := Except.ok.inj hm
        exact of_decide_eq_true hsame

/-! ## The removal of a table -/

/-- What a snapshot owns is not there. -/
def NatGone (s : LinuxSnapshot) (nat : LinuxNat) : Prop :=
  if isIptables s then ownedRule s ∉ nat.rules
  else ∀ t ∈ nat.tables, ¬ (t.family = "ip" ∧ t.name = s.resourceName)

/-- Only a table with the owner's comment was removed. -/
def OnlyOwned (s : LinuxSnapshot) (before after : LinuxNat) : Prop :=
  ∀ t ∈ before.tables, t ∉ after.tables → t.comment = some (markerText s)

theorem onlyOwned_self (s : LinuxSnapshot) {before after : LinuxNat} (h : after.tables = before.tables) :
    OnlyOwned s before after := by
  intro t ht hgone
  rw [h] at hgone
  exact absurd ht hgone

section
variable {nft : Nft} {s : LinuxSnapshot} {w : LinuxPlatform}

theorem name_ok {value result : String} (h : name value = .ok result) : value = result := by
  rw [name] at h
  split at h
  · exact Except.ok.inj h
  · cases h

theorem queryAsync_runs {Q : Int → LinuxPlatform → Prop} {X : Err → LinuxPlatform → Prop}
    (hQ : ∀ code, Q code w) (hX : ∀ e, X e w) : Freely queryAsync Q X w := by
  refine Runs.bind (Runs.ask (fun r _ => ?_))
  cases r.outcome with
  | exited code => exact Runs.pure (hQ code)
  | threw e => exact Runs.throw (hX e)

theorem runAsync_runs {event : LinuxEvent} {change : LinuxPlatform → LinuxPlatform}
    {Q : Int → LinuxPlatform → Prop} {X : Err → LinuxPlatform → Prop} (hdone : Q 0 (change w))
    (hfailed : ∀ w', w' = w ∨ w' = change w → (∀ code, code ≠ 0 → Q code w') ∧ ∀ e, X e w') :
    Freely (runAsync event change) Q X w := by
  refine Runs.bind (Runs.ask (fun r _ => ?_))
  refine Runs.bind (Runs.effect trivial ?_)
  have hw : (if r.outcome.succeeded || r.applied then change w else w) = w ∨
      (if r.outcome.succeeded || r.applied then change w else w) = change w := by
    by_cases h : (r.outcome.succeeded || r.applied) = true
    · exact .inr (if_pos h)
    · exact .inl (if_neg h)
  cases ho : r.outcome with
  | exited code =>
    by_cases hcode : code = 0
    · rw [hcode]
      exact Runs.pure hdone
    · rw [ho] at hw
      exact Runs.pure ((hfailed _ hw).1 code hcode)
  | threw e =>
    rw [ho] at hw
    exact Runs.throw ((hfailed _ hw).2 e)

theorem tableExists_runs (hn : Faithful nft) {Q : Bool → LinuxPlatform → Prop}
    {X : Err → LinuxPlatform → Prop}
    (hQ : Q (w.nat.tables.any (fun t => t.family == "ip" && t.name == s.resourceName)) w)
    (hX : ∀ e, X e w) : Freely (tableExists nft s) Q X w := by
  refine Runs.bind (queryAsync_runs (fun code => ?_) hX)
  refine Runs.bind (Runs.refuse (fun _ => ?_) (fun _ => hX _))
  refine Runs.bind (Runs.get ?_)
  rw [anyListed_isNamed s.resourceName (hn.tables w.nat.tables)]
  exact Runs.ret hQ

theorem owned_runs (hn : Faithful nft) {Q : Bool → LinuxPlatform → Prop} {X : Err → LinuxPlatform → Prop}
    (hQ : ∀ t, w.nat.tables.find? (fun t => t.family == "ip" && t.name == s.resourceName) = some t →
      t.comment = some (markerText s) → Q true w) (hfalse : Q false w) (hX : ∀ e, X e w) :
    Freely (owned nft s) Q X w := by
  refine Runs.bind (Runs.ofExcept (fun table htable => ?_) (fun e _ => hX e))
  obtain rfl := name_ok htable
  refine Runs.bind (queryAsync_runs (fun code => ?_) hX)
  refine Runs.bind (Runs.refuse (fun _ => ?_) (fun _ => hX _))
  refine Runs.bind (Runs.get ?_)
  cases hfind : w.nat.tables.find? (fun t => t.family == "ip" && t.name == s.resourceName) with
  | none => exact Runs.throw (hX _)
  | some t =>
    change Freely (ofExcept (anyListed (isMarked s) (nft.listTable t))) Q X w
    refine Runs.ofExcept (fun b hb => ?_) (fun e _ => hX e)
    cases b with
    | false => exact hfalse
    | true => exact hQ t hfind (anyListed_isMarked (hn.table t) hb)

/-- Deleting a table by its name deletes that table alone. -/
theorem deleteTable_onlyOwned {t : NftTable}
    (hfind : w.nat.tables.find? (fun t => t.family == "ip" && t.name == s.resourceName) = some t)
    (ht : t.comment = some (markerText s)) : OnlyOwned s w.nat (w.nat.deleteTable s.resourceName) := by
  intro t' ht' hgone
  have hkey : t'.family = "ip" ∧ t'.name = s.resourceName := by
    by_contra hne
    apply hgone
    rw [LinuxNat.deleteTable, List.mem_filter]
    refine ⟨ht', ?_⟩
    rw [Bool.not_eq_true', Bool.and_eq_false_iff, beq_eq_false_iff_ne, beq_eq_false_iff_ne]
    exact not_and_or.1 hne
  have hfound := List.find?_some hfind
  simp only [Bool.and_eq_true, beq_iff_eq] at hfound
  have hsame : t' = t := by
    apply List.inj_on_of_nodup_map w.nat.unique ht' (List.mem_of_find?_eq_some hfind)
    rw [hkey.1, hkey.2, hfound.1, hfound.2]
  rw [hsame]
  exact ht

theorem removeTable_runs (hn : Faithful nft) (hs : isIptables s = false) :
    Freely (removeNat nft s) (fun _ w' => NatGone s w'.nat ∧ OnlyOwned s w.nat w'.nat)
      (fun _ w' => OnlyOwned s w.nat w'.nat) w := by
  have hself : OnlyOwned s w.nat w.nat := onlyOwned_self s rfl
  rw [removeNat, hs]
  refine Runs.bind (tableExists_runs hn ?_ (fun _ => hself))
  refine Runs.ite (fun _ => ?_) (fun habsent => Runs.pure ⟨?_, hself⟩)
  · refine Runs.bind (owned_runs hn (fun t hfind ht => ?_) ?_ (fun _ => hself))
    · refine Runs.bind (Runs.refuse (fun _ => ?_) (fun _ => hself))
      refine Runs.bind (Runs.ofExcept (fun table htable => ?_) (fun _ _ => hself))
      obtain rfl := name_ok htable
      have hgone : NatGone s (w.nat.deleteTable s.resourceName) := by
        rw [NatGone, hs]
        intro t' ht' hkey
        rw [LinuxNat.deleteTable, List.mem_filter] at ht'
        simp [hkey] at ht'
      have hremoved := deleteTable_onlyOwned hfind ht
      refine Runs.bind (runAsync_runs (Runs.refuse (fun _ => ⟨hgone, hremoved⟩) (fun _ => hremoved)) ?_)
      intro w' hw'
      have hw' : OnlyOwned s w.nat w'.nat := by
        rcases hw' with rfl | rfl
        · exact hself
        · exact hremoved
      exact ⟨fun code hcode => Runs.refuse (fun h => absurd hcode h) (fun _ => hw'), fun _ => hw'⟩
    · exact Runs.bind (Runs.refuse (fun h => absurd rfl h) (fun _ => hself))
  · rw [NatGone, hs]
    intro t ht hkey
    apply habsent
    rw [List.any_eq_true]
    exact ⟨t, ht, by simp [hkey]⟩

/-! ## The removal of a rule -/

/-- The names a rule is made of are ones iptables is given. -/
def Named (s : LinuxSnapshot) : Prop :=
  isIdentifier s.forwarding.physicalInterfaceName = true ∧ isIdentifier s.forwarding.ownerToken = true

theorem iptablesRuleArguments_named (hs : Named s) {action : String}
    (ha : action = "-A" ∨ action = "-C" ∨ action = "-D") :
    iptablesRuleArguments s action = .ok (["-t", "nat", action, "POSTROUTING"], ownedRule s) := by
  have hwan : name s.forwarding.physicalInterfaceName = .ok s.forwarding.physicalInterfaceName := if_pos hs.1
  have htoken : name s.forwarding.ownerToken = .ok s.forwarding.ownerToken := if_pos hs.2
  rw [iptablesRuleArguments, hwan, marker, htoken]
  rcases ha with rfl | rfl | rfl <;> rfl

theorem iptablesRuleArguments_unnamed (hs : ¬ Named s) (action : String) :
    ∃ e, iptablesRuleArguments s action = .error e ∧ e.isWin32 = false := by
  rw [iptablesRuleArguments]
  split
  · exact ⟨_, rfl, by decide⟩
  · rw [Named, not_and_or] at hs
    cases hs with
    | inl hwan =>
      rw [name, if_neg hwan]
      exact ⟨_, rfl, rfl⟩
    | inr htoken =>
      rw [marker, name, name, if_neg htoken]
      split
      · exact ⟨_, rfl, rfl⟩
      · exact ⟨_, rfl, rfl⟩

theorem queryAsync_eq (script : Nat → LinuxReply) : queryAsync script w = (match (script 0).outcome with
    | .exited code => ⟨[], .ok code, w, fun n => script (n + 1)⟩
    | .threw e => ⟨[], .error e, w, fun n => script (n + 1)⟩) := by
  change ((match (script 0).outcome with
    | .exited code => (pure code : LinuxM LinuxPlatform Int)
    | .threw e => throw e) (fun n => script (n + 1)) w).after [] = _
  cases (script 0).outcome <;> rfl

theorem checkAsync_eq (rule : List String) (script : Nat → LinuxReply) :
    checkAsync rule script w = (match (script 0).outcome with
      | .exited code => ⟨[], .ok (if code = 0 ∨ code = 1 then
          (if w.nat.rules.contains rule then 0 else 1) else code), w, fun n => script (n + 1)⟩
      | .threw e => ⟨[], .error e, w, fun n => script (n + 1)⟩) := by
  change Prog.andThen queryAsync _ raise script w = _
  rw [Prog.andThen, queryAsync_eq]
  cases (script 0).outcome <;> rfl

/-- What the check comes to. -/
def checkResult (s : LinuxSnapshot) (nat : LinuxNat) (r : LinuxReply) : Except Err Bool :=
  match r.outcome with
  | .exited code => .ok (decide (code = 0 ∨ code = 1) && nat.rules.contains (ownedRule s))
  | .threw e => if e.isWin32 then .ok false else .error e

theorem iptablesRuleExists_eq (hs : Named s) (script : Nat → LinuxReply) :
    iptablesRuleExists s script w
      = ⟨[], checkResult s w.nat (script 0), w, fun n => script (n + 1)⟩ := by
  rw [iptablesRuleExists, iptablesRuleArguments_named hs (.inr (.inl rfl)), checkResult]
  change Prog.andThen (Prog.andThen (checkAsync (ownedRule s)) _ raise) _ _ script w = _
  rw [Prog.andThen, Prog.andThen, checkAsync_eq]
  cases (script 0).outcome with
  | exited code =>
    have hcode : ((if code = 0 ∨ code = 1 then (if w.nat.rules.contains (ownedRule s) then 0 else 1)
        else code) == 0) = (decide (code = 0 ∨ code = 1) && w.nat.rules.contains (ownedRule s)) := by
      by_cases h : code = 0 ∨ code = 1
      · cases w.nat.rules.contains (ownedRule s) <;> simp [h]
      · rw [if_neg h, decide_eq_false h, Bool.false_and, beq_eq_false_iff_ne]
        exact fun hzero => h (.inl hzero)
    change (⟨[], .ok ((if code = 0 ∨ code = 1 then
      (if w.nat.rules.contains (ownedRule s) then 0 else 1) else code) == 0), w, _⟩ : Ran _ _ _ _ _) = _
    rw [hcode]
    rfl
  | threw e =>
    change Ran.after [] ((if e.isWin32 then (pure false : LinuxM LinuxPlatform Bool) else throw e)
      (fun n => script (n + 1)) w)
        = ⟨[], if e.isWin32 then .ok false else .error e, w, fun n => script (n + 1)⟩
    cases e.isWin32 <;> rfl

theorem runAsync_eq (event : LinuxEvent) (f : LinuxPlatform → LinuxPlatform) (script : Nat → LinuxReply) :
    let after := if (script 0).outcome.succeeded || (script 0).applied then f w else w
    runAsync event f script w = (match (script 0).outcome with
      | .exited code => ⟨[⟨event, w, after⟩], .ok code, after, fun n => script (n + 1)⟩
      | .threw e => ⟨[⟨event, w, after⟩], .error e, after, fun n => script (n + 1)⟩) := by
  intro after
  change Ran.after [] (Ran.after [⟨event, w, after⟩] ((match (script 0).outcome with
    | .exited code => (pure code : LinuxM LinuxPlatform Int)
    | .threw e => throw e) (fun n => script (n + 1)) after)) = _
  cases (script 0).outcome <;> rfl

/-- A checked command returns where it exits with 0, and then has had its effect. -/
theorem checked_eq (event : LinuxEvent) (f : LinuxPlatform → LinuxPlatform) (executable : String)
    (script : Nat → LinuxReply) :
    ((runAsync event f >>= exitZero executable) script w).result.isOk = (script 0).outcome.succeeded ∧
      ((script 0).outcome.succeeded = true →
        ((runAsync event f >>= exitZero executable) script w).world = f w) := by
  change (Prog.andThen (runAsync event f) (exitZero executable) raise script w).result.isOk = _ ∧
    (_ → (Prog.andThen (runAsync event f) (exitZero executable) raise script w).world = _)
  rw [Prog.andThen, runAsync_eq]
  cases (script 0).outcome with
  | exited code =>
    by_cases hcode : code = 0
    · rw [hcode]
      exact ⟨rfl, fun _ => rfl⟩
    · have hsucceeded : (CommandOutcome.exited code).succeeded = false := by
        simp [CommandOutcome.succeeded, hcode]
      rw [hsucceeded]
      refine ⟨?_, fun h => Bool.noConfusion h⟩
      simp [exitZero, refuse, hcode, Ran.after, raise, Except.isOk, Except.toBool]
  | threw e => exact ⟨rfl, fun h => Bool.noConfusion h⟩

/-- What the replies to the check and to the deletion must be for a removal to be honest. -/
def Told (s : LinuxSnapshot) (nat : LinuxNat) (check delete : LinuxReply) : Prop :=
  match check.outcome with
  | .exited code =>
    if code = 0 ∨ code = 1 then delete.outcome.succeeded = true → nat.rules.count (ownedRule s) ≤ 1
    else ownedRule s ∉ nat.rules
  | .threw e => e.isWin32 = true → ownedRule s ∉ nat.rules

/-- Deleting the first copy of a rule leaves none if there was one. -/
theorem not_mem_erase_iff (rules : List (List String)) (rule : List String) :
    rule ∉ rules.erase rule ↔ rules.count rule ≤ 1 := by
  rw [← List.count_eq_zero, List.count_erase_self]
  omega

/-- What the replies must be is decided by what the check comes to. -/
theorem told_iff (nat : LinuxNat) (check delete : LinuxReply) : Told s nat check delete ↔
    match checkResult s nat check with
    | .ok true => delete.outcome.succeeded = true → nat.rules.count (ownedRule s) ≤ 1
    | .ok false => ownedRule s ∉ nat.rules
    | .error _ => True := by
  rw [Told, checkResult]
  cases check.outcome with
  | exited code =>
    by_cases hcode : code = 0 ∨ code = 1
    · by_cases hmem : ownedRule s ∈ nat.rules
      · simp [hcode, hmem]
      · have hnone : nat.rules.count (ownedRule s) = 0 := List.count_eq_zero.2 hmem
        simp [hcode, hmem, hnone]
    · simp [hcode]
  | threw e =>
    cases he : e.isWin32 with
    | true => simp [he]
    | false => simp [he]

/-- The deletion that follows where the check has found the rule. -/
def deletion (s : LinuxSnapshot) : LinuxM LinuxPlatform Unit :=
  runAsync (.deleteRule (ownedRule s)) (fun w => { w with nat := w.nat.deleteRule (ownedRule s) })
    >>= exitZero "iptables"

section Rule
variable (nft : Nft) (hs : isIptables s = true) (hn : Named s) (script : Nat → LinuxReply)
include hs hn

theorem removeRule_eq :
    removeNat nft s = iptablesRuleExists s >>= fun there => if there then deletion s else pure () := by
  rw [removeNat, hs, iptablesRuleArguments_named hn (.inr (.inr rfl))]
  rfl

theorem removeRule_threw {e : Err} (h : checkResult s w.nat (script 0) = .error e) :
    (removeNat nft s script w).result.isOk = false := by
  have hexists := iptablesRuleExists_eq (w := w) hn script
  rw [removeRule_eq nft hs hn, (bind_threw _ (show _ = Except.error e by rw [hexists, h])).2]
  rfl

/-- Once the check has returned, the removal goes on as it says. -/
theorem removeRule_checked {there : Bool} (h : checkResult s w.nat (script 0) = .ok there) :
    let r := (if there then deletion s else pure ()) (fun n => script (n + 1)) w
    (removeNat nft s script w).result = r.result ∧ (removeNat nft s script w).world = r.world := by
  intro r
  have hexists := iptablesRuleExists_eq (w := w) hn script
  have hreturned : (iptablesRuleExists s script w).result = .ok there := by rw [hexists, h]
  obtain ⟨hworld, hresult, -⟩ := bind_returned (fun there => if there then deletion s else pure ()) hreturned
  rw [removeRule_eq nft hs hn, hworld, hresult, hexists]
  exact ⟨rfl, rfl⟩

theorem removeRule_absent (h : checkResult s w.nat (script 0) = .ok false) :
    (removeNat nft s script w).result.isOk = true ∧ (removeNat nft s script w).world = w := by
  obtain ⟨hresult, hworld⟩ := removeRule_checked nft hs hn script h
  rw [hresult, hworld]
  exact ⟨rfl, rfl⟩

theorem removeRule_present (h : checkResult s w.nat (script 0) = .ok true) :
    (removeNat nft s script w).result.isOk = (script 1).outcome.succeeded ∧
      ((script 1).outcome.succeeded = true → (removeNat nft s script w).world.nat
        = w.nat.deleteRule (ownedRule s)) := by
  obtain ⟨hresult, hworld⟩ := removeRule_checked nft hs hn script h
  have hchecked := checked_eq (w := w) (.deleteRule (ownedRule s))
    (fun w => { w with nat := w.nat.deleteRule (ownedRule s) }) "iptables" (fun n => script (n + 1))
  rw [hresult, hworld]
  refine ⟨hchecked.1, fun hsucceeded => ?_⟩
  exact congrArg LinuxPlatform.nat (hchecked.2 hsucceeded)

theorem removeRule_honest_iff :
    ((removeNat nft s script w).result.isOk = true → NatGone s (removeNat nft s script w).world.nat) ↔
      Told s w.nat (script 0) (script 1) := by
  have hgone : ∀ nat, NatGone s nat ↔ ownedRule s ∉ nat.rules := by
    intro nat
    rw [NatGone, if_pos hs]
  rw [hgone, told_iff]
  cases hcheck : checkResult s w.nat (script 0) with
  | error e =>
    rw [removeRule_threw nft hs hn script hcheck]
    simp
  | ok there =>
    cases there with
    | false =>
      obtain ⟨hresult, hworld⟩ := removeRule_absent nft hs hn script hcheck
      rw [hresult, hworld]
      exact ⟨fun h => h rfl, fun h _ => h⟩
    | true =>
      -- the deletion takes one copy away
      obtain ⟨hresult, hworld⟩ := removeRule_present nft hs hn script hcheck
      rw [hresult]
      constructor
      · intro h hsucceeded
        have hmissing := h hsucceeded
        rw [hworld hsucceeded] at hmissing
        exact (not_mem_erase_iff _ _).1 hmissing
      · intro h hsucceeded
        rw [hworld hsucceeded]
        exact (not_mem_erase_iff _ _).2 (h hsucceeded)

end Rule

/-- A rule that cannot be named is not removed. -/
theorem removeRule_unnamed (hs : isIptables s = true) (hn : ¬ Named s) :
    Freely (removeNat nft s) (fun _ _ => False) (fun _ _ => True) w := by
  obtain ⟨e, harguments, he⟩ := iptablesRuleArguments_unnamed hn "-C"
  rw [removeNat, hs, iptablesRuleExists, harguments]
  refine Runs.bind (Runs.tryCatch ?_)
  refine Runs.bind (Runs.raise ?_)
  rw [he]
  exact Runs.throw trivial

/-- Looking changes nothing. -/
theorem iptablesRuleExists_runs {Q : Bool → LinuxPlatform → Prop} {X : Err → LinuxPlatform → Prop}
    (hQ : ∀ there, Q there w) (hX : ∀ e, X e w) : Freely (iptablesRuleExists s) Q X w := by
  have hcaught : ∀ e : Err, Freely (if e.isWin32 then (pure false : LinuxM LinuxPlatform Bool) else throw e)
      Q X w :=
    fun e => Runs.ite (fun _ => Runs.pure (hQ false)) (fun _ => Runs.throw (hX e))
  refine Runs.tryCatch (Runs.bind (Runs.ofExcept (fun arguments _ => ?_) (fun e _ => hcaught e)))
  refine Runs.bind (Runs.bind (queryAsync_runs (fun code => ?_) hcaught))
  exact Runs.bind (Runs.get (Runs.pure (Runs.pure (hQ _))))

/-- iptables does not touch the tables. -/
theorem removeRule_tables (nft : Nft) (hs : isIptables s = true) :
    Freely (removeNat nft s) (fun _ w' => w'.nat.tables = w.nat.tables)
      (fun _ w' => w'.nat.tables = w.nat.tables) w := by
  rw [removeNat, hs]
  refine Runs.bind (iptablesRuleExists_runs (fun there => ?_) (fun _ => rfl))
  refine Runs.ite (fun _ => ?_) (fun _ => Runs.pure rfl)
  refine Runs.bind (Runs.ofExcept (fun arguments _ => ?_) (fun _ _ => rfl))
  refine Runs.bind (runAsync_runs (Runs.refuse (fun _ => rfl) (fun _ => rfl)) ?_)
  intro w' hw'
  have htables : w'.nat.tables = w.nat.tables := by
    rcases hw' with rfl | rfl
    · rfl
    · rfl
  exact ⟨fun _ hcode => Runs.refuse (fun h => absurd hcode h) (fun _ => htables), fun _ => htables⟩

/-! ## When a removal is honest -/

/-- Of a rule with proper names, the replies tell whether it is there. -/
def Informed (s : LinuxSnapshot) (nat : LinuxNat) (check delete : LinuxReply) : Prop :=
  isIptables s = true → Named s → Told s nat check delete

theorem removeNat_honest_iff (hn : Faithful nft) (script : Nat → LinuxReply) :
    ((removeNat nft s script w).result.isOk = true → NatGone s (removeNat nft s script w).world.nat) ↔
      Informed s w.nat (script 0) (script 1) := by
  cases hs : isIptables s with
  | false =>
    refine iff_of_true (fun hok => ?_) (fun h => absurd h (by simp [hs]))
    obtain ⟨-, hgone, -⟩ := ((removeTable_runs hn hs) script (fun _ => trivial)).2.1.returned hok
    exact hgone
  | true =>
    by_cases hnamed : Named s
    · rw [removeRule_honest_iff nft hs hnamed script]
      exact ⟨fun h _ _ => h, fun h => h hs hnamed⟩
    · refine iff_of_true (fun hok => ?_) (fun _ h => absurd h hnamed)
      obtain ⟨-, hfalse⟩ := ((removeRule_unnamed hs hnamed) script (fun _ => trivial)).2.1.returned hok
      exact hfalse.elim

theorem removeNat_onlyOwned (hn : Faithful nft) (script : Nat → LinuxReply) :
    OnlyOwned s w.nat (removeNat nft s script w).world.nat := by
  cases hs : isIptables s with
  | false =>
    have hends := ((removeTable_runs (w := w) hn hs) script (fun _ => trivial)).2.1
    exact (hends.mono (fun _ _ h => h.2) (fun _ _ h => h)).always
  | true =>
    have hends := ((removeRule_tables (w := w) nft hs) script (fun _ => trivial)).2.1
    exact onlyOwned_self s hends.always

end

end LinuxNatManager

end EasyTierHost
