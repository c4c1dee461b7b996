import EasyTierHost.Core.Configuration
import EasyTierHost.Effects.System
import EasyTierHost.Network.ResolvedLink

/- LinuxDnsController.cs as programs over the links systemd-resolved knows. A command
   of resolvectl sets one property of the link it names, or it fails and sets nothing;
   the script says which. What busctl prints of a property is a parameter, of which
   `Faithful` asks that the element the reader looks at is the property's value.

   A restore writes what was captured, whatever an interrupted command before it has
   left; what it does not recognise as its own it refuses before the first command. -/
namespace EasyTierHost
open Effects Effects.Prog

/-- `DnsClientSnapshot`. -/
structure DnsClientSnapshot where
  platform : String
  interfaceIndex : Int
  interfaceIdentity : String
  servers : List String
  domains : List DnsDomain
  defaultRoute : Bool
  ownerToken : String
  deriving DecidableEq, Repr

/-- The links that exist, by the index of their interface. -/
abbrev Links := Int → Option Link

/-- The commands of resolvectl the controller uses. -/
inductive Resolvectl where
  | dns (index : Int) (server : String)
  | domain (index : Int) (domain : String)
  | defaultRoute (index : Int) (value : String)
  | flushCaches
  deriving DecidableEq, Repr

namespace Resolvectl

/-- The link a command is about. -/
def target : Resolvectl → Option Int
  | dns index _ => some index
  | domain index _ => some index
  | defaultRoute index _ => some index
  | flushCaches => none

/-- The servers an argument of `resolvectl dns` names; the empty one names none. -/
def servers (argument : String) : List ServerAddress :=
  match IPAddress.tryParse argument with
  | some (.v4 a b c d) => [⟨[a, b, c, d], .inl rfl⟩]
  | _ => []

/-- The domains an argument of `resolvectl domain` names; a tilde is for one that only
routes. -/
def domains (argument : String) : List (String × Bool) :=
  match argument.toList with
  | [] => []
  | '~' :: name => [(String.ofList name, true)]
  | name => [(String.ofList name, false)]

/-- What a command does to the link it is about. -/
def change : Resolvectl → Link → Link
  | dns _ server, link => { link with servers := servers server }
  | domain _ name, link => { link with domains := domains name }
  | defaultRoute _ value, link => { link with defaultRoute := value == "yes" }
  | flushCaches, link => link

/-- What a command does when it succeeds. -/
def run (command : Resolvectl) (links : Links) : Links := fun i =>
  if command.target = some i then (links i).map command.change else links i

end Resolvectl

/-- Whose effect a moment is. -/
inductive LinkEvent where
  | command (c : Resolvectl)
  | foreign
  deriving DecidableEq

/-- A reply is what the command throws, if it fails. -/
abbrev LinkM := Prog LinkEvent (Option Err) Links Err

namespace LinuxDnsController

/-- `runner.CheckedAsync("resolvectl", ..)`. -/
def checked (command : Resolvectl) : LinkM Unit := do
  let err ← ask
  effect (.command command) (fun links => if err.isNone then command.run links else links)
  outcome err

section
variable (busctl : Link → LinkProperty → Json)

/-- `PropertyAsync`. -/
def property (index : Int) (p : LinkProperty) : LinkM Json := do
  refuse (index ≤ 0) (.other "ArgumentOutOfRangeException")
  let err ← ask
  outcome err
  match (← get) index with
  | none => throw (.invalidOperation "busctl failed (exit 1)")
  | some link => ofExcept (ResolvedLink.propertyElement (busctl link p))

/-- `ResolvedLink.ReadAsync`. -/
def read (index : Int) : LinkM ResolvedLinkState := do
  let dns ← property busctl index .dns
  let domains ← property busctl index .domains
  let defaultRoute ← property busctl index .defaultRoute
  ofExcept (ResolvedLink.parse dns domains defaultRoute)

/-- `Identity`. -/
def identity (index : Int) : LinkM (Option String) := do
  return ((← get) index).map Link.identity

/-- `CaptureAsync`. -/
def capture (guid : Guid) (snapshot : RouteSnapshot DnsClientSnapshot) (context : GatewayContext) :
    LinkM (RouteSnapshot DnsClientSnapshot) := do
  let index := context.overlayInterfaceIndex
  match ← identity index with
  | none => throw (.host "ETH202" "Overlay interface missing")
  | some id =>
    let state ← read busctl index
    refuse (state.servers.length ≠ 0 ∨ state.domains.length ≠ 0)
      (.host "ETH202" "Overlay already has DNS configuration")
    return { snapshot with
      dnsState := some ⟨"linux-resolved", index, id, state.servers, state.domains, state.defaultRoute,
        guid.digits 0 32⟩ }

/-- `State`. -/
def state (snapshot : RouteSnapshot DnsClientSnapshot) : LinkM DnsClientSnapshot :=
  match snapshot.dnsState with
  | some s => if s.platform = "linux-resolved" then pure s
      else throw (.host "ETH302" "Missing resolved DNS snapshot")
  | none => throw (.host "ETH302" "Missing resolved DNS snapshot")

/-- `ApplyAsync`. -/
def apply (snapshot : RouteSnapshot DnsClientSnapshot) : LinkM Unit := do
  let s ← state snapshot
  let id ← identity s.interfaceIndex
  refuse (id ≠ some s.interfaceIdentity) (.host "ETH202" "DNS interface changed")
  let existing ← read busctl s.interfaceIndex
  refuse (existing.servers.length ≠ 0 ∨ existing.domains.length ≠ 0)
    (.host "ETH202" "DNS configuration changed before activation")
  checked (.dns s.interfaceIndex OverlayAddressPlan.gateway)
  checked (.domain s.interfaceIndex "~.")
  checked (.defaultRoute s.interfaceIndex "yes")
  checked .flushCaches

/-- The servers and domains the controller does not take for its own. -/
def changedExternally (current : ResolvedLinkState) : Bool :=
  current.servers.any (fun ip => ip != OverlayAddressPlan.gateway) ||
    current.domains.any (fun d => d.name != some "." || !d.routingOnly)

/-- The commands of `RestoreAsync`. -/
def writeBack (s : DnsClientSnapshot) : LinkM Unit := do
  checked (.domain s.interfaceIndex "")
  checked (.dns s.interfaceIndex "")
  checked (.defaultRoute s.interfaceIndex (if s.defaultRoute then "yes" else "no"))
  checked .flushCaches

/-- `RestoreAsync`. -/
def restore (snapshot : RouteSnapshot DnsClientSnapshot) : LinkM Unit := do
  let s ← state snapshot
  match ← identity s.interfaceIndex with
  -- a removed TUN has no remaining per-link resolver state
  | none => return
  | some id =>
    refuse (id ≠ s.interfaceIdentity) (.host "ETH302" "DNS interface index reused")
    let current ← read busctl s.interfaceIndex
    refuse (changedExternally current)
      (.host "ETH302" "DNS configuration changed externally; refusing overwrite")
    writeBack s

end

end LinuxDnsController

/-- What happens to the links once a snapshot is taken. -/
inductive LinuxDnsOp where
  | apply
  | restore
  | foreign (links : Links)

open LinuxDnsController in
/-- The controller with one snapshot, which it gets anew at every call, among other
programs. -/
def linuxDnsSystem (busctl : Link → LinkProperty → Json) (snapshot : RouteSnapshot DnsClientSnapshot) :
    System LinkEvent (Option Err) Links Err LinuxDnsOp where
  exec
    | .apply => apply busctl snapshot
    | .restore => restore busctl snapshot
    | .foreign links => effect .foreign (fun _ => links)
  restart := id

namespace LinuxDnsController
variable {busctl : Link → LinkProperty → Json} {ok : Option Err → Prop}
  {I : Moment LinkEvent Links → Prop} {w : Links}

/-- busctl reports the properties of a link as they are. -/
def Faithful (busctl : Link → LinkProperty → Json) : Prop :=
  ∀ link p, ResolvedLink.propertyElement (busctl link p) = .ok (link.value p)

/-! ## One call at a time -/

theorem checked_runs {command : Resolvectl} {Q : Unit → Links → Prop} {X : Err → Links → Prop}
    (hdone : I ⟨.command command, w, command.run w⟩) (hfailed : I ⟨.command command, w, w⟩)
    (hQ : Q () (command.run w)) (hX : ∀ e, ok (some e) → X e w) : Runs ok I (checked command) Q X w := by
  refine Runs.bind (Runs.ask (fun err herr => ?_))
  cases err with
  | none => exact Runs.bind (Runs.effect hdone (Runs.ret hQ))
  | some e => exact Runs.bind (Runs.effect hfailed (Runs.raise (hX e herr)))

/-- What can keep a property from being read. -/
def Unreadable (ok : Option Err → Prop) (w : Links) (index : Int) : Prop :=
  index ≤ 0 ∨ (∃ e, ok (some e)) ∨ w index = none

theorem property_runs (hb : Faithful busctl) {index : Int} {p : LinkProperty}
    {Q : Json → Links → Prop} {X : Err → Links → Prop}
    (hQ : ∀ link, w index = some link → 0 < index → Q (link.value p) w)
    (hX : ∀ e, Unreadable ok w index → X e w) : Runs ok I (property busctl index p) Q X w := by
  refine Runs.bind (Runs.refuse (fun hpos => ?_) (fun hle => hX _ (.inl hle)))
  refine Runs.bind (Runs.ask (fun err herr => ?_))
  refine Runs.bind (Runs.outcome (fun _ => ?_) (fun e he => hX e (.inr (.inl ⟨e, he ▸ herr⟩))))
  refine Runs.bind (Runs.get ?_)
  cases hlink : w index with
  | none => exact Runs.throw (hX _ (.inr (.inr hlink)))
  | some link =>
    change Runs ok I (ofExcept (ResolvedLink.propertyElement (busctl link p))) Q X w
    rw [hb link p]
    exact Runs.ret (hQ link hlink (by omega))

/-- What is read of a link is its state. -/
theorem read_runs (hb : Faithful busctl) {index : Int} {Q : ResolvedLinkState → Links → Prop}
    {X : Err → Links → Prop}
    (hQ : ∀ link, w index = some link → 0 < index → Q (ResolvedLink.stateOf link) w)
    (hX : ∀ e, Unreadable ok w index → X e w) : Runs ok I (read busctl index) Q X w := by
  refine Runs.bind (property_runs hb (fun link hlink hpos => ?_) hX)
  refine Runs.bind (property_runs hb (fun link' hlink' _ => ?_) hX)
  refine Runs.bind (property_runs hb (fun link'' hlink'' _ => ?_) hX)
  rw [hlink] at hlink' hlink''
  cases hlink'
  cases hlink''
  rw [ResolvedLink.parse_value]
  exact Runs.ret (hQ link hlink hpos)

theorem identity_runs {index : Int} {Q : Option String → Links → Prop} {X : Err → Links → Prop}
    (hQ : Q ((w index).map Link.identity) w) : Runs ok I (identity index) Q X w :=
  Runs.bind (Runs.get (Runs.ret hQ))

/-- What a captured snapshot says of the link. -/
structure Captured (snapshot : RouteSnapshot DnsClientSnapshot) (index : Int) (link : Link)
    (s : DnsClientSnapshot) : Prop where
  recorded : snapshot.dnsState = some s
  platform : s.platform = "linux-resolved"
  at_index : s.interfaceIndex = index
  identity : s.interfaceIdentity = link.identity
  defaultRoute : s.defaultRoute = link.defaultRoute
  positive : 0 < index
  unused : link.servers = [] ∧ link.domains = []

theorem capture_runs (hb : Faithful busctl) (guid : Guid) (snapshot : RouteSnapshot DnsClientSnapshot)
    (context : GatewayContext) :
    Runs ok (fun _ => False) (capture busctl guid snapshot context)
      (fun taken w' => w' = w ∧ ∃ link s, w context.overlayInterfaceIndex = some link ∧
        Captured taken context.overlayInterfaceIndex link s) (fun _ w' => w' = w) w := by
  refine Runs.bind (identity_runs ?_)
  cases hlink : w context.overlayInterfaceIndex with
  | none => exact Runs.throw rfl
  | some link =>
    refine Runs.bind (read_runs hb (fun link' hlink' hpos => ?_) (fun _ _ => rfl))
    rw [hlink] at hlink'
    cases hlink'
    refine Runs.bind (Runs.refuse (fun hempty => ?_) (fun _ => rfl))
    refine Runs.pure ⟨rfl, link, _, rfl, rfl, rfl, rfl, rfl, rfl, hpos, ?_⟩
    simpa [ResolvedLink.stateOf] using hempty

theorem state_runs {snapshot : RouteSnapshot DnsClientSnapshot} {index : Int} {link : Link}
    {s : DnsClientSnapshot} (hs : Captured snapshot index link s) {Q : DnsClientSnapshot → Links → Prop}
    {X : Err → Links → Prop} (hQ : Q s w) : Runs ok I (state snapshot) Q X w := by
  rw [state, hs.recorded]
  simp only [hs.platform, if_true]
  exact Runs.pure hQ

/-! ## Whole operations -/

/-- The commands the controller has for a link. -/
def commands (index : Int) : List Resolvectl :=
  [.dns index OverlayAddressPlan.gateway, .domain index "~.", .defaultRoute index "yes",
    .domain index "", .dns index "", .defaultRoute index "no", .flushCaches]

section Kept
variable {snapshot : RouteSnapshot DnsClientSnapshot} {index : Int} {link : Link}
  {s : DnsClientSnapshot} {J : Links → Prop}

/-- Whatever the outcome of a command, `J` stays and the moment is in `I`. -/
def Holds (I : Moment LinkEvent Links → Prop) (J : Links → Prop) (command : Resolvectl) : Prop :=
  ∀ w, J w → J (command.run w) ∧ I ⟨.command command, w, command.run w⟩ ∧ I ⟨.command command, w, w⟩

theorem checked_keeps {command : Resolvectl} (h : Holds I J command) : Keeps ok I J (checked command) :=
  fun w hw => checked_runs (h w hw).2.1 (h w hw).2.2 (h w hw).1 (fun _ _ => hw)

theorem writeBack_keeps (hs : s.interfaceIndex = index) (h : ∀ c ∈ commands index, Holds I J c) :
    Keeps ok I J (writeBack s) := by
  subst hs
  intro w hw
  refine Runs.seq (checked_keeps (h _ (by simp [commands])) w hw) (fun _ w hw => ?_)
  refine Runs.seq (checked_keeps (h _ (by simp [commands])) w hw) (fun _ w hw => ?_)
  have hroute : Resolvectl.defaultRoute s.interfaceIndex (if s.defaultRoute then "yes" else "no")
      ∈ commands s.interfaceIndex := by
    cases s.defaultRoute <;> simp [commands]
  refine Runs.seq (checked_keeps (h _ hroute) w hw) (fun _ w hw => ?_)
  exact checked_keeps (h _ (by simp [commands])) w hw

theorem apply_keeps (hb : Faithful busctl) (hs : Captured snapshot index link s)
    (h : ∀ c ∈ commands index, Holds I J c) : Keeps ok I J (apply busctl snapshot) := by
  have hindex := hs.at_index
  subst hindex
  intro w hw
  refine Runs.bind (state_runs hs ?_)
  refine Runs.bind (identity_runs ?_)
  refine Runs.bind (Runs.refuse (fun _ => ?_) (fun _ => hw))
  refine Runs.bind (read_runs hb (fun _ _ _ => ?_) (fun _ _ => hw))
  refine Runs.bind (Runs.refuse (fun _ => ?_) (fun _ => hw))
  refine Runs.seq (checked_keeps (h _ (by simp [commands])) w hw) (fun _ w hw => ?_)
  refine Runs.seq (checked_keeps (h _ (by simp [commands])) w hw) (fun _ w hw => ?_)
  refine Runs.seq (checked_keeps (h _ (by simp [commands])) w hw) (fun _ w hw => ?_)
  exact checked_keeps (h _ (by simp [commands])) w hw

theorem restore_keeps (hb : Faithful busctl) (hs : Captured snapshot index link s)
    (h : ∀ c ∈ commands index, Holds I J c) : Keeps ok I J (restore busctl snapshot) := by
  intro w hw
  refine Runs.bind (state_runs hs ?_)
  refine Runs.bind (identity_runs ?_)
  cases w s.interfaceIndex with
  | none => exact Runs.pure hw
  | some current =>
    refine Runs.bind (Runs.refuse (fun _ => ?_) (fun _ => hw))
    refine Runs.bind (read_runs hb (fun _ _ _ => ?_) (fun _ _ => hw))
    refine Runs.bind (Runs.refuse (fun _ => ?_) (fun _ => hw))
    exact writeBack_keeps hs.at_index h w hw

end Kept

/-! ## What a restore leaves and refuses -/

/-- A link with a server or a domain that is not the controller's, or of another
interface. -/
def Foreign (identity : String) (link : Link) : Prop :=
  link.identity ≠ identity ∨ (∃ server ∈ link.servers, server.bytes ≠ ResolvedLink.gatewayBytes) ∨
    ∃ d ∈ link.domains, d ≠ (".", true)

theorem changedExternally_iff (link : Link) : changedExternally (ResolvedLink.stateOf link) = true ↔
    (∃ server ∈ link.servers, server.bytes ≠ ResolvedLink.gatewayBytes) ∨ ∃ d ∈ link.domains, d ≠ (".", true) := by
  have hserver : ∀ server, (ResolvedLink.serverText server != OverlayAddressPlan.gateway) = true ↔
      server.bytes ≠ ResolvedLink.gatewayBytes := by
    intro server
    rw [bne_iff_ne, ne_eq, ResolvedLink.serverText_eq_gateway]
  have hdomain : ∀ d : String × Bool, (some d.1 != some "." || !d.2) = true ↔ d ≠ (".", true) := by
    intro h
    obtain ⟨name, routingOnly⟩ := h
    cases routingOnly <;> simp
  rw [changedExternally, Bool.or_eq_true, List.any_eq_true, List.any_eq_true]
  simp only [ResolvedLink.stateOf, List.mem_map, exists_exists_and_eq_and, hserver, hdomain]

section Restored
variable {snapshot : RouteSnapshot DnsClientSnapshot} {index : Int} {link : Link}
  {s : DnsClientSnapshot}

theorem run_target {command : Resolvectl} {i : Int} (h : command.target = some i) (w : Links) :
    command.run w i = (w i).map command.change := by
  rw [Resolvectl.run, if_pos h]

theorem writeBack_restores {current : Link} (hcurrent : w s.interfaceIndex = some current) :
    Runs ok (fun _ => True) (writeBack s)
      (fun _ w' => w' s.interfaceIndex = some ⟨current.identity, [], [], s.defaultRoute⟩)
      (fun e _ => ok (some e)) w := by
  refine Runs.bind (checked_runs trivial trivial ?_ (fun _ he => he))
  refine Runs.bind (checked_runs trivial trivial ?_ (fun _ he => he))
  refine Runs.bind (checked_runs trivial trivial ?_ (fun _ he => he))
  refine checked_runs trivial trivial ?_ (fun _ he => he)
  rw [Resolvectl.run, if_neg (by simp [Resolvectl.target]), run_target rfl, run_target rfl, run_target rfl,
    hcurrent]
  cases s.defaultRoute <;> rfl

/-- A restore that returns has written the captured state back. -/
theorem restore_restores (hb : Faithful busctl) (hs : Captured snapshot index link s) {current : Link}
    (hcurrent : w index = some current) (hid : current.identity = link.identity) :
    Runs ok (fun _ => True) (restore busctl snapshot)
      (fun _ w' => w' index = some ⟨link.identity, [], [], link.defaultRoute⟩)
      (fun _ _ => (∃ e, ok (some e)) ∨ Foreign link.identity current) w := by
  have hindex := hs.at_index
  subst hindex
  refine Runs.bind (state_runs hs ?_)
  refine Runs.bind (identity_runs ?_)
  rw [hcurrent]
  refine Runs.bind (Runs.refuse (fun _ => ?_) (fun hne => absurd (hid.trans hs.identity.symm) hne))
  refine Runs.bind (read_runs hb (fun link' hlink' _ => ?_) (fun _ hun => ?_))
  · rw [hcurrent] at hlink'
    cases hlink'
    refine Runs.bind (Runs.refuse (fun _ => ?_) (fun hchanged => ?_))
    · rw [← hid, ← hs.defaultRoute]
      exact (writeBack_restores hcurrent).mono (fun _ _ h => h) (fun e _ he => .inl ⟨e, he⟩)
    · exact .inr (.inr ((changedExternally_iff current).1 hchanged))
  · rcases hun with hle | herr | hnone
    · have hpos := hs.positive
      omega
    · exact .inl herr
    · rw [hcurrent] at hnone
      cases hnone

/-- A restore of a link with something foreign does nothing and throws. -/
theorem restore_refuses (hb : Faithful busctl) (hs : Captured snapshot index link s) {current : Link}
    (hcurrent : w index = some current) (hforeign : Foreign link.identity current) :
    Runs ok (fun _ => False) (restore busctl snapshot) (fun _ _ => False) (fun _ w' => w' = w) w := by
  have hindex := hs.at_index
  subst hindex
  refine Runs.bind (state_runs hs ?_)
  refine Runs.bind (identity_runs ?_)
  rw [hcurrent]
  refine Runs.bind (Runs.refuse (fun hid => ?_) (fun _ => rfl))
  refine Runs.bind (read_runs hb (fun link' hlink' _ => ?_) (fun _ _ => rfl))
  rw [hcurrent] at hlink'
  cases hlink'
  refine Runs.bind (Runs.refuse (fun hown => ?_) (fun _ => rfl))
  cases hforeign with
  | inl hne =>
    rw [← hs.identity] at hne
    exact absurd (not_not.1 hid) hne
  | inr hchanged =>
    exact absurd ((changedExternally_iff current).2 hchanged) hown

end Restored

/-! ## Runs -/

/-- The link as the controller's own commands can leave it. -/
def Own (index : Int) (identity : String) (w : Links) : Prop :=
  ∃ link, w index = some link ∧ ¬ Foreign identity link

/-- A command leaves every other link as it is. -/
def OthersKept (index : Int) (m : Moment LinkEvent Links) : Prop :=
  m.event ≠ .foreign → ∀ i, i ≠ index → m.after i = m.before i

theorem holds_frame (index : Int) {command : Resolvectl} (h : command ∈ commands index) :
    Holds (OthersKept index) (fun _ => True) command := by
  have htarget : ∀ i, i ≠ index → command.target ≠ some i := by
    intro i hi
    simp only [commands, List.mem_cons, List.not_mem_nil, or_false] at h
    rcases h with rfl | rfl | rfl | rfl | rfl | rfl | rfl <;> simp [Resolvectl.target, Ne.symm hi]
  intro w _
  refine ⟨trivial, fun _ i hi => ?_, fun _ i _ => rfl⟩
  change command.run w i = w i
  rw [Resolvectl.run, if_neg (htarget i hi)]

/-- The servers and domains the controller's arguments name are its own. -/
theorem servers_own {argument : String} (h : argument = OverlayAddressPlan.gateway ∨ argument = "") :
    ∀ server ∈ Resolvectl.servers argument, server.bytes = ResolvedLink.gatewayBytes := by
  rcases h with rfl | rfl
  · decide +kernel
  · decide +kernel

theorem domains_own {argument : String} (h : argument = "~." ∨ argument = "") :
    ∀ d ∈ Resolvectl.domains argument, d = (".", true) := by
  rcases h with rfl | rfl
  · decide +kernel
  · decide +kernel

/-- Whatever a command of the controller sets is its own. -/
theorem not_foreign_change {index : Int} {command : Resolvectl} (h : command ∈ commands index)
    {identity : String} {link : Link} (hlink : ¬ Foreign identity link) :
    ¬ Foreign identity (command.change link) := by
  simp only [Foreign, not_or, not_exists, not_and, not_not] at hlink ⊢
  obtain ⟨hid, hservers, hdomains⟩ := hlink
  simp only [commands, List.mem_cons, List.not_mem_nil, or_false] at h
  rcases h with rfl | rfl | rfl | rfl | rfl | rfl | rfl
  · exact ⟨hid, servers_own (.inl rfl), hdomains⟩
  · exact ⟨hid, hservers, domains_own (.inl rfl)⟩
  · exact ⟨hid, hservers, hdomains⟩
  · exact ⟨hid, hservers, domains_own (.inr rfl)⟩
  · exact ⟨hid, servers_own (.inr rfl), hdomains⟩
  · exact ⟨hid, hservers, hdomains⟩
  · exact ⟨hid, hservers, hdomains⟩

theorem holds_own (index : Int) (identity : String) {command : Resolvectl} (h : command ∈ commands index) :
    Holds (fun m => Own index identity m.after) (Own index identity) command := by
  intro w hw
  have hrun : Own index identity (command.run w) := by
    obtain ⟨link, hlink, hown⟩ := hw
    by_cases htarget : command.target = some index
    · refine ⟨command.change link, ?_, not_foreign_change h hown⟩
      rw [run_target htarget, hlink, Option.map_some]
    · refine ⟨link, ?_, hown⟩
      rw [Resolvectl.run, if_neg htarget, hlink]
  exact ⟨hrun, hrun, hw⟩

/-- No command of a run changes another link. -/
theorem run_frame (hb : Faithful busctl) {snapshot : RouteSnapshot DnsClientSnapshot} {index : Int}
    {link : Link} {s : DnsClientSnapshot} (hs : Captured snapshot index link s)
    (steps : List (Step (Option Err) LinuxDnsOp)) (w : Links) :
    ∀ m ∈ (linuxDnsSystem busctl snapshot).trace w steps, OthersKept index m := by
  have hkeeps : ∀ st ∈ steps, Keeps (fun _ => True) (OthersKept index) (fun _ => True)
      ((linuxDnsSystem busctl snapshot).exec st.op) := by
    intro st _
    cases st.op with
    | apply => exact apply_keeps hb hs (fun _ => holds_frame index)
    | restore => exact restore_keeps hb hs (fun _ => holds_frame index)
    | foreign v => exact fun _ _ => Runs.effect (fun h => absurd rfl h) trivial
  exact (System.keeps (fun _ _ => trivial) (fun _ _ => trivial) steps w hkeeps (fun _ _ _ => trivial)
    trivial).1

/-- Left to itself the controller leaves nothing it would not recognise. -/
theorem run_own (hb : Faithful busctl) {snapshot : RouteSnapshot DnsClientSnapshot} {index : Int}
    {link : Link} {s : DnsClientSnapshot} (hs : Captured snapshot index link s)
    (steps : List (Step (Option Err) LinuxDnsOp)) (hsteps : ∀ st ∈ steps, ∀ v, st.op ≠ .foreign v)
    {w : Links} (hw : Own index link.identity w) :
    Own index link.identity ((linuxDnsSystem busctl snapshot).final w steps) := by
  have hkeeps : ∀ st ∈ steps, Keeps (fun _ => True) (fun m => Own index link.identity m.after)
      (Own index link.identity) ((linuxDnsSystem busctl snapshot).exec st.op) := by
    intro st hst
    have hown := hsteps st hst
    cases hop : st.op with
    | apply => exact apply_keeps hb hs (fun _ => holds_own index link.identity)
    | restore => exact restore_keeps hb hs (fun _ => holds_own index link.identity)
    | foreign v => exact absurd hop (hown v)
  exact (System.keeps (fun _ h => h) (fun _ h => h) steps w hkeeps (fun _ _ _ => trivial) hw).2

/-- Take a snapshot, and let applications and restores be cut short in any number and
order among what other programs do. No command changes another link; a restore that
returns while the link is there leaves it as captured; one that finds something foreign
throws before its first command; and one that is not hindered returns, unless others
have interfered. -/
theorem linux_dns_restored (busctl : Link → LinkProperty → Json) (hb : Faithful busctl) (guid : Guid)
    (snapshot₀ snapshot : RouteSnapshot DnsClientSnapshot) (context : GatewayContext)
    (taken : Nat → Option Err) (links : Links)
    (hcapture : (capture busctl guid snapshot₀ context taken links).result = .ok snapshot)
    (steps : List (Step (Option Err) LinuxDnsOp)) (script : Nat → Option Err) :
    let index := context.overlayInterfaceIndex
    let start := (capture busctl guid snapshot₀ context taken links).world
    let w := (linuxDnsSystem busctl snapshot).final start steps
    let r := restore busctl snapshot script w
    ∃ captured, links index = some captured ∧
      (∀ m ∈ (linuxDnsSystem busctl snapshot).trace start steps ++ r.trace, OthersKept index m) ∧
      (∀ current, w index = some current → current.identity = captured.identity → r.result.isOk = true →
        r.world index = some ⟨captured.identity, [], [], captured.defaultRoute⟩) ∧
      (∀ current, w index = some current → Foreign captured.identity current →
        r.result.isOk = false ∧ r.trace = [] ∧ r.world = w) ∧
      ((∀ st ∈ steps, ∀ v, st.op ≠ .foreign v) → (∀ n, script n = none) → r.result.isOk = true) := by
  have hcaptures : Freely (capture busctl guid snapshot₀ context) _ _ links :=
    (capture_runs hb guid snapshot₀ context).mono_moment (fun _ _ => trivial)
  obtain ⟨-, hends, -⟩ := hcaptures taken (fun _ => trivial)
  rw [hcapture] at hends
  obtain ⟨hstart, captured, s, hcaptured, hs⟩ := hends
  intro index start w r
  refine ⟨captured, hcaptured, ?_, ?_, ?_, ?_⟩
  · intro m hm
    cases List.mem_append.1 hm with
    | inl hm =>
      exact run_frame hb hs steps start m hm
    | inr hm =>
      have hframe : Keeps (fun _ => True) _ _ (restore busctl snapshot) :=
        restore_keeps hb hs (fun _ => holds_frame index)
      exact (hframe w trivial script (fun _ => trivial)).1 m hm
  · intro current hcurrent hid hok
    have hrestores : Freely (restore busctl snapshot) _ _ w := restore_restores hb hs hcurrent hid
    obtain ⟨-, hrestored⟩ := (hrestores script (fun _ => trivial)).2.1.returned hok
    exact hrestored
  · intro current hcurrent hforeign
    have hrefuses : Runs (fun _ => True) _ (restore busctl snapshot) _ _ w :=
      restore_refuses hb hs hcurrent hforeign
    obtain ⟨hnone, hends, -⟩ := hrefuses script (fun _ => trivial)
    have hthrew : r.result.isOk = false := by
      rw [Bool.eq_false_iff]
      intro hok
      obtain ⟨-, hfalse⟩ := hends.returned hok
      exact hfalse
    obtain ⟨-, hworld⟩ := hends.threw hthrew
    exact ⟨hthrew, List.eq_nil_iff_forall_not_mem.2 hnone, hworld⟩
  · intro hsteps hsmooth
    have hown : Own index captured.identity start := by
      refine ⟨captured, ?_, ?_⟩
      · rw [show start = links from hstart]
        exact hcaptured
      · simp [Foreign, hs.unused]
    obtain ⟨current, hcurrent, hnot⟩ := run_own hb hs steps hsteps hown
    have hid : current.identity = captured.identity := by
      by_contra hne
      exact hnot (.inl hne)
    have hrestores : Runs (fun e => e = none) _ (restore busctl snapshot) _ _ w :=
      restore_restores hb hs hcurrent hid
    obtain ⟨-, hends, -⟩ := hrestores script hsmooth
    by_contra hfailed
    obtain ⟨-, ⟨e, he⟩ | hforeign⟩ := hends.threw (Bool.eq_false_iff.2 hfailed)
    · cases he
    · exact hnot hforeign

/-! ## An application cut short -/

/-- busctl in the form the reader expects. -/
def shortBusctl (link : Link) (p : LinkProperty) : Json := .object [("data", .array [link.value p])]

def tunLinks : Links := fun i => if i = 7 then some ⟨"tun-id", [], [], false⟩ else none

def tunSnapshot : RouteSnapshot DnsClientSnapshot :=
  ⟨"Ethernet", 2, "192.168.1.9", "192.168.1.1",
    some ⟨"linux-resolved", 7, "tun-id", [], [], false, "00000000000000000000000000000000"⟩⟩

theorem linux_dns_restored_tun :
    (restore shortBusctl tunSnapshot (fun _ => none)
      ((linuxDnsSystem shortBusctl tunSnapshot).final tunLinks
        [.crash .apply (fun _ => none) 2, .crash .restore (fun _ => none) 1])).world 7
      = some ⟨"tun-id", [], [], false⟩ := by
  have hcapture : (capture shortBusctl 0 { tunSnapshot with dnsState := none }
      ⟨7, "10.10.0.11", [], true⟩ (fun _ => none) tunLinks).result = .ok tunSnapshot := rfl
  obtain ⟨captured, hcaptured, -, hrestored, -, hreturns⟩ := linux_dns_restored shortBusctl (fun _ _ => rfl) 0
    _ tunSnapshot _ _ tunLinks hcapture
    [.crash .apply (fun _ => none) 2, .crash .restore (fun _ => none) 1] (fun _ => none)
  have hlink : captured = ⟨"tun-id", [], [], false⟩ := Option.some.inj hcaptured.symm
  have hcurrent : (linuxDnsSystem shortBusctl tunSnapshot).final tunLinks
      [.crash .apply (fun _ => none) 2, .crash .restore (fun _ => none) 1] 7
        = some ⟨"tun-id", [⟨[10, 10, 0, 1], .inl rfl⟩], [], false⟩ := rfl
  rw [hlink] at hrestored
  refine hrestored _ hcurrent rfl (hreturns ?_ (fun _ => rfl))
  simp [Step.op]

end LinuxDnsController

end EasyTierHost
