import EasyTierHost.Core.ConfigText

/- Whether the network identity that Core loads is the one the Host was given. The
   Host escapes the name and the secret for TOML and for nothing else, and starts
   Core with the expansion of environment variables switched on, so a dollar sign
   in either of them is Core's to interpret. -/
namespace EasyTierHost
open Text EasyTierConfigBuilder

theorem underlayArguments_ok {text : String} {more : List String}
    (h : EasyTierArgumentBuilder.underlayArguments text = .ok more) :
    ∃ ip, more = ["--underlay-source-ipv4", ip] := by
  unfold EasyTierArgumentBuilder.underlayArguments at h
  split at h
  next ip _ =>
    split at h
    next => cases h; exact ⟨ip.text, rfl⟩
    next => cases h
  next => cases h

/-- Every option the Host passes has a value. -/
theorem arguments_build {profile : NetworkProfile} {path : String} {options : CoreLaunchOptions}
    {args : List String} (h : EasyTierArgumentBuilder.build profile path options = .ok args) :
    ∃ portal, args = ["--config-file", path, "--rpc-portal", portal] ∨
      ∃ ip, args = ["--config-file", path, "--rpc-portal", portal, "--underlay-source-ipv4", ip] := by
  refine ⟨"127.0.0.1:" ++ toString profile.rpcPort, ?_⟩
  unfold EasyTierArgumentBuilder.build at h
  cases hb : isNullOrWhiteSpace path with
  | true => rw [hb] at h; cases h
  | false =>
    rw [hb] at h
    cases ho : options.underlaySourceIpv4 with
    | none => rw [ho] at h; cases h; exact .inl rfl
    | some text =>
      rw [ho] at h
      cases ht : isNullOrWhiteSpace text with
      | true => simp only [ht] at h; cases h; exact .inl rfl
      | false =>
        simp only [ht] at h
        cases hu : EasyTierArgumentBuilder.underlayArguments text with
        | error e => rw [hu] at h; cases h
        | ok more =>
          obtain ⟨ip, rfl⟩ := underlayArguments_ok hu
          rw [hu] at h
          cases h
          exact .inr ⟨ip, rfl⟩

/-- The Host leaves Core's expansion switched on. -/
theorem disableEnvParsing_build {profile : NetworkProfile} {path : String}
    {options : CoreLaunchOptions} {args : List String}
    (h : EasyTierArgumentBuilder.build profile path options = .ok args) :
    disableEnvParsing args = false := by
  obtain ⟨portal, rfl | ⟨ip, rfl⟩⟩ := arguments_build h
  · rfl
  · rfl

theorem toList_expandEnvVars (x : Expander) (env : Environment) (text : String) :
    (expandEnvVars x env text).1.toList = (x.expand env text.toList).getD text.toList := by
  unfold expandEnvVars
  split
  next expanded he => simp [he]
  next he => simp [he]

theorem expandedConfigStr_build {profile : NetworkProfile} {path : String}
    {options : CoreLaunchOptions} {args : List String}
    (h : EasyTierArgumentBuilder.build profile path options = .ok args) (x : Expander)
    (env : Environment) (text : String) :
    expandedConfigStr x env (disableEnvParsing args) text = expandEnvVars x env text := by
  rw [expandedConfigStr, disableEnvParsing_build h]
  rfl

theorem toList_build {p : NetworkProfile} {secret : String} {instanceId : Option Guid}
    {text : String} (h : build p secret instanceId = .ok text) :
    text.toList = terminated (lines p secret instanceId) := by
  obtain ⟨-, -, rfl⟩ := build_ok h
  exact toList_joined _ (by simp [lines])

/-- The expansion leaves the text of the Host alone in every environment exactly
when the identity is inert. -/
theorem expandEnvVars_build_iff (x : Expander) (settable : List Char → Bool) {p : NetworkProfile}
    {secret : String} {instanceId : Option Guid} {text : String}
    (h : build p secret instanceId = .ok text) :
    (∀ env : Environment, env.Legal settable → (expandEnvVars x env text).1 = text) ↔
      Inert settable (pieces x.nameChar (identityText p.networkName secret)) := by
  have hp := (build_ok h).1
  have hstable := x.stable_iff settable text.toList
  have htext : text.toList = before p instanceId ++ (identityText p.networkName secret ++ after p) := by
    rw [toList_build h, toList_lines]
  have hinert : Inert settable (pieces x.nameChar text.toList) ↔
      Inert settable (pieces x.nameChar (identityText p.networkName secret)) := by
    rw [htext]
    exact inert_surrounded (dollar_not_mem_before hp instanceId) (ending_after hp x) _
  rw [← hinert, ← hstable]
  constructor
  · intro he env hl
    rw [← toList_expandEnvVars, he env hl]
  · intro he env hl
    rw [← String.toList_inj, toList_expandEnvVars]
    exact he env hl

/-- A document that is taken as the Host wrote it has the Host's identity. -/
theorem newFromStr_build (toml : TomlReader) {p : NetworkProfile} {secret : String}
    {instanceId : Option Guid} {text : String} (h : build p secret instanceId = .ok text)
    {config : Config} (hc : newFromStr toml text = some config) :
    config.networkIdentity = some ⟨p.networkName, some secret⟩ := by
  obtain ⟨head, tail, hwithin, hparse⟩ := parse_lines_eq (build_ok h).1 secret instanceId
  rw [← toList_build h] at hparse
  obtain ⟨c, hfrom, rfl⟩ := Option.map_eq_some_iff.mp hc
  have hid := toml.fromStr_identity text _ c hparse hfrom
  rw [identityOf_items hwithin] at hid
  simp [hid]

theorem newFromStr_byLines_build (id : String) {p : NetworkProfile} {secret : String}
    {instanceId : Option Guid} {text : String} (h : build p secret instanceId = .ok text) :
    newFromStr (.byLines id) text = some ⟨some ⟨p.networkName, some secret⟩, id⟩ := by
  obtain ⟨head, tail, hwithin, hparse⟩ := parse_lines_eq (build_ok h).1 secret instanceId
  rw [← toList_build h] at hparse
  simp [newFromStr, TomlReader.byLines, hparse, identityOf_items hwithin]

/-- The expansion of the Host's text is the expansion of the identity in it. -/
theorem toList_expandEnvVars_build (x : Expander) (env : Environment) {p : NetworkProfile}
    {secret : String} {instanceId : Option Guid} {text : String}
    (h : build p secret instanceId = .ok text) {out : List Char}
    (ho : x.expand env (identityText p.networkName secret) = some out) :
    (expandEnvVars x env text).1.toList = before p instanceId ++ (out ++ after p) := by
  have hp := (build_ok h).1
  rw [toList_expandEnvVars, toList_build h, toList_lines,
    x.expand_surrounded env (dollar_not_mem_before hp instanceId) (ending_after hp x), ho]
  rfl

theorem loadConfigFromFile_file {x : Expander} {env : Environment} {toml : TomlReader}
    {files : ConfigFiles} {file : ConfigPath} {configDir : Option String} {disable : Bool}
    {text : String} (hfile : file.text ≠ "-") (hread : files.readToString file.text = some text)
    {config : Config} {control : ConfigFileControl}
    (h : loadConfigFromFile x env toml files file configDir disable = some (config, control)) :
    newFromStr toml (expandedConfigStr x env disable text).1 = some config := by
  unfold loadConfigFromFile at h
  rw [if_neg hfile] at h
  obtain ⟨t, ht, h⟩ := Option.bind_eq_some_iff.mp h
  obtain ⟨c, hc, he⟩ := Option.bind_eq_some_iff.mp h
  rw [hread] at ht
  cases ht
  cases he
  exact hc

/-- What the Host wants of Core: the file is parsed as it was written, and a
configuration loaded from it holds the name and the secret the Host was given. -/
def Agrees (x : Expander) (env : Environment) (toml : TomlReader) (files : ConfigFiles)
    (file : ConfigPath) (configDir : Option String) (args : List String) (p : NetworkProfile)
    (secret text : String) : Prop :=
  (expandedConfigStr x env (disableEnvParsing args) text).1 = text ∧
    ∀ config control,
      loadConfigFromFile x env toml files file configDir (disableEnvParsing args) =
        some (config, control) →
      config.networkIdentity = some ⟨p.networkName, some secret⟩

/-- Host and Core agree in every environment exactly when neither the name nor
the secret holds something to substitute, or what they hold can never be
substituted. -/
theorem host_core_agree_iff (x : Expander) (settable : List Char → Bool) (toml : TomlReader)
    (files : ConfigFiles) (file : ConfigPath) (configDir : Option String) (p : NetworkProfile)
    (secret : String) (instanceId : Option Guid) (options : CoreLaunchOptions) (text : String)
    (args : List String) (hb : build p secret instanceId = .ok text)
    (ha : EasyTierArgumentBuilder.build p file.text options = .ok args) (hfile : file.text ≠ "-")
    (hread : files.readToString file.text = some text) :
    (∀ env : Environment, env.Legal settable →
      Agrees x env toml files file configDir args p secret text) ↔
      Inert settable (pieces x.nameChar (identityText p.networkName secret)) := by
  have hsame := fun env => expandedConfigStr_build ha x env text
  rw [← expandEnvVars_build_iff x settable hb]
  constructor
  · intro h env hl
    rw [← hsame]
    exact (h env hl).1
  · intro h env hl
    have ht : (expandedConfigStr x env (disableEnvParsing args) text).1 = text := by
      rw [hsame]
      exact h env hl
    refine ⟨ht, ?_⟩
    intro config control hload
    have hnew := loadConfigFromFile_file hfile hread hload
    rw [ht] at hnew
    exact newFromStr_build toml hb hnew

/-! ## A client of a home network -/

def homeProfile : NetworkProfile :=
  { networkName := "home", secretFile := "secret", seedPhysicalIp := some "192.168.1.2" }

def homeText (secret : String) : String :=
  "\n".intercalate (lines homeProfile secret none) ++ "\n"

def homeFile : ConfigPath :=
  ⟨"/var/lib/easytierhost/core.toml", some "/var/lib/easytierhost", some "core", some "toml"⟩

def homeFiles (secret : String) : ConfigFiles :=
  ⟨none, fun path => if path = homeFile.text then some (homeText secret) else none, fun _ => false⟩

def homeArgs : List String :=
  ["--config-file", "/var/lib/easytierhost/core.toml", "--rpc-portal", "127.0.0.1:15888"]

/-- The names an environment can hold: not empty, without `=` and NUL. -/
def portableName (name : List Char) : Bool :=
  !name.isEmpty && !name.contains '=' && !name.contains '\x00'

theorem homeText_build : ∀ secret, isNullOrWhiteSpace secret = false →
    build homeProfile secret none = .ok (homeText secret) := by
  intro secret hs
  have hv : NetworkProfileValidator.validate homeProfile = .ok () := by rfl
  unfold build
  rw [hv, hs]
  rfl

/-- A dollar sign in front of a blank is an ordinary character. -/
theorem host_core_agree_lone_dollar :
    (∀ env : Environment, env.Legal portableName →
      Agrees .ascii env (.byLines "id") (homeFiles "pa$ word") homeFile none homeArgs homeProfile
        "pa$ word" (homeText "pa$ word")) ∧
    newFromStr (.byLines "id") (homeText "pa$ word") = some ⟨some ⟨"home", some "pa$ word"⟩, "id"⟩ := by
  have hb := homeText_build "pa$ word" (by decide)
  have ha : EasyTierArgumentBuilder.build homeProfile homeFile.text {} = .ok homeArgs := by rfl
  refine ⟨?_, newFromStr_byLines_build "id" hb⟩
  apply (host_core_agree_iff .ascii portableName (.byLines "id") (homeFiles "pa$ word") homeFile none
    homeProfile "pa$ word" none {} (homeText "pa$ word") homeArgs hb ha (by decide)
    (by simp [homeFiles])).mpr
  decide +kernel

/-- A secret with two dollar signs loses one of them: what Core parses is the
text of another network. -/
theorem host_core_secret_rewritten :
    build homeProfile "pa$$word" none = .ok (homeText "pa$$word") ∧
    EasyTierArgumentBuilder.build homeProfile homeFile.text {} = .ok homeArgs ∧
    (expandedConfigStr .ascii [] (disableEnvParsing homeArgs) (homeText "pa$$word")).1 =
      homeText "pa$word" ∧
    newFromStr (.byLines "id") (homeText "pa$word") = some ⟨some ⟨"home", some "pa$word"⟩, "id"⟩ ∧
    ¬ Agrees .ascii [] (.byLines "id") (homeFiles "pa$$word") homeFile none homeArgs homeProfile
      "pa$$word" (homeText "pa$$word") := by
  have hb := homeText_build "pa$$word" (by decide)
  have hb' := homeText_build "pa$word" (by decide)
  have ha : EasyTierArgumentBuilder.build homeProfile homeFile.text {} = .ok homeArgs := by rfl
  have hout : Expander.ascii.expand [] (identityText homeProfile.networkName "pa$$word") =
      some (identityText homeProfile.networkName "pa$word") := by decide +kernel
  have hexp : (expandedConfigStr .ascii [] (disableEnvParsing homeArgs) (homeText "pa$$word")).1 =
      homeText "pa$word" := by
    rw [expandedConfigStr_build ha, ← String.toList_inj, toList_build hb', toList_lines]
    exact toList_expandEnvVars_build .ascii [] hb hout
  refine ⟨hb, ha, hexp, newFromStr_byLines_build "id" hb', ?_⟩
  intro h
  have hsame := congrArg String.toList (hexp.symm.trans h.1)
  rw [toList_build hb', toList_build hb, toList_lines, toList_lines] at hsame
  have hid := List.append_cancel_right (List.append_cancel_left hsame)
  exact absurd hid (by decide)

end EasyTierHost
