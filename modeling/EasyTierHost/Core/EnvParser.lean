import EasyTierHost.Core.Configuration
import EasyTierHost.Text.Expansion

/- How Core reads its configuration file: `expand_env_vars` of env_parser.rs, and
   `load_config_from_file` and the network identity of config.rs. The crates
   Core uses for the two languages are parameters: an `Expander` for shellexpand
   and a `TomlReader` for toml. Of a `Config` the fields kept are those the
   loading of a file reads or sets; the digest of the secret is left out. -/
namespace EasyTierHost
open Text

/-- `expand_env_vars`: the text and whether it was replaced. A text that cannot be
expanded is used as it is. -/
def expandEnvVars (x : Expander) (env : Environment) (text : String) : String × Bool :=
  match x.expand env text.toList with
  | some expanded => (String.ofList expanded, x.owned env text.toList)
  | none => (text, false)

/-! ## The network identity -/

/-- `NetworkIdentity`. -/
structure NetworkIdentity where
  networkName : String
  networkSecret : Option String
  deriving DecidableEq, Repr

/-- `NetworkIdentity::default`. -/
def NetworkIdentity.default : NetworkIdentity := ⟨"default", some ""⟩

/-- `Config`. The identifier is the one `get_id` answers, drawn if there is none. -/
structure Config where
  networkIdentity : Option NetworkIdentity
  id : String
  deriving DecidableEq, Repr

/-- The string a key of a table holds. -/
def stringAt (items : List Toml.Item) (table key : String) : Option String :=
  match Toml.get items table.toList key.toList with
  | some (.string s) => some (String.ofList s)
  | _ => none

/-- The identity a document holds. -/
def identityOf (items : List Toml.Item) : Option NetworkIdentity :=
  (stringAt items "network_identity" "network_name").map
    (fun name => ⟨name, stringAt items "network_identity" "network_secret"⟩)

/-- `toml::de::from_str::<Config>`. Whether a document is taken also hangs on the
types of its other fields; one that is taken has the identity it spells. -/
structure TomlReader where
  fromStr : String → Option Config
  fromStr_identity : ∀ t items c, Toml.parse t.toList = some items → fromStr t = some c →
    c.networkIdentity = identityOf items

/-- The reader that takes what `Toml.parse` reads. -/
def TomlReader.byLines (id : String) : TomlReader where
  fromStr t := (Toml.parse t.toList).map (fun items => ⟨identityOf items, id⟩)
  fromStr_identity t items c hp hc := by
    rw [hp] at hc
    cases hc
    rfl

/-- `TomlConfigLoader::new_from_str`. -/
def newFromStr (toml : TomlReader) (text : String) : Option Config :=
  (toml.fromStr text).map (fun config =>
    let old := config.networkIdentity.getD .default
    { config with networkIdentity := some ⟨old.networkName, some (old.networkSecret.getD "")⟩ })

/-! ## Loading a file -/

/-- `PathBuf`, with the parts the loader asks for. -/
structure ConfigPath where
  text : String
  parent : Option String
  fileStem : Option String
  extension : Option String
  deriving DecidableEq, Repr

/-- What the operating system answers about standard input and files. A file
without metadata counts as read-only. -/
structure ConfigFiles where
  stdin : Option String
  readToString : String → Option String
  readOnly : String → Bool

/-- `ConfigFileControl`. -/
structure ConfigFileControl where
  path : Option String
  readOnly : Bool
  noDelete : Bool
  deriving DecidableEq, Repr

/-- `ConfigFileControl::STATIC_CONFIG`. -/
def ConfigFileControl.static : ConfigFileControl := ⟨none, true, true⟩

/-- The text of the file that is parsed, and whether variables were expanded in
it. -/
def expandedConfigStr (x : Expander) (env : Environment) (disableEnvParsing : Bool)
    (configStr : String) : String × Bool :=
  if disableEnvParsing then (configStr, false) else expandEnvVars x env configStr

/-- What may be done to a loaded file. -/
def controlOf (files : ConfigFiles) (file : ConfigPath) (configDir : Option String)
    (config : Config) (usesEnvVars : Bool) : ConfigFileControl :=
  let readOnly := files.readOnly file.text
  if usesEnvVars then ⟨some file.text, true, true⟩
  else if readOnly then ⟨some file.text, true, true⟩
  else match configDir, file.parent with
    | some dir, some parent =>
      ⟨some file.text, readOnly,
        !(parent == dir && file.fileStem == some config.id && file.extension == some "toml")⟩
    -- a path without a parent keeps the permission the file came with
    | some _, none => ⟨some file.text, readOnly, false⟩
    | none, _ => ⟨some file.text, readOnly, true⟩

/-- `load_config_from_file`. A document from standard input is not expanded. -/
def loadConfigFromFile (x : Expander) (env : Environment) (toml : TomlReader) (files : ConfigFiles)
    (file : ConfigPath) (configDir : Option String) (disableEnvParsing : Bool) :
    Option (Config × ConfigFileControl) := do
  if file.text = "-" then
    let text ← files.stdin
    let config ← newFromStr toml text
    return (config, .static)
  let configStr ← files.readToString file.text
  let expanded := expandedConfigStr x env disableEnvParsing configStr
  let config ← newFromStr toml expanded.1
  return (config, controlOf files file configDir config expanded.2)

/-- The switch of Core's command line. An option is followed by its value; the
switch takes none. -/
def disableEnvParsing : List String → Bool
  | [] => false
  | [arg] => arg == "--disable-env-parsing"
  | arg :: _ :: rest =>
    if arg = "--disable-env-parsing" then true
    else disableEnvParsing rest

end EasyTierHost
