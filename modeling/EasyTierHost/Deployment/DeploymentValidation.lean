import Mathlib.Algebra.GroupWithZero.Nat
import Mathlib.Data.List.DropRight
import EasyTierHost.Deployment.SecretProvisioning

/- What a deployment checks before it touches the remote node, and the values the
   install script is built from (DeploymentValidation of DeploymentService.cs, and
   the first lines of `InstallAsync` in both installers). The machine that runs the
   deployment is a parameter: its file system, its path functions and the character
   tables of its runtime. Remote paths are checked for line ends and blanks only;
   that the paths do not overlap is checked of the secret and the profile alone. -/
namespace EasyTierHost
open NetworkProfileValidator (require)

/-- The machine that runs the deployment. -/
structure LocalMachine where
  directoryExists : String → Bool
  fileExists : String → Bool
  separator : Char
  /-- `Path.Combine`. -/
  combine : String → String → String
  /-- `Path.GetFileName(Path.TrimEndingDirectorySeparator(Path.GetFullPath(path)))`. -/
  lastName : String → String
  /-- `char.IsLetter` and `char.IsLetterOrDigit`, of a unit of UTF-16. -/
  isLetter : Char → Bool
  isLetterOrDigit : Char → Bool
  /-- The upper case that `OrdinalIgnoreCase` compares. -/
  toUpper : Char → Char

/-- `StringComparison.OrdinalIgnoreCase`. -/
def LocalMachine.equalsIgnoreCase (m : LocalMachine) (a b : String) : Bool :=
  a.toList.map m.toUpper == b.toList.map m.toUpper

/-- `path.Replace(from, to)` of characters. -/
def replaceChar (old new : Char) (s : String) : String :=
  String.ofList (s.toList.map (fun c => if c = old then new else c))

/-- The units of UTF-16 of a character. -/
def utf16Units (c : Char) : Nat := if c.toNat < 0x10000 then 1 else 2

namespace DeploymentValidation

/-- `IndexOfAny(['\r', '\n', '\0']) >= 0`. -/
def hasBreak (s : String) : Bool := s.toList.any (fun c => c == '\r' || c == '\n' || c == '\x00')

def validateRemotePath (path : String) : Except Err Unit :=
  require (!(isNullOrWhiteSpace path || hasBreak path)) "Remote path is invalid"

theorem validateRemotePath_ok {path : String} (hblank : isNullOrWhiteSpace path = false)
    (hbreak : hasBreak path = false) : validateRemotePath path = .ok () := by
  rw [validateRemotePath, hblank, hbreak]
  rfl

def looksLikeWindowsAbsolutePath (m : LocalMachine) (value : String) : Bool :=
  match value.toList with
  | c :: ':' :: _ => c.toNat < 0x10000 && m.isLetter c
  | _ => false

def isSafeServiceName (m : LocalMachine) (name : String) : Bool :=
  !isNullOrWhiteSpace name && (name.toList.map utf16Units).sum ≤ 128 &&
    name.toList.all (fun c =>
      (c.toNat < 0x10000 && m.isLetterOrDigit c) || c == '-' || c == '_' || c == '.')

def packageName (m : LocalMachine) (path : String) : Except Err String := do
  let name := m.lastName path
  require (!(isNullOrWhiteSpace name || name.toList.any isWhiteSpace))
    "Package directory name must not contain whitespace"
  pure name

def validate (m : LocalMachine) (request : DeploymentRequest) (os : ServerOsType)
    (installerRelative : String) : Except Err Unit := do
  require (request.osType == os) "Deployment OS does not match installer"
  require (m.directoryExists request.localPackageDirectory)
    "Local package directory does not exist"
  require (m.fileExists request.localProfilePath) "Local network profile does not exist"
  require (m.fileExists (m.combine request.localPackageDirectory
      (replaceChar '/' m.separator installerRelative)))
    ("Package is missing " ++ installerRelative)
  validateRemotePath request.remoteInstallDirectory
  validateRemotePath request.remoteProfilePath
  validateRemotePath request.remoteStateDirectory
  require (isSafeServiceName m request.serviceName) "Service name is invalid"
  let _ ← packageName m request.localPackageDirectory
  pure ()

def slash (c : Char) : Bool := c == '/'

def anySlash (c : Char) : Bool := c == '/' || c == '\\'

def combineRemote (root relative : String) : String :=
  String.ofList (root.toList.rdropWhile anySlash ++ '/' :: relative.toList.dropWhile anySlash)

def normalizeSecretRelativePath (m : LocalMachine) (path : String) : Except Err String := do
  require (!(isNullOrWhiteSpace path || hasBreak path)) "Secret file path is invalid"
  let normalized := replaceChar '\\' '/' path
  require (!(normalized.toList.head? == some '/' || looksLikeWindowsAbsolutePath m normalized))
    "Remote deployment requires a relative secret file path"
  let segments := (normalized.toList.splitOn '/').filter (fun s => !s.isEmpty)
  require (!(segments.isEmpty || segments.any (fun s => s == ['.'] || s == ['.', '.'])))
    "Secret file path must stay inside the remote profile directory"
  pure (String.ofList (List.intercalate ['/'] segments))

def remoteDirectory (path : String) : Except Err String := do
  validateRemotePath path
  let normalized := (replaceChar '\\' '/' path).toList.rdropWhile slash
  -- everything up to the last slash, which is at `upTo.length - 1`
  let upTo := normalized.rdropWhile (fun c => !slash c)
  require (1 < upTo.length) "Remote profile path must include a directory"
  pure (String.ofList upTo.dropLast)

def resolveRemoteSecretPath (m : LocalMachine) (request : DeploymentRequest)
    (secretRelativePath : String) : Except Err String := do
  let directory ← remoteDirectory request.remoteProfilePath
  let relative ← normalizeSecretRelativePath m secretRelativePath
  let secret := combineRemote directory relative
  require (!m.equalsIgnoreCase secret (replaceChar '\\' '/' request.remoteProfilePath))
    "Secret file cannot overwrite the network profile"
  pure secret

def validatePortableExecutable (m : LocalMachine) (value label : String) : Except Err Unit := do
  require (!(isNullOrWhiteSpace value || hasBreak value)) (label ++ " path is invalid")
  let normalized := replaceChar '\\' '/' value
  require (!(normalized.toList.head? == some '/' || looksLikeWindowsAbsolutePath m normalized ||
      (normalized.toList.splitOn '/').any (fun s => s == ['.', '.'])))
    ("Remote deployment requires a portable relative " ++ label ++ " path")

/-- The name of a role in a message. -/
def roleName : NodeRole → String
  | .seed => "Seed"
  | .gateway => "Gateway"
  | .dedicated => "Dedicated"
  | .client => "Client"

/-- `ValidateProfileAsync`, of the profile the JSON reader gives. -/
def validateProfile (m : LocalMachine) (request : DeploymentRequest) (profile : NetworkProfile) :
    Except Err Unit := do
  require (m.fileExists request.localProfilePath) "Local network profile does not exist"
  NetworkProfileValidator.validate profile
  require (profile.role == request.role)
    ("Deployment role " ++ roleName request.role ++ " does not match profile role " ++
      roleName profile.role)
  let _ ← normalizeSecretRelativePath m profile.secretFile
  validatePortableExecutable m profile.corePath "Core"
  validatePortableExecutable m profile.cliPath "CLI"

end DeploymentValidation

/-! ## The values of an install script -/

/-- The values `BuildInstallTransaction` puts into its script. -/
structure InstallTransaction where
  service : String
  install : String
  state : String
  incoming : String
  profile : String
  stagedProfile : String
  secret : String
  stagedSecret : String
  stage : String
  installer : String
  deriving DecidableEq, Repr

open DeploymentValidation in
/-- The first lines of `InstallAsync`, shared by the installers: the checks, the
material (with the secret the local file holds), and the paths on the node. -/
def prepareInstall (m : LocalMachine) (os : ServerOsType) (installerRelative stagePrefix : String)
    (remotePath : String → String) (request : DeploymentRequest) (profile : NetworkProfile)
    (secret : String) (guid : Guid) : Except Err InstallTransaction := do
  validate m request os installerRelative
  validateProfile m request profile
  DeploymentProfileMaterial.checkSecret secret
  let secretRelativePath ← normalizeSecretRelativePath m profile.secretFile
  let stage := stagePrefix ++ guid.digits 0 32
  let name ← packageName m request.localPackageDirectory
  let remoteSecret ← resolveRemoteSecretPath m request secretRelativePath
  let install := remotePath request.remoteInstallDirectory
  pure {
    service := request.serviceName
    install := install
    state := remotePath request.remoteStateDirectory
    incoming := stage ++ "/" ++ name
    profile := remotePath request.remoteProfilePath
    stagedProfile := stage ++ "/network.json"
    secret := remoteSecret
    stagedSecret := stage ++ "/network-secret.plain"
    stage := stage
    installer := combineRemote install installerRelative }

/-- `LinuxRemoteInstaller.InstallAsync` up to the script. -/
def LinuxRemoteInstaller.prepare (m : LocalMachine) (request : DeploymentRequest)
    (profile : NetworkProfile) (secret : String) (guid : Guid) : Except Err InstallTransaction :=
  prepareInstall m .linux "scripts/linux/install-service.sh" "/tmp/easytier-host-deploy-" id
    request profile secret guid

/-- `WindowsRemoteInstaller.InstallAsync` up to the script. -/
def WindowsRemoteInstaller.prepare (m : LocalMachine) (request : DeploymentRequest)
    (profile : NetworkProfile) (secret : String) (guid : Guid) : Except Err InstallTransaction :=
  prepareInstall m .windows "scripts/windows/install-service.ps1"
    "C:/ProgramData/EasyTierHost/deploy/" (replaceChar '\\' '/') request profile secret guid

/-! ## A deployment from a Windows machine -/

/-- A machine with a package and a profile. -/
def managerMachine : LocalMachine where
  directoryExists path := path == "C:\\deploy\\package"
  fileExists path := path == "C:\\deploy\\network.json" ||
    path == "C:\\deploy\\package\\scripts\\linux\\install-service.sh"
  separator := '\\'
  combine root relative := root ++ "\\" ++ relative
  lastName path := String.ofList (path.toList.rtakeWhile (fun c => c != '\\'))
  isLetter := Char.isAlpha
  isLetterOrDigit := Char.isAlphanum
  toUpper := Char.toUpper

def managerProfile : NetworkProfile :=
  { networkName := "home", secretFile := "secret", seedPhysicalIp := some "192.168.1.2" }

def managerRequest : DeploymentRequest where
  osType := .linux
  role := .client
  remote := ⟨"root"⟩
  localPackageDirectory := "C:\\deploy\\package"
  remoteInstallDirectory := "/opt/easytier-host"
  localProfilePath := "C:\\deploy\\network.json"
  remoteProfilePath := "/etc/easytier-host/network.json"
  remoteStateDirectory := "/var/lib/easytier-host"

def managerTransaction : InstallTransaction where
  service := "EasyTierHost"
  install := "/opt/easytier-host"
  state := "/var/lib/easytier-host"
  incoming := "/tmp/easytier-host-deploy-00000000000000000000000000000000/package"
  profile := "/etc/easytier-host/network.json"
  stagedProfile := "/tmp/easytier-host-deploy-00000000000000000000000000000000/network.json"
  secret := "/etc/easytier-host/secret"
  stagedSecret := "/tmp/easytier-host-deploy-00000000000000000000000000000000/network-secret.plain"
  stage := "/tmp/easytier-host-deploy-00000000000000000000000000000000"
  installer := "/opt/easytier-host/scripts/linux/install-service.sh"

theorem managerRequest_accepted :
    LinuxRemoteInstaller.prepare managerMachine managerRequest managerProfile "correct horse" 0
      = .ok managerTransaction := by
  rfl

end EasyTierHost
