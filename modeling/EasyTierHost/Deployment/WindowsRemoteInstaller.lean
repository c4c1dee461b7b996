import EasyTierHost.Deployment.DeploymentValidation
import EasyTierHost.Text.PowerShell

/- The quoting of the scripts for Windows nodes (WindowsRemoteInstaller.cs, and
   `PowerShellCommand.Quote` of the Host's own scripts). Both double U+0027 and nothing
   else. A remote path may hold any other character but line ends and NUL, so it may
   hold the typographic quotes, each of which PowerShell takes for a single quote. -/
namespace EasyTierHost
open Text DeploymentValidation

/-- `PowerShellCommand.Quote`. -/
def PowerShellCommand.quote (value : String) : String := String.ofList (PowerShell.quote value.toList)

namespace WindowsRemoteInstaller

/-- `Ps`. -/
def ps (value : String) : String := String.ofList (PowerShell.quote value.toList)

/-- The text is one single-quoted string with the value, and what is behind it is left. -/
def ReadsAs (quoted value : String) : Prop :=
  ∀ rest : List Char, (∀ c ∈ rest.head?, PowerShell.isSingleQuote c = false) →
    PowerShell.readString (quoted.toList ++ rest) = some (value.toList, rest)

theorem readsAs_iff (value : String) : ReadsAs (String.ofList (PowerShell.quote value.toList)) value ↔
    ∀ c ∈ value.toList, PowerShell.isTypographic c = false := by
  rw [ReadsAs, String.toList_ofList]
  constructor
  · intro h
    have hnone : ∀ c ∈ ([] : List Char).head?, PowerShell.isSingleQuote c = false := by simp
    exact (PowerShell.readString_quote_iff value.toList hnone).mp (h [] hnone)
  · exact fun h rest hrest => (PowerShell.readString_quote_iff value.toList hrest).mpr h

/-- A remote path, and any text given to `Quote`, is read as it was meant exactly if it
has no typographic quote. -/
theorem quoted_reads_iff (value : String) :
    (validateRemotePath value = .ok () →
      (ReadsAs (ps value) value ↔ ∀ c ∈ value.toList, PowerShell.isTypographic c = false)) ∧
    (ReadsAs (PowerShellCommand.quote value) value ↔
      ∀ c ∈ value.toList, PowerShell.isTypographic c = false) :=
  ⟨fun _ => readsAs_iff value, readsAs_iff value⟩

theorem apostrophe_reads : ReadsAs (ps "C:/it's here") "C:/it's here" := by
  have hvalid : validateRemotePath "C:/it's here" = .ok () :=
    validateRemotePath_ok (by decide +kernel) (by decide +kernel)
  have hplain : "C:/it's here".toList.all (fun c => PowerShell.isTypographic c == false) = true := by
    decide +kernel
  refine ((quoted_reads_iff "C:/it's here").1 hvalid).mpr ?_
  intro c hc
  exact eq_of_beq (List.all_eq_true.mp hplain c hc)

/-! ## A path that ends its string -/

def windowsMachine : LocalMachine :=
  { managerMachine with
    fileExists := fun path => path == "C:\\deploy\\network.json" ||
      path == "C:\\deploy\\package\\scripts\\windows\\install-service.ps1" }

/-- U+2019 in the install directory, and a command behind it. -/
def quotedDirectory : String := "C:/a" ++ String.ofList [Char.ofNat 0x2019] ++ "; calc #"

def quotedRequest : DeploymentRequest :=
  { managerRequest with
    osType := .windows
    remoteInstallDirectory := quotedDirectory }

/-- The deployment is accepted; in its script the string ends at the typographic quote, and
the command behind it is read as one. -/
theorem path_ends_string :
    (∃ v, prepare windowsMachine quotedRequest managerProfile "correct horse" 0 = .ok v ∧
      v.install = quotedDirectory) ∧
    PowerShell.readString (ps quotedDirectory).toList = some ("C:/a".toList, "; calc #'".toList) ∧
    ¬∀ path, validateRemotePath path = .ok () → ReadsAs (ps path) path := by
  have hread : PowerShell.readString (ps quotedDirectory).toList = some ("C:/a".toList, "; calc #'".toList) := by
    decide +kernel
  refine ⟨⟨_, rfl, by decide +kernel⟩, hread, fun hall => ?_⟩
  have hvalid : validateRemotePath quotedDirectory = .ok () :=
    validateRemotePath_ok (by decide +kernel) (by decide +kernel)
  have hmeant := hall quotedDirectory hvalid [] (by simp)
  rw [List.append_nil, hread] at hmeant
  have hlength := congrArg (fun r : Option (List Char × List Char) => r.map (fun r => r.2.length)) hmeant
  exact absurd hlength (by decide +kernel)

end WindowsRemoteInstaller

end EasyTierHost
