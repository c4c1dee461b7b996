import EasyTierHost.Deployment.LinuxRemoteInstaller
import EasyTierHost.Text.ShellWords

/- Quoting at two levels. A command for a Linux node is a script with quoted values in
   it, and the script is quoted again as the argument of `bash -c`, so that the quotes
   around a value become sequences of quotes themselves. The login shell undoes the
   outer quoting, whatever the script; the inner shell finds every value where it was
   put, whatever the value. -/
namespace EasyTierHost
open Text

namespace LinuxRemoteInstaller

/-- A script with quoted values in it. -/
def embed (pieces : Shell.Line) : String := String.ofList (Shell.render pieces)

/-- A quoted value by itself is one word. -/
theorem tokens_bash (value : String) :
    Shell.tokens (bash value).toList = [.word (Shell.quotedSyms value.toList)] := by
  rw [bash, String.toList_ofList, Shell.tokens, Shell.run_quote rfl]
  rfl

/-- For every value one word, and for every script with values in it: the login shell
takes the script out as it was put in, and bash finds every value there. -/
theorem nested_quoting :
    (∀ value : String, ∃ word, Shell.tokens (bash value).toList = [.word word] ∧
      Shell.literal word = some value) ∧
    ∀ (request : DeploymentRequest) (pieces : Shell.Line), Shell.placed .start pieces = true →
      remoteScript (rootShell request (embed pieces)) = some (embed pieces) ∧
      ∀ pre value post, pieces = pre ++ .value value :: post →
        Shell.HasValue (Shell.tokens (embed pieces).toList) pre post value := by
  refine ⟨fun value => ⟨_, tokens_bash value, literal_quotedSyms value⟩, fun request pieces hplaced => ?_⟩
  refine ⟨remoteScript_rootShell request _, fun pre value post hpieces => ?_⟩
  rw [embed, String.toList_ofList]
  subst hpieces
  exact Shell.tokens_hasValue hplaced

/-! ## The scripts of the installer -/

/-- The commands around the transaction. -/
def createStage (stage : String) : Shell.Line :=
  [.text "umask 077; mkdir -p -m 700 -- ", .value stage, .text "; chmod 700 -- ", .value stage]

def protectSecret (stagedSecret : String) : Shell.Line := [.text "chmod 600 -- ", .value stagedSecret]

def cleanupStage (stage : String) : Shell.Line := [.text "rm -rf -- ", .value stage]

/-- The scripts of `UninstallAsync`, for a client and for a service. -/
def uninstallClient (uninstaller : String) (request : DeploymentRequest) : Shell.Line :=
  [.text "chmod 700 ", .value uninstaller, .text " && EASYTIER_HOST_ROOT=", .value request.remoteInstallDirectory,
    .text " EASYTIER_HOST_PROFILE=", .value request.remoteProfilePath, .text " EASYTIER_HOST_STATE=",
    .value request.remoteStateDirectory, .text " EASYTIER_HOST_SERVICE=", .value request.serviceName, .text " ",
    .value uninstaller, .text " uninstall"]

def uninstallService (uninstaller : String) (request : DeploymentRequest) : Shell.Line :=
  [.text "chmod 700 ", .value uninstaller, .text " && ", .value uninstaller, .text " ", .value request.serviceName,
    .text " ", .value request.remoteStateDirectory, .text " false"]

theorem commands_placed (stage uninstaller : String) (request : DeploymentRequest) :
    ∀ pieces ∈ [createStage stage, protectSecret stage, cleanupStage stage, uninstallClient uninstaller request,
      uninstallService uninstaller request], Shell.placed .start pieces = true := by
  have hchmod : (Shell.run .start "chmod 700 ".toList).1 = .start := by decide +kernel
  have hstage : ∀ ys, (Shell.run ⟨[], .word ys, false, false⟩ "; chmod 700 -- ".toList).1 = .start := by
    intro ys
    have hrest : (Shell.run ⟨[], .op ';', false, false⟩ " chmod 700 -- ".toList).1 = .start := by decide +kernel
    rw [String.toList_ofList] at hrest ⊢
    rw [Shell.run, Shell.step_semicolon]
    dsimp only
    rw [hrest]
  have hcreate : (Shell.run .start "umask 077; mkdir -p -m 700 -- ".toList).1 = .start := by decide +kernel
  have hprotect : (Shell.run .start "chmod 600 -- ".toList).1 = .start := by decide +kernel
  have hcleanup : (Shell.run .start "rm -rf -- ".toList).1 = .start := by decide +kernel
  simp only [List.forall_mem_cons]
  refine ⟨?_, ?_, ?_, ?_, ?_, by simp⟩
  · rw [createStage, Shell.placed, hcreate, Shell.placed, Shell.placed, Shell.Pending.add, hstage]
    rfl
  · rw [protectSecret, Shell.placed, hprotect]
    rfl
  · rw [cleanupStage, Shell.placed, hcleanup]
    rfl
  · rw [uninstallClient, Shell.placed, hchmod]
    refine Shell.placed_gap rfl String.toList_ofList ?_
    refine Shell.placed_gap (by decide +kernel) String.toList_ofList ?_
    refine Shell.placed_gap (by decide +kernel) String.toList_ofList ?_
    refine Shell.placed_gap (by decide +kernel) String.toList_ofList ?_
    refine Shell.placed_gap (by decide +kernel) String.toList_ofList ?_
    exact Shell.placed_gap rfl String.toList_ofList rfl
  · rw [uninstallService, Shell.placed, hchmod]
    refine Shell.placed_gap rfl String.toList_ofList ?_
    refine Shell.placed_gap (by decide +kernel) String.toList_ofList ?_
    refine Shell.placed_gap rfl String.toList_ofList ?_
    exact Shell.placed_gap rfl String.toList_ofList rfl

/-- The pieces of the install script. -/
def installPieces (newLine : NewLine) (v : InstallTransaction) : Shell.Line :=
  ((installLines v).map (ended newLine)).flatMap (fun line => line ++ [.text "\n"])

theorem embed_installPieces (newLine : NewLine) (v : InstallTransaction) :
    embed (installPieces newLine v) = buildInstallTransaction newLine v := by
  rw [← String.ofList_toList (s := buildInstallTransaction newLine v), toList_buildInstallTransaction, embed, installPieces]
  congr 1
  rw [Shell.script, Shell.render, List.flatMap_assoc, List.flatMap_map, List.flatMap_map, List.flatMap_map]
  apply List.flatMap_congr
  intro line hl
  exact Shell.render_append (ended newLine line) [.text "\n"]

/-- Every value of the install script is placed in it, whatever the line end. -/
theorem install_placed (newLine : NewLine) (v : InstallTransaction) :
    Shell.placed .start (installPieces newLine v) = true := by
  refine Shell.placed_lines (fun full hfull => ?_)
  obtain ⟨line, hl, rfl⟩ := List.mem_map.mp hfull
  refine ⟨?_, (Shell.reads_render (sound_line newLine v line hl)).closed⟩
  have hfixed : ∀ {lines : List String}, line ∈ fixed lines → Shell.placed .start (ended newLine line) = true := by
    intro lines hm
    obtain ⟨s, -, rfl⟩ := List.mem_map.mp hm
    exact Shell.placed_text .start [s, newLine.extra]
  simp only [installLines, List.mem_append] at hl
  rcases hl with (((hl | hl) | hl) | hl) | hl
  · exact hfixed hl
  · obtain ⟨a, ha, rfl⟩ := List.mem_map.mp hl
    exact Shell.placed_assign (isName_variable v a ha) a.2 newLine.extra
  · exact hfixed hl
  · have hchmod : (Shell.run .start "chmod 700 ".toList).1 = .start := by decide +kernel
    simp only [installerLines, List.mem_cons, List.not_mem_nil, or_false] at hl
    rcases hl with rfl | rfl
    · rw [ended, List.cons_append, Shell.placed, hchmod]
      rfl
    · exact Shell.placed_gap rfl String.toList_ofList (Shell.placed_gap (by decide +kernel) String.toList_ofList rfl)
  · exact hfixed hl

/-- A stage with a quote and a command in its name, created on the node. -/
theorem quoted_stage_created :
    remoteScript (rootShell managerRequest (embed (createStage "it's; rm -rf /$HOME"))) =
        some (embed (createStage "it's; rm -rf /$HOME")) ∧
      Shell.HasValue (Shell.tokens (embed (createStage "it's; rm -rf /$HOME")).toList)
        [.text "umask 077; mkdir -p -m 700 -- "] [.text "; chmod 700 -- ", .value "it's; rm -rf /$HOME"]
        "it's; rm -rf /$HOME" := by
  have hplaced := commands_placed "it's; rm -rf /$HOME" "" managerRequest (createStage "it's; rm -rf /$HOME")
    List.mem_cons_self
  have hread := nested_quoting.2 managerRequest (createStage "it's; rm -rf /$HOME") hplaced
  exact ⟨hread.1, hread.2 _ _ _ rfl⟩

end LinuxRemoteInstaller

end EasyTierHost
