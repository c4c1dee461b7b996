import EasyTierHost.Deployment.DeploymentValidation
import EasyTierHost.Text.Shell

/- The text of the Linux install script, and how it is read on the node
   (LinuxRemoteInstaller.cs). `StringBuilder.AppendLine` ends a line with the line end
   of the machine that builds the script; the script goes to the node as one argument
   of ssh, where the login shell reads the command of `RootShell` and bash the script
   in it. -/
namespace EasyTierHost
open Text

/-- `Environment.NewLine`. -/
inductive NewLine where
  | lf | crlf
  deriving DecidableEq, Repr

/-- What stands in front of the line feed. -/
def NewLine.extra : NewLine → String
  | .lf => ""
  | .crlf => "\r"

namespace LinuxRemoteInstaller

/-- `Bash`. -/
def bash (value : String) : String := String.ofList (Shell.quote value.toList)

/-- The variables of the script and their values. -/
def scriptVariables (v : InstallTransaction) : List (String × String) := [
  ("service", v.service),
  ("install", v.install),
  ("state", v.state),
  ("incoming", v.incoming),
  ("profile", v.profile),
  ("staged_profile", v.stagedProfile),
  ("secret", v.secret),
  ("staged_secret", v.stagedSecret),
  ("stage", v.stage)]

def assignmentLines (v : InstallTransaction) : List Shell.Line :=
  (scriptVariables v).map (fun a => Shell.assign a.1 a.2)

def backupLines : List String := [
  "backup_install=\"$\x7binstall\x7d.previous\"",
  "backup_profile=\"$\x7bprofile\x7d.previous\"",
  "backup_secret=\"$\x7bsecret\x7d.previous\"",
  "had_install=false; if [[ -d \"$install\" ]]; then had_install=true; fi",
  "had_profile=false; if [[ -f \"$profile\" ]]; then had_profile=true; fi",
  "had_secret=false; if [[ -f \"$secret\" ]]; then had_secret=true; fi",
  "if systemctl list-unit-files --type=service --no-legend \"$\x7bservice\x7d.service\" 2>/dev/null | grep -q \"$\x7bservice\x7d.service\"; then if [[ \"$had_install\" != true ]]; then echo 'foreign service ownership' >&2; exit 41; fi; fi",
  "if systemctl cat \"$service\" >/dev/null 2>&1; then systemctl stop \"$service\" || exit 1; fi",
  "if [[ -f \"$state/route-journal.json\" || -f \"$state/gateway-journal.json\" ]]; then chmod +x \"$incoming/easytier-host\"; \"$incoming/easytier-host\" recover-network \"$state\"; fi",
  "rm -rf -- \"$backup_install\"; rm -f -- \"$backup_profile\" \"$backup_secret\"",
  "if [[ \"$had_install\" == true ]]; then mv -- \"$install\" \"$backup_install\"; fi",
  "if [[ \"$had_profile\" == true ]]; then mv -- \"$profile\" \"$backup_profile\"; fi",
  "if [[ \"$had_secret\" == true ]]; then mv -- \"$secret\" \"$backup_secret\"; fi"]

def rollbackLines : List String := [
  "rollback() \x7b",
  "  if systemctl cat \"$service\" >/dev/null 2>&1; then systemctl stop \"$service\" || return 1; fi",
  "  if [[ -f \"$state/route-journal.json\" || -f \"$state/gateway-journal.json\" ]]; then \"$install/easytier-host\" recover-network \"$state\" || return 1; fi",
  "  rm -rf -- \"$install\"",
  "  if [[ \"$had_install\" == true && -d \"$backup_install\" ]]; then mv -- \"$backup_install\" \"$install\"; fi",
  "  rm -f -- \"$profile\"",
  "  if [[ \"$had_profile\" == true && -f \"$backup_profile\" ]]; then mv -- \"$backup_profile\" \"$profile\"; fi",
  "  rm -f -- \"$secret\"",
  "  if [[ \"$had_secret\" == true && -f \"$backup_secret\" ]]; then mv -- \"$backup_secret\" \"$secret\"; fi",
  "  rm -rf -- \"$stage\" 2>/dev/null || true",
  "  if [[ \"$had_install\" == true ]]; then systemctl start \"$service\" 2>/dev/null || true; fi",
  "\x7d",
  "trap rollback ERR"]

def swapLines : List String := [
  "mkdir -p -- \"$(dirname \"$install\")\" \"$(dirname \"$profile\")\" \"$(dirname \"$secret\")\"",
  "chmod 700 -- \"$(dirname \"$profile\")\" \"$(dirname \"$secret\")\"",
  "mv -- \"$incoming\" \"$install\"",
  "chmod 700 -- \"$install/easytier-host\" \"$install/easytier-core\" \"$install/easytier-cli\"",
  "if [[ -d \"$install/scripts/linux\" ]]; then find \"$install/scripts/linux\" -maxdepth 1 -type f -name '*.sh' -exec chmod 700 -- \x7b\x7d +; fi",
  "cp -- \"$staged_profile\" \"$profile\"",
  "chmod 600 -- \"$profile\" \"$staged_secret\"",
  "DOTNET_ROOT=\"$(\"$install/scripts/linux/ensure-dotnet-runtime.sh\" \"$install\")\"",
  "export DOTNET_ROOT PATH=\"$DOTNET_ROOT:$PATH\"",
  "\"$install/easytier-host\" set-secret \"$secret\" < \"$staged_secret\"",
  "rm -f -- \"$staged_secret\"",
  "chmod 600 -- \"$secret\""]

def installerLines (v : InstallTransaction) : List Shell.Line := [
  [.text "chmod 700 ", .value v.installer],
  [.value v.installer, .text " \"$install\" \"$profile\" ", .value v.state, .text " \"$service\""]]

def readinessLines : List String := [
  "ready=false",
  "for _ in $(seq 1 45); do",
  "  if \"$install/easytier-host\" ready \"$profile\" >/dev/null 2>&1; then ready=true; break; fi",
  "  sleep 2",
  "done",
  "if [[ \"$ready\" != true ]]; then echo 'EasyTierHost node readiness did not converge within 90 seconds' >&2; false; fi",
  "trap - ERR",
  "rm -rf -- \"$backup_install\"; rm -f -- \"$backup_profile\" \"$backup_secret\"; rm -rf -- \"$stage\""]

def fixed (lines : List String) : List Shell.Line := lines.map (fun s => [.text s])

/-- The lines `BuildInstallTransaction` appends. -/
def installLines (v : InstallTransaction) : List Shell.Line :=
  fixed ["set -euo pipefail"] ++ assignmentLines v ++ fixed (backupLines ++ rollbackLines ++ swapLines) ++
    installerLines v ++ fixed readinessLines

def buildInstallTransaction (newLine : NewLine) (v : InstallTransaction) : String :=
  String.ofList ((installLines v).flatMap
    (fun line => Shell.render line ++ newLine.extra.toList ++ ['\n']))

def rootShell (request : DeploymentRequest) (script : String) : String :=
  let command := "bash -c " ++ bash script
  if request.remote.username = "root" then command else "sudo -n " ++ command

/-! ## The remote side -/

/-- The script that the login shell gives to bash. -/
def remoteScript (command : String) : Option String :=
  match Shell.arguments (Shell.tokens command.toList) with
  | some ["bash", "-c", script] => some script
  | some ["sudo", "-n", "bash", "-c", script] => some script
  | _ => none

/-- On the node every variable gets its value and every line is read as it is meant. -/
def ReadAsMeant (v : InstallTransaction) (command : String) : Prop :=
  ∃ script, remoteScript command = some script ∧
    (∀ a ∈ scriptVariables v, Shell.assigned a.1 (Shell.readScript script.toList) = [some a.2]) ∧
    Shell.readScript script.toList = (installLines v).map Shell.meant

theorem literal_quotedSyms (v : String) : Shell.literal (Shell.quotedSyms v.toList) = some v := by
  have h := Shell.literal_value v (t := "") rfl
  simpa [Shell.bare] using h

/-- The arguments of a command of plain words with a script behind them. -/
theorem arguments_script (script : String) : ∀ words : List (List Char),
    (∀ w ∈ words, (Shell.bare w).all Shell.Sym.plain = true) →
    Shell.arguments (words.map (fun w => .word (Shell.bare w)) ++ [.word (Shell.quotedSyms script.toList)])
      = some (words.map String.ofList ++ [script])
  | [], _ => by
    simp only [List.map_nil, List.nil_append, Shell.arguments, literal_quotedSyms]
    rfl
  | w :: words, h => by
    have hw : Shell.literal (Shell.bare w) = some (String.ofList w) := by
      rw [Shell.literal, h w List.mem_cons_self, if_pos rfl, Shell.bare_chars]
    have hrest := arguments_script script words (fun u hu => h u (List.mem_cons_of_mem w hu))
    rw [List.map_cons, List.cons_append, Shell.arguments, hw, hrest]
    rfl

/-- The nested quoting: the login shell takes the script out as it was put in. -/
theorem remoteScript_rootShell (request : DeploymentRequest) (script : String) :
    remoteScript (rootShell request script) = some script := by
  have hroot : ("bash -c " ++ bash script).toList
      = Shell.render [.text "bash -c ", .value script] := by
    simp [Shell.render, Shell.Piece.render, bash]
  have hsudo : ("sudo -n " ++ ("bash -c " ++ bash script)).toList
      = Shell.render [.text "sudo -n bash -c ", .value script] := by
    simp [Shell.render, Shell.Piece.render, bash]
  unfold rootShell remoteScript
  by_cases h : request.remote.username = "root"
  · have hmeant : Shell.arguments (Shell.meant [.text "bash -c ", .value script])
        = some ["bash", "-c", script] :=
      arguments_script script [['b', 'a', 's', 'h'], ['-', 'c']] (by decide)
    simp only [h, if_true]
    rw [hroot, Shell.tokens_render rfl, hmeant]
    rfl
  · have hmeant : Shell.arguments (Shell.meant [.text "sudo -n bash -c ", .value script])
        = some ["sudo", "-n", "bash", "-c", script] :=
      arguments_script script [['s', 'u', 'd', 'o'], ['-', 'n'], ['b', 'a', 's', 'h'], ['-', 'c']] (by decide)
    simp only [h, if_false]
    rw [hsudo, Shell.tokens_render rfl, hmeant]
    rfl

/-! ## The fixed lines -/

def variableNames : List String :=
  ["service", "install", "state", "incoming", "profile", "staged_profile", "secret",
    "staged_secret", "stage"]

/-- A line that is read by itself and assigns none of the variables. -/
def quiet (cs : List Char) : Bool :=
  Shell.closed cs && !(Shell.tokens cs).contains .newline &&
    match Shell.lineAssignment (Shell.tokens cs) with
    | some a => !(variableNames.map String.toList).contains a.1
    | none => true

/-- On either kind of machine. -/
def quietLine (s : String) : Prop :=
  ∀ newLine : NewLine, quiet (s.toList ++ newLine.extra.toList) = true

theorem quietLine_of {cs : List Char} (h : (quiet cs && quiet (cs ++ ['\r'])) = true) :
    quietLine (String.ofList cs) := by
  rw [Bool.and_eq_true] at h
  intro newLine
  rw [String.toList_ofList]
  cases newLine with
  | lf =>
    rw [NewLine.extra, String.toList_ofList, List.append_nil]
    exact h.1
  | crlf =>
    rw [NewLine.extra, String.toList_ofList]
    exact h.2

theorem quiet_first : ∀ s ∈ ["set -euo pipefail"], quietLine s := by
  simp only [List.forall_mem_cons]
  exact ⟨quietLine_of (by decide +kernel), by simp⟩

set_option maxRecDepth 2000 in
theorem quiet_backup : ∀ s ∈ backupLines, quietLine s := by
  simp only [backupLines, List.forall_mem_cons]
  refine ⟨?_, ?_, ?_, ?_, ?_, ?_, ?_, ?_, ?_, ?_, ?_, ?_, ?_, by simp⟩
  all_goals exact quietLine_of (by decide +kernel)

set_option maxRecDepth 2000 in
theorem quiet_rollback : ∀ s ∈ rollbackLines, quietLine s := by
  simp only [rollbackLines, List.forall_mem_cons]
  refine ⟨?_, ?_, ?_, ?_, ?_, ?_, ?_, ?_, ?_, ?_, ?_, ?_, ?_, by simp⟩
  all_goals exact quietLine_of (by decide +kernel)

set_option maxRecDepth 2000 in
theorem quiet_swap : ∀ s ∈ swapLines, quietLine s := by
  simp only [swapLines, List.forall_mem_cons]
  refine ⟨?_, ?_, ?_, ?_, ?_, ?_, ?_, ?_, ?_, ?_, ?_, ?_, by simp⟩
  all_goals exact quietLine_of (by decide +kernel)

theorem quiet_middle : ∀ s ∈ backupLines ++ rollbackLines ++ swapLines, quietLine s := by
  intro s hs
  simp only [List.mem_append] at hs
  rcases hs with (hs | hs) | hs
  · exact quiet_backup s hs
  · exact quiet_rollback s hs
  · exact quiet_swap s hs

set_option maxRecDepth 2000 in
theorem quiet_readiness : ∀ s ∈ readinessLines, quietLine s := by
  simp only [readinessLines, List.forall_mem_cons]
  refine ⟨?_, ?_, ?_, ?_, ?_, ?_, ?_, ?_, by simp⟩
  all_goals exact quietLine_of (by decide +kernel)

/-! ## The script as it is read -/

/-- A line as the machine ends it. -/
def ended (newLine : NewLine) (line : Shell.Line) : Shell.Line := line ++ [.text newLine.extra]

theorem toList_buildInstallTransaction (newLine : NewLine) (v : InstallTransaction) :
    (buildInstallTransaction newLine v).toList
      = Shell.script (((installLines v).map (ended newLine)).map Shell.render) := by
  rw [buildInstallTransaction, String.toList_ofList, Shell.script, List.map_map, List.flatMap_map]
  simp [ended, Shell.render, Shell.Piece.render]

theorem quietLine.sound {s : String} (h : quietLine s) (newLine : NewLine) :
    Shell.sound (ended newLine [.text s]) = true := by
  have hq := h newLine
  simp only [quiet, Bool.and_eq_true, Bool.not_eq_true'] at hq
  exact Shell.sound_text hq.1.1 hq.1.2

theorem extra_ordinary (newLine : NewLine) : ∀ c ∈ newLine.extra.toList, Shell.ordinary c = true := by
  apply List.all_eq_true.1
  cases newLine with
  | lf => decide
  | crlf => decide

theorem extra_plain (newLine : NewLine) :
    (Shell.bare newLine.extra.toList).all Shell.Sym.plain = true := by
  cases newLine with
  | lf => decide
  | crlf => decide

theorem isName_variable (v : InstallTransaction) :
    ∀ a ∈ scriptVariables v, Shell.isName a.1.toList = true := by
  simp only [scriptVariables, List.forall_mem_cons]
  refine ⟨?_, ?_, ?_, ?_, ?_, ?_, ?_, ?_, ?_, by simp⟩
  all_goals decide +kernel

/-- Between the values of the installer's line. -/
theorem run_middle : ∃ ts : List Shell.Token, Shell.Token.newline ∉ ts ∧ ∀ ys,
    Shell.run ⟨[], .word ys, false, false⟩ " \"$install\" \"$profile\" ".toList
      = (.start, .word ys :: ts) := by
  rw [String.toList_ofList]
  simp only [Shell.run_blank]
  refine ⟨_, ?_, fun ys => Prod.ext ?_ rfl⟩
  · decide +kernel
  · show (Shell.run .start _).1 = .start
    decide +kernel

/-- And behind them. -/
theorem run_end : ∃ zs : List Shell.Sym, ∀ ys,
    Shell.run ⟨[], .word ys, false, false⟩ " \"$service\"".toList
      = (⟨[], .word zs, false, false⟩, [.word ys]) := by
  rw [String.toList_ofList]
  refine ⟨['$', 's', 'e', 'r', 'v', 'i', 'c', 'e'].map (fun c => ⟨c, .double⟩), fun ys => ?_⟩
  have hrun : Shell.run .start ['"', '$', 's', 'e', 'r', 'v', 'i', 'c', 'e', '"']
      = (⟨[], .word (['$', 's', 'e', 'r', 'v', 'i', 'c', 'e'].map (fun c => ⟨c, .double⟩)), false, false⟩, []) := by
    decide +kernel
  rw [Shell.run_blank, hrun]

/-- The two lines with the installer: blanks end the values in them. -/
theorem run_installer (newLine : NewLine) (v : InstallTransaction) :
    ∀ line ∈ installerLines v, Shell.fits .start (ended newLine line) = true ∧
      ∃ zs out, Shell.runPieces .start (ended newLine line) = (⟨[], .word zs, false, false⟩, out) ∧
        out ≠ [] ∧ Shell.Token.newline ∉ out := by
  have hextra := Shell.run_ordinary (extra_ordinary newLine)
  simp only [installerLines, List.forall_mem_cons, ended, List.cons_append, List.nil_append]
  refine ⟨?_, ?_, by simp⟩
  · have htext : Shell.run .start "chmod 700 ".toList
        = (.start, [.word (Shell.bare ['c', 'h', 'm', 'o', 'd']), .word (Shell.bare ['7', '0', '0'])]) := by
      rw [String.toList_ofList]
      decide +kernel
    simp only [Shell.fits, Shell.runPieces, htext, Shell.State.value, Shell.Pending.add, hextra]
    exact ⟨rfl, _, _, rfl, by simp, by simp⟩
  · obtain ⟨ts, hts, hmiddle⟩ := run_middle
    obtain ⟨zs, hend⟩ := run_end
    simp only [Shell.fits, Shell.runPieces, Shell.State.value, Shell.Pending.add, hmiddle, hend, hextra]
    exact ⟨rfl, _, _, rfl, by simp, by simp [hts]⟩

theorem sound_installer (newLine : NewLine) (v : InstallTransaction) :
    ∀ line ∈ installerLines v, Shell.sound (ended newLine line) = true := by
  intro line hl
  obtain ⟨hfits, zs, out, hrun, -, hout⟩ := run_installer newLine v line hl
  simp [Shell.sound, Shell.meant, hfits, hrun, Shell.Pending.flush, hout]

theorem sound_line (newLine : NewLine) (v : InstallTransaction) :
    ∀ line ∈ installLines v, Shell.sound (ended newLine line) = true := by
  intro line hl
  have hfixed : ∀ {lines : List String}, (∀ s ∈ lines, quietLine s) → line ∈ fixed lines →
      Shell.sound (ended newLine line) = true := by
    intro lines hq hm
    obtain ⟨s, hs, rfl⟩ := List.mem_map.mp hm
    exact (hq s hs).sound newLine
  simp only [installLines, List.mem_append] at hl
  rcases hl with (((hl | hl) | hl) | hl) | hl
  · exact hfixed quiet_first hl
  · obtain ⟨a, ha, rfl⟩ := List.mem_map.mp hl
    exact Shell.sound_assign (isName_variable v a ha) (extra_ordinary newLine) a.2
  · exact hfixed quiet_middle hl
  · exact sound_installer newLine v line hl
  · exact hfixed quiet_readiness hl

/-- The script is read line by line, each as it was ended. -/
theorem readScript_build (newLine : NewLine) (v : InstallTransaction) :
    Shell.readScript (buildInstallTransaction newLine v).toList
      = (installLines v).map (fun line => Shell.meant (ended newLine line)) := by
  rw [toList_buildInstallTransaction, Shell.readScript_render, List.map_map]
  · rfl
  · intro full hfull
    obtain ⟨line, hl, rfl⟩ := List.mem_map.mp hfull
    exact sound_line newLine v line hl

/-! ## The variables -/

theorem assigned_append (name : String) (as bs : List (List Shell.Token)) :
    Shell.assigned name (as ++ bs) = Shell.assigned name as ++ Shell.assigned name bs := by
  simp [Shell.assigned, List.filterMap_append]

/-- The fixed lines assign none of the variables. -/
theorem assigned_fixed {lines : List String} (h : ∀ s ∈ lines, quietLine s) (newLine : NewLine)
    {name : String} (hn : name ∈ variableNames) :
    Shell.assigned name ((fixed lines).map (fun line => Shell.meant (ended newLine line))) = [] := by
  rw [Shell.assigned, List.filterMap_eq_nil_iff]
  intro a ha
  obtain ⟨ts, hts, hassign⟩ := List.mem_filterMap.mp ha
  simp only [fixed, List.map_map, List.mem_map] at hts
  obtain ⟨s, hs, rfl⟩ := hts
  have hq := h s hs newLine
  have hmeant : Shell.meant (ended newLine [.text s])
      = Shell.tokens (s.toList ++ newLine.extra.toList) := Shell.meant_text s newLine.extra
  simp only [Function.comp_apply, hmeant] at hassign
  simp only [quiet, hassign, Bool.and_eq_true, Bool.not_eq_true'] at hq
  apply if_neg
  intro hname
  have hmem : a.1 ∈ variableNames.map String.toList := hname ▸ List.mem_map_of_mem hn
  rw [List.contains_iff_mem.mpr hmem] at hq
  cases hq.2

/-- Nor do those with the installer. -/
theorem assigned_installer (newLine : NewLine) (v : InstallTransaction) (name : String) :
    Shell.assigned name ((installerLines v).map (fun line => Shell.meant (ended newLine line))) = [] := by
  have hnone : ∀ line ∈ installerLines v,
      Shell.lineAssignment (Shell.meant (ended newLine line)) = none := by
    intro line hl
    obtain ⟨-, zs, out, hrun, hne, -⟩ := run_installer newLine v line hl
    rw [Shell.meant, hrun]
    -- a line of more than one word is no assignment
    cases out with
    | nil => exact absurd rfl hne
    | cons token rest =>
      cases rest with
      | nil => cases token <;> rfl
      | cons _ _ => cases token <;> rfl
  have hassign : ((installerLines v).map (fun line => Shell.meant (ended newLine line))).filterMap
      Shell.lineAssignment = [] := by
    rw [List.filterMap_map, List.filterMap_eq_nil_iff]
    exact hnone
  rw [Shell.assigned, hassign, List.filterMap_nil]

theorem filterMap_key {l : List (String × String)} (hd : (l.map Prod.fst).Nodup) {a : String × String}
    (ha : a ∈ l) {β : Type} (g : String × String → β) :
    l.filterMap (fun b => if b.1.toList = a.1.toList then some (g b) else none) = [g a] := by
  induction l with
  | nil => cases ha
  | cons b l ih =>
    rw [List.map_cons, List.nodup_cons] at hd
    rcases List.mem_cons.mp ha with rfl | ha
    · have hrest : l.filterMap (fun b => if b.1.toList = a.1.toList then some (g b) else none) = [] := by
        rw [List.filterMap_eq_nil_iff]
        intro c hc
        apply if_neg
        intro heq
        exact hd.1 (List.mem_map.mpr ⟨c, hc, String.toList_injective heq⟩)
      simp [hrest]
    · have hne : b.1.toList ≠ a.1.toList := by
        intro heq
        exact hd.1 (List.mem_map.mpr ⟨a, ha, (String.toList_injective heq).symm⟩)
      rw [List.filterMap_cons]
      simp only [hne, if_false]
      exact ih hd.2 ha

/-- What is assigned on either kind of machine. -/
theorem assigned_build (newLine : NewLine) (v : InstallTransaction) :
    ∀ a ∈ scriptVariables v,
      Shell.assigned a.1 (Shell.readScript (buildInstallTransaction newLine v).toList)
        = [some (a.2 ++ newLine.extra)] := by
  intro a ha
  have hnames : (scriptVariables v).map Prod.fst = variableNames := rfl
  have hn : a.1 ∈ variableNames := hnames ▸ List.mem_map_of_mem ha
  have hfirst := assigned_fixed quiet_first newLine hn
  have hmiddle := assigned_fixed quiet_middle newLine hn
  have hready := assigned_fixed quiet_readiness newLine hn
  have hinstaller := assigned_installer newLine v a.1
  have hassign : ((assignmentLines v).map (fun line => Shell.meant (ended newLine line))).filterMap
      Shell.lineAssignment = (scriptVariables v).map (fun a =>
        (a.1.toList, Shell.quotedSyms a.2.toList ++ Shell.bare newLine.extra.toList)) := by
    rw [assignmentLines, List.map_map, List.filterMap_map, ← List.filterMap_eq_map]
    apply List.filterMap_congr
    intro b hb
    exact Shell.lineAssignment_assign (isName_variable v b hb) (extra_ordinary newLine) b.2
  have hvalue : Shell.assigned a.1 ((assignmentLines v).map (fun line => Shell.meant (ended newLine line)))
      = [some (a.2 ++ newLine.extra)] := by
    rw [Shell.assigned, hassign, List.filterMap_map]
    have hdistinct : ((scriptVariables v).map Prod.fst).Nodup := by
      rw [hnames]
      decide +kernel
    have hkey := filterMap_key hdistinct ha
      (fun b => Shell.literal (Shell.quotedSyms b.2.toList ++ Shell.bare newLine.extra.toList))
    rw [Shell.literal_value a.2 (extra_plain newLine)] at hkey
    exact hkey
  rw [readScript_build, installLines]
  simp only [List.map_append, assigned_append, hfirst, hmiddle, hready, hinstaller, hvalue]
  rfl

/-! ## The claim of the installer -/

theorem meant_ended_lf (line : Shell.Line) : Shell.meant (ended .lf line) = Shell.meant line := by
  have hrun : ∀ (line : Shell.Line) (s : Shell.State),
      Shell.runPieces s (line ++ [.text ""]) = Shell.runPieces s line := by
    intro line
    induction line with
    | nil => intro s; rfl
    | cons p ps ih =>
      intro s
      cases p with
      | text t => simp only [List.cons_append, Shell.runPieces, ih]
      | value x => simp only [List.cons_append, Shell.runPieces, ih]
  rw [Shell.meant, ended, NewLine.extra, hrun, Shell.meant]

/-- From a machine with the other line end every variable carries a carriage return. -/
theorem not_readAsMeant_crlf (request : DeploymentRequest) (v : InstallTransaction) :
    ¬ReadAsMeant v (rootShell request (buildInstallTransaction .crlf v)) := by
  intro h
  obtain ⟨script, hscript, hassigned, -⟩ := h
  rw [remoteScript_rootShell, Option.some.injEq] at hscript
  subst hscript
  have hmeant := hassigned ("service", v.service) List.mem_cons_self
  rw [assigned_build .crlf v _ List.mem_cons_self] at hmeant
  have hlength := congrArg String.length (Option.some.inj (List.cons.inj hmeant).1)
  simp [NewLine.extra] at hlength

/-- For every accepted request the node reads the script as it is meant exactly when
it was built on a machine whose lines end with a line feed. -/
theorem install_script_read_iff (m : LocalMachine) (request : DeploymentRequest)
    (profile : NetworkProfile) (secret : String) (guid : Guid) (v : InstallTransaction)
    (newLine : NewLine) (_h : prepare m request profile secret guid = .ok v) :
    ReadAsMeant v (rootShell request (buildInstallTransaction newLine v)) ↔ newLine = .lf := by
  cases newLine with
  | crlf =>
    constructor
    · intro hread
      exact absurd hread (not_readAsMeant_crlf request v)
    · intro hne
      cases hne
  | lf =>
    refine ⟨fun _ => rfl, fun _ => ⟨_, remoteScript_rootShell request _, ?_, ?_⟩⟩
    · intro a ha
      rw [assigned_build .lf v a ha]
      simp [NewLine.extra]
    · rw [readScript_build]
      simp only [meant_ended_lf]

theorem install_script_read_linux :
    prepare managerMachine managerRequest managerProfile "correct horse" 0 = .ok managerTransaction ∧
      ReadAsMeant managerTransaction
        (rootShell managerRequest (buildInstallTransaction .lf managerTransaction)) :=
  ⟨managerRequest_accepted, (install_script_read_iff managerMachine managerRequest managerProfile
    "correct horse" 0 managerTransaction .lf managerRequest_accepted).mpr rfl⟩

/-- Built on Windows, the script installs to a directory whose name ends with a
carriage return. -/
theorem install_script_garbled :
    prepare managerMachine managerRequest managerProfile "correct horse" 0 = .ok managerTransaction ∧
      Shell.assigned "install" (Shell.readScript (buildInstallTransaction .crlf managerTransaction).toList)
        = [some "/opt/easytier-host\r"] ∧
      ¬ReadAsMeant managerTransaction
        (rootShell managerRequest (buildInstallTransaction .crlf managerTransaction)) := by
  refine ⟨managerRequest_accepted, ?_, not_readAsMeant_crlf managerRequest managerTransaction⟩
  have hassigned := assigned_build .crlf managerTransaction ("install", managerTransaction.install)
    (by simp [scriptVariables])
  rw [hassigned]
  rfl

end LinuxRemoteInstaller

end EasyTierHost
