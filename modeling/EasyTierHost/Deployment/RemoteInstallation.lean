import EasyTierHost.Deployment.RemoteBackup

/- The install scripts as the node runs them: bash with `set -e` and an ERR trap
   (LinuxRemoteInstaller.cs), PowerShell with `$ErrorActionPreference='Stop'` and
   try/catch (WindowsRemoteInstaller.cs). One command of a script fails; the tests in
   conditions are answered by the node, and the programs a script calls do to the file
   tree what they do. Modes and owners are no part of the tree, so `chmod` and
   `icacls` change nothing. The commands of a rollback succeed.

   Both scripts move the three things they replace to their backups before the trap is
   armed or the `try` is entered: if the second or third move fails, what was moved
   before it stays at its backup. It fails by itself when what it moves lay inside
   something that was moved before. The Windows script also deletes the backups inside
   the `try`. -/
namespace EasyTierHost
open Effects

/-- A node: how paths lead, the answers to the tests of a script, and what the
programs it calls do. -/
structure RemoteHost where
  resolve : String → RemotePath
  /-- The service is registered. -/
  listed : Bool
  /-- It has to be stopped. -/
  active : Bool
  /-- There is a journal in the state directory. -/
  journals : Bool
  /-- The same two in the rollback. -/
  activeAfter : Bool
  journalsAfter : Bool
  /-- The package brought the scripts that are looked for. -/
  scripts : Bool
  /-- The directory of the secret is not that of the profile. -/
  separateSecret : Bool
  /-- The answers of `easytier-host ready`. -/
  ready : Nat → Bool
  stop : RemoteTree → RemoteTree
  recover : RemoteTree → RemoteTree
  start : RemoteTree → RemoteTree
  ensureRuntime : RemoteTree → RemoteTree
  setSecret : RemoteTree → RemoteTree
  installService : RemoteTree → RemoteTree

/-- Stopping, recovering and starting the service change nothing of the three and of
the backups; the installation leaves a backup where nothing else is placed. -/
structure RemoteHost.Keeps (host : RemoteHost) (l : RemoteLayout) : Prop where
  stop_path : ∀ o, Leaves (l.path o) host.stop
  stop_backup : ∀ o, Leaves (l.backup o) host.stop
  recover_path : ∀ o, Leaves (l.path o) host.recover
  recover_backup : ∀ o, Leaves (l.backup o) host.recover
  start_path : ∀ o, Leaves (l.path o) host.start
  ensureRuntime : ∀ o, (∀ o', Apart (l.path o') (l.backup o)) → Leaves (l.backup o) host.ensureRuntime
  setSecret : ∀ o, (∀ o', Apart (l.path o') (l.backup o)) → Leaves (l.backup o) host.setSecret
  installService : ∀ o, (∀ o', Apart (l.path o') (l.backup o)) → Leaves (l.backup o) host.installService

section Poll
variable {C : Type} [DecidableEq C] (failing : C) (pause : Nat → C) (host : RemoteHost)

variable {failing pause host} {I : RemoteTree → Prop} {P : Prop}

end Poll

section Rollback
variable {C : Type} (undoStop undoRecover undoStage undoStart : C) (undo : Replaced → C)
  (present : Replaced → Option (Node (List UInt8)) → Bool) (host : RemoteHost) (l : RemoteLayout)
  (had : Replaced → Bool) (startAgain : Bool)

variable {undoStop undoRecover undoStage undoStart undo present host l had startAgain} {t : RemoteTree}
  {J : RemoteTree → Prop} {X : Unit → RemoteTree → Prop}

end Rollback

section SparesBackups
variable {l : RemoteLayout} {had : Replaced → Bool}

end SparesBackups

/-! ## Removing old backups -/

/-- The three are as they were, and there is no backup that was not there. -/
structure OldBackupsCleared (l : RemoteLayout) (t t' : RemoteTree) : Prop where
  same : l.Restored t t'
  absent : ∀ o, t (l.backup o) = none → ∀ r, t' (l.backup o ++ r) = none

namespace OldBackupsCleared
variable {l : RemoteLayout} {t t' : RemoteTree}

theorem refl (ht : l.Initial t) : OldBackupsCleared l t t := ⟨fun _ _ => rfl, fun _ h => ht.closed.below_none h⟩

theorem keep {f : RemoteTree → RemoteTree} (h : OldBackupsCleared l t t') (hp : ∀ o, Leaves (l.path o) f)
    (hb : ∀ o, Leaves (l.backup o) f) : OldBackupsCleared l t (f t') where
  same := h.same.keep hp
  absent o ho r := by
    rw [hb o t' r]
    exact h.absent o ho r

/-- A backup is removed that is none of the three. -/
theorem remove (ht : l.Initial t) (h : OldBackupsCleared l t t') {o' : Replaced} (hc : l.ClearsApart t o') :
    OldBackupsCleared l t (remove (l.backup o') t') where
  same o r := by
    cases ho : l.has t o with
    | false =>
      rw [ht.absent ho r]
      exact remove_none ((h.same o r).trans (ht.absent ho r))
    | true =>
      cases hold : t (l.backup o') with
      | some n =>
        rw [Leaves.remove (hc o ho (by simp [hold])) t' r]
        exact h.same o r
      | none =>
        -- there is nothing to remove
        rw [remove_of_none (h.absent o' hold)]
        exact h.same o r
  absent o ho r := remove_none (h.absent o ho r)

/-- A backup that is there was there before. -/
theorem old (h : OldBackupsCleared l t t') {o : Replaced} (hsome : (t' (l.backup o)).isSome = true) :
    (t (l.backup o)).isSome = true := by
  by_contra hne
  have hnone := h.absent o (by simpa using hne) []
  rw [List.append_nil] at hnone
  rw [hnone] at hsome
  cases hsome

end OldBackupsCleared

/-! ## The Linux script -/

inductive LinuxCommand where
  | sayForeign | stopService | chmodHost | recoverNetwork | clearInstallBackup | clearFileBackups
  | backUp (o : Replaced)
  | makeDirectories | protectDirectories | moveIncoming | chmodPrograms | chmodScripts | copyProfile
  | protectProfile | ensureRuntime | exportRuntime | setSecret | removeStagedSecret | protectSecret
  | chmodInstaller | runInstaller | countRounds | pause (round : Nat) | sayNotReady
  | deleteInstallBackup | deleteFileBackups | deleteStage
  | undoStop | undoRecover | undo (o : Replaced) | undoStage | undoStart
  deriving DecidableEq, Repr

namespace LinuxCommand

/-- The commands of the last line. -/
def final : LinuxCommand → Bool
  | deleteInstallBackup | deleteFileBackups | deleteStage => true
  | _ => false

end LinuxCommand

section Linux
variable (host : RemoteHost) (l : RemoteLayout) (failing : LinuxCommand)

variable {host l failing} {had : Replaced → Bool} {t : RemoteTree} {Q X : Unit → RemoteTree → Prop}

end Linux

section Moves
variable {C : Type} [DecidableEq C] {failing : C} {moveToBackup : Replaced → C} {l : RemoteLayout}
  {t t' : RemoteTree} (ht : l.Initial t) {Q X : Unit → RemoteTree → Prop}
include ht

end Moves

section LinuxAtomic
variable (host : RemoteHost) (l : RemoteLayout) (t : RemoteTree) (failing : LinuxCommand)

variable {host l t failing} (hk : host.Keeps l) (ht : l.Initial t) {Q X : Unit → RemoteTree → Prop}
include ht

include hk

end LinuxAtomic

/-! ## The Windows script -/

inductive WindowsCommand where
  | stopService | awaitStopped | recoverNetwork | clearBackup (o : Replaced)
  | backUp (o : Replaced)
  | makeInstallParent | splitProfile | splitSecret | makeProfileDirectory | makeSecretDirectory
  | protectProfileDirectory | protectSecretDirectory | moveIncoming | copyProfile | joinHost
  | joinRuntime | ensureRuntime | setSecret | removeStagedSecret | runInstaller | pause (round : Nat)
  | deleteBackup (o : Replaced) | deleteStage
  | undoStop | undoRecover | undo (o : Replaced) | undoStage | undoStart
  deriving DecidableEq, Repr

namespace WindowsCommand

/-- The last line that deletes a backup, and what comes after it. -/
def final : WindowsCommand → Bool
  | deleteBackup .secret | deleteStage => true
  | _ => false

end WindowsCommand

section RemoveBackups
variable {C : Type} [DecidableEq C] (failing : C) (name : Replaced → C) (l : RemoteLayout)

variable {failing name l} {t : RemoteTree} {X : Unit → RemoteTree → Prop}

end RemoveBackups

section Windows
variable (host : RemoteHost) (l : RemoteLayout) (failing : WindowsCommand)

variable {host l failing} {had : Replaced → Bool} {t : RemoteTree} {Q X : Unit → RemoteTree → Prop}

end Windows

section WindowsAtomic
variable (host : RemoteHost) (l : RemoteLayout) (t : RemoteTree) (failing : WindowsCommand)

variable {host l t failing} (hk : host.Keeps l) (ht : l.Initial t) {Q X : Unit → RemoteTree → Prop}

include hk ht

end WindowsAtomic

/-! ## Both installers -/

end EasyTierHost
