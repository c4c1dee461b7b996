import EasyTierHost.Core.Configuration
import EasyTierHost.Text.Encoding

/- The way of a network secret to a remote node. DeploymentProfileMaterial.cs checks
   it and writes it in UTF-8 to a file that is copied to the node; there the install
   script gives the file to `easytier-host set-secret`, which stores the first line
   of its standard input. On Linux the file is the standard input. On Windows the
   script reads the file with `Get-Content` and pipes the text on; neither takes
   part in UTF-8 unless it is told to. -/
namespace EasyTierHost
open Text

namespace DeploymentProfileMaterial

/-- The checks of `CreateAsync` on the secret. -/
def checkSecret (secret : String) : Except Err Unit :=
  if isNullOrWhiteSpace secret then .error (.host "ETH003" "Network secret is empty")
  else if secret.toList.any (fun c => c == '\r' || c == '\n' || c == '\x00') then
    .error (.host "ETH003" "Network secret must be a single line for remote provisioning")
  else .ok ()

/-- The plaintext file that `CreateAsync` writes: UTF-8 without a mark. -/
def create (secret : String) : Except Err Bytes :=
  (checkSecret secret).map (fun _ => utf8 secret.toList)

end DeploymentProfileMaterial

namespace Program

/-- `set-secret`: the secret it stores, given the text of its standard input. -/
def setSecret (input : List Char) : Except Err String :=
  match readLine input with
  | none => .error (.host "ETH003" "Secret is empty")
  | some line =>
    if isNullOrWhiteSpace (String.ofList line) then .error (.host "ETH003" "Secret is empty")
    else .ok (String.ofList line)

end Program

/-! ## The remote side -/

/-- Windows as the install script finds it: the ANSI code page, the code page of the
console's input, and what is made of a file that begins with a mark. -/
structure WindowsText where
  ansi : CodePage
  console : CodePage
  marked : Bytes → List Char

namespace WindowsText

/-- The marks `Get-Content` looks for. -/
def byteOrderMarks : List Bytes := [[0xef, 0xbb, 0xbf], [0xff, 0xfe], [0xfe, 0xff]]

/-- `Get-Content -LiteralPath $stagedSecret -Raw`. -/
def getContent (m : WindowsText) (file : Bytes) : List Char :=
  if byteOrderMarks.any (fun mark => mark.isPrefixOf file) then m.marked file else m.ansi.decode file

/-- The standard input of a program that text is piped to: the text and a line end,
in the encoding of `$OutputEncoding`, which the script does not set. -/
def pipe (m : WindowsText) (text : List Char) : List Char :=
  m.console.decode (usAscii (text ++ ['\r', '\n']))

end WindowsText

/-- What the install script makes of the staged file on either system. -/
def provision (m : WindowsText) (malformed : Bytes → List Char) (target : ServerOsType)
    (file : Bytes) : Except Err String :=
  Program.setSecret (match target with
    | .linux => utf8Decode malformed file
    | .windows => m.pipe (m.getContent file))

/-! ## The round trip -/

/-- An accepted secret. -/
structure Provisionable (secret : String) : Prop where
  text : isNullOrWhiteSpace secret = false
  line : ∀ c ∈ secret.toList, lineEnd c = false

theorem create_ok {secret : String} {file : Bytes}
    (h : DeploymentProfileMaterial.create secret = .ok file) :
    Provisionable secret ∧ file = utf8 secret.toList := by
  unfold DeploymentProfileMaterial.create DeploymentProfileMaterial.checkSecret at h
  split at h
  next => cases h
  next hblank =>
    split at h
    next => cases h
    next hline =>
      cases h
      refine ⟨⟨by simpa using hblank, ?_⟩, rfl⟩
      intro c hc
      have hall : ∀ x ∈ secret.toList, (¬x = '\r' ∧ ¬x = '\n') ∧ ¬x = '\x00' := by
        simpa using hline
      simp [lineEnd, (hall c hc).1]

theorem Provisionable.ne_nil {secret : String} (h : Provisionable secret) : secret.toList ≠ [] := by
  intro hnil
  have hb := h.text
  rw [isNullOrWhiteSpace, hnil] at hb
  cases hb

/-- A secret that is the first line of the input is stored. -/
theorem setSecret_ok {secret : String} (h : Provisionable secret) {input : List Char}
    (hr : readLine input = some secret.toList) : Program.setSecret input = .ok secret := by
  rw [Program.setSecret, hr]
  simp [h.text]

/-- What is stored is the first line. -/
theorem readLine_of_setSecret {secret : String} {input : List Char}
    (h : Program.setSecret input = .ok secret) : readLine input = some secret.toList := by
  unfold Program.setSecret at h
  split at h
  next => cases h
  next line hr =>
    split at h
    next => cases h
    next =>
      cases h
      simp [hr]

/-- US-ASCII text begins with no mark. -/
theorem byteOrderMarks_ascii {cs : List Char} (h : ∀ c ∈ cs, ascii c = true) :
    WindowsText.byteOrderMarks.any (fun mark => mark.isPrefixOf (utf8 cs)) = false := by
  rw [utf8_ascii h]
  cases cs with
  | nil => decide
  | cons c cs =>
    -- the first byte of every mark is above 127
    have hlow := asciiByte_lt (h c List.mem_cons_self)
    have hne : ∀ b : UInt8, 128 ≤ b.toNat → (b == asciiByte c) = false := by
      intro b hb
      rw [beq_eq_false_iff_ne]
      intro heq
      rw [heq] at hb
      omega
    simp [WindowsText.byteOrderMarks, List.isPrefixOf, hne]

/-- On Windows US-ASCII text goes through. -/
theorem pipe_getContent (m : WindowsText) {cs : List Char} (h : ∀ c ∈ cs, ascii c = true) :
    m.pipe (m.getContent (utf8 cs)) = cs ++ ['\r', '\n'] := by
  have hmark := byteOrderMarks_ascii h
  have hline : ∀ c ∈ cs ++ ['\r', '\n'], ascii c = true := by
    intro c hc
    cases List.mem_append.mp hc with
    | inl hc =>
      exact h c hc
    | inr hc =>
      have hend : ['\r', '\n'].all ascii = true := by decide
      exact List.all_eq_true.1 hend c hc
  rw [WindowsText.getContent, hmark, if_neg (by simp), utf8_ascii h, m.ansi.decode_text h,
    WindowsText.pipe, usAscii_text hline, m.console.decode_text hline]

/-- A secret arrives as it was exactly when the node runs Linux or the secret is
US-ASCII. -/
theorem secret_provisioned_iff (m : WindowsText) (malformed : Bytes → List Char)
    (target : ServerOsType) (secret : String) (file : Bytes)
    (h : DeploymentProfileMaterial.create secret = .ok file) :
    provision m malformed target file = .ok secret ↔
      target = .linux ∨ ∀ c ∈ secret.toList, ascii c = true := by
  obtain ⟨hs, rfl⟩ := create_ok h
  cases target with
  | linux =>
    have hread : readLine (utf8Decode malformed (utf8 secret.toList)) = some secret.toList := by
      rw [utf8Decode_utf8]
      exact readLine_line hs.line hs.ne_nil
    simp [provision, setSecret_ok hs hread]
  | windows =>
    constructor
    · intro hp
      right
      intro c hc
      -- whatever was read, it left the pipe as US-ASCII
      have hread := readLine_of_setSecret hp
      exact m.console.ascii_decode (usAscii_lt _) c (mem_readLine hread hc)
    · intro hascii
      have hascii := hascii.resolve_left (by decide)
      apply setSecret_ok hs
      rw [pipe_getContent m hascii]
      exact readLine_ended hs.line (by decide) _

/-- A Windows whose code pages are Latin-1. -/
def latinWindows : WindowsText where
  ansi := ⟨fun b => b.map byteChar, fun _ _ => rfl⟩
  console := ⟨fun b => b.map byteChar, fun _ _ => rfl⟩
  marked := fun b => b.map byteChar

theorem secret_provisioned_home :
    DeploymentProfileMaterial.create "correct horse" = .ok (utf8 "correct horse".toList) ∧
      provision latinWindows (fun _ => []) .windows (utf8 "correct horse".toList)
        = .ok "correct horse" :=
  have h : DeploymentProfileMaterial.create "correct horse" = .ok (utf8 "correct horse".toList) := rfl
  ⟨h, (secret_provisioned_iff latinWindows (fun _ => []) .windows "correct horse" _ h).mpr
    (.inr (List.all_eq_true.1 (by decide +kernel)))⟩

/-- The umlaut of an accepted secret reaches a Windows node as two question marks. -/
theorem secret_mangled :
    DeploymentProfileMaterial.create "Schlüssel" = .ok (utf8 "Schlüssel".toList) ∧
      provision latinWindows (fun _ => []) .windows (utf8 "Schlüssel".toList)
        = .ok "Schl??ssel" ∧ "Schl??ssel" ≠ "Schlüssel" := by
  refine ⟨rfl, rfl, by decide +kernel⟩

end EasyTierHost
