import EasyTierHost.Text.Encoding
import EasyTierHost.Text.Paths

/- The integrity of a package (ArtifactManifest.cs and `ValidatePackageIntegrityAsync` of
   DeploymentService.cs). The entries of the manifest are opened by the paths they
   give; the set of these paths is then compared with the set of the files' paths,
   ignoring letter case and taking both slashes for one; the manifest itself is left
   out of the files by comparing its full path, again ignoring case.

   So an entry stands for every file whose path reads like its own, and vouches for the
   one it opens. `Unambiguous` says that these are the same file. A file system may
   fold names (`fold`); what the runtime takes for the same letter (`toUpper`) is its
   own matter. -/
namespace EasyTierHost
open Text

/-- `ArtifactEntry`. -/
structure ArtifactEntry where
  path : String
  length : Int
  sha256 : String
  deriving DecidableEq, Repr

def manifestName : Name := "artifact-manifest.json".toList

/-- A package directory and the file system it is on. -/
structure Package where
  rules : PathRules
  /-- The upper case that `OrdinalIgnoreCase` compares. -/
  toUpper : Char → Char
  /-- Names that are folded to the same name open the same. -/
  fold : Name → Name
  /-- `Path.GetFullPath(packageRoot)`. -/
  root : List Name
  /-- The files of the tree without the manifest, from the root. -/
  files : List (List Name)
  /-- How the directory spells the name of the manifest. -/
  spelling : Name
  /-- The files of the file system by their folded full paths. -/
  contents : List Name → Option Bytes
  /-- SHA-256 in lower-case digits. -/
  hash : Bytes → List Char
  valid : ∀ f ∈ files, f ≠ [] ∧ ∀ n ∈ f, rules.valid n = true
  readable : ∀ f ∈ files, (contents ((root ++ f).map fold)).isSome = true
  distinct : ∀ f ∈ files, ∀ g ∈ files, f.map fold = g.map fold → f = g
  noManifest : ∀ f ∈ files, f.map fold ≠ [fold manifestName]
  spelled : spelling.map toUpper = manifestName.map toUpper

namespace Package
variable (p : Package)

/-- `StringComparison.OrdinalIgnoreCase`. -/
def sameIgnoringCase (a b : List Char) : Bool := a.map p.toUpper == b.map p.toUpper

def manifestPath : List Name := p.root ++ [manifestName]

/-- What a full path opens. -/
def read (manifest : Bytes) (path : List Name) : Option Bytes :=
  if path.map p.fold = p.manifestPath.map p.fold then some manifest else p.contents (path.map p.fold)

/-- `path.Replace('/', Path.DirectorySeparatorChar)`. -/
def native (path : List Char) : List Char := path.map (fun c => if c = '/' then p.rules.separator else c)

/-- `Path.GetFullPath(Path.Combine(root, relative))`. -/
def fullPath (path : List Char) : List Name := p.rules.full p.root (p.native path)

/-- The file of an entry; `File.Exists` finds none at the end of a directory. -/
def openEntry (manifest : Bytes) (path : List Char) : Option Bytes :=
  if p.rules.trailing (p.native path) then none else p.read manifest (p.fullPath path)

/-- The check that a manifest path does not escape the root. -/
def inRoot (path : List Name) : Bool :=
  p.sameIgnoringCase ((p.rules.text path).take (p.rules.text p.root).length.succ)
    (p.rules.text p.root ++ [p.rules.separator])

/-- `ArtifactManifest.ValidateAsync`, of one entry. -/
def validateEntry (manifest : Bytes) (entry : ArtifactEntry) : Bool :=
  p.inRoot (p.fullPath entry.path.toList) &&
    match p.openEntry manifest entry.path.toList with
    | none => false
    | some b => (b.length : Int) == entry.length && p.sameIgnoringCase (p.hash b) entry.sha256.toList

/-- `path.Replace('\\', '/')`. -/
def slashed (path : List Char) : List Char := path.map (fun c => if c = '\\' then '/' else c)

/-- `Path.GetRelativePath(root, file)`. -/
def relative (f : List Name) : List Char := joinNames p.rules.separator f

/-- Whether a file is left out as the manifest. -/
def excluded (f : List Name) : Bool :=
  p.sameIgnoringCase (p.rules.text (p.root ++ f)) (p.rules.text p.manifestPath)

def expected (entries : List ArtifactEntry) : List (List Char) :=
  entries.map (fun e => slashed e.path.toList)

def actual : List (List Char) :=
  ((p.files ++ [[p.spelling]]).filter (fun f => !p.excluded f)).map (fun f => slashed (p.relative f))

/-- `SetEquals`, ignoring case. -/
def setEquals (as bs : List (List Char)) : Bool :=
  as.all (fun a => bs.any (fun b => p.sameIgnoringCase a b)) &&
    bs.all (fun b => as.any (fun a => p.sameIgnoringCase a b))

/-- `ValidatePackageIntegrityAsync`: the code and the message of a failure. The manifest
is given by its bytes and by what the JSON reader makes of them. -/
def validateIntegrity (manifest : Option (Bytes × Option (List ArtifactEntry))) :
    Option (String × String) :=
  match manifest with
  | none => some ("ETH403", "Package manifest is missing")
  | some (_, none) => some ("ETH403", "Package integrity validation failed")
  | some (bytes, some entries) =>
    if !entries.all (p.validateEntry bytes) then some ("ETH403", "Package integrity validation failed")
    else if !p.setEquals (expected entries) p.actual then
      some ("ETH403", "Package contains unmanifested or missing files")
    else none

/-! ## When it is sound -/

/-- A path that reads like that of a file. -/
def ReadsLike (path : List Char) (f : List Name) : Prop :=
  p.sameIgnoringCase (slashed path) (slashed (p.relative f)) = true

/-- Every file of the tree has an entry with its path, which leads to it, and its length
and hash are those of the entry. -/
def Vouched (bytes : Bytes) (entries : List ArtifactEntry) : Prop :=
  ∀ f ∈ p.files, ∃ e ∈ entries, p.ReadsLike e.path.toList f ∧
    (p.fullPath e.path.toList).map p.fold = (p.root ++ f).map p.fold ∧
    ∃ b, p.read bytes (p.root ++ f) = some b ∧ e.length = b.length ∧
      p.sameIgnoringCase (p.hash b) e.sha256.toList = true

/-- A path that reads like that of a file opens no other file under the root, and no
file is taken for the manifest. -/
structure Unambiguous : Prop where
  opens : ∀ f ∈ p.files, ∀ path, p.ReadsLike path f → p.inRoot (p.fullPath path) = true →
    (p.openEntry [] path).isSome = true → (p.fullPath path).map p.fold = (p.root ++ f).map p.fold
  included : ∀ f ∈ p.files, p.excluded f = false

/-- A path that reads like that of a file opens the manifest. -/
def ManifestTaken : Prop :=
  ∃ f ∈ p.files, ∃ path, p.ReadsLike path f ∧ p.inRoot (p.fullPath path) = true ∧
    ∀ bytes, p.openEntry bytes path = some bytes

variable {p}

theorem read_congr {a b : List Name} (h : a.map p.fold = b.map p.fold) (bytes : Bytes) :
    p.read bytes a = p.read bytes b := by
  rw [read, read, h]

/-- A path opens the manifest, or what it opens does not depend on the manifest. -/
theorem openEntry_cases (path : List Char) :
    (∀ bytes, p.openEntry bytes path = some bytes) ∨
      ∀ bytes, p.openEntry bytes path = p.openEntry [] path := by
  by_cases ht : p.rules.trailing (p.native path) = true
  · right
    intro bytes
    rw [openEntry, openEntry, if_pos ht, if_pos ht]
  · by_cases hm : (p.fullPath path).map p.fold = p.manifestPath.map p.fold
    · left
      intro bytes
      rw [openEntry, if_neg ht, read, if_pos hm]
    · right
      intro bytes
      rw [openEntry, openEntry, if_neg ht, if_neg ht, read, read, if_neg hm, if_neg hm]

theorem openEntry_isSome (bytes : Bytes) (path : List Char) :
    (p.openEntry bytes path).isSome = (p.openEntry [] path).isSome := by
  cases openEntry_cases (p := p) path with
  | inl h =>
    rw [h, h]
    rfl
  | inr h =>
    rw [h]

theorem validateEntry_iff {bytes : Bytes} {e : ArtifactEntry} :
    p.validateEntry bytes e = true ↔ p.inRoot (p.fullPath e.path.toList) = true ∧
      ∃ b, p.openEntry bytes e.path.toList = some b ∧ e.length = b.length ∧
        p.sameIgnoringCase (p.hash b) e.sha256.toList = true := by
  rw [validateEntry, Bool.and_eq_true]
  apply and_congr_right
  intro _
  cases p.openEntry bytes e.path.toList with
  | none => simp
  | some b =>
    simp only [Bool.and_eq_true, beq_iff_eq, Option.some.injEq, exists_eq_left']
    exact and_congr_left (fun _ => eq_comm)

theorem setEquals_iff {as bs : List (List Char)} :
    p.setEquals as bs = true ↔ (∀ a ∈ as, ∃ b ∈ bs, p.sameIgnoringCase a b = true) ∧
      ∀ b ∈ bs, ∃ a ∈ as, p.sameIgnoringCase a b = true := by
  simp only [setEquals, Bool.and_eq_true, List.all_eq_true, List.any_eq_true]

theorem validateIntegrity_iff {bytes : Bytes} {entries : List ArtifactEntry} :
    p.validateIntegrity (some (bytes, some entries)) = none ↔
      (∀ e ∈ entries, p.validateEntry bytes e = true) ∧
        p.setEquals (expected entries) p.actual = true := by
  rw [← List.all_eq_true]
  simp only [validateIntegrity]
  cases entries.all (p.validateEntry bytes) with
  | false => simp
  | true => cases p.setEquals (expected entries) p.actual <;> simp

/-- With no path that reads like another's, what passes is vouched for. -/
theorem Unambiguous.vouched (hu : p.Unambiguous) {bytes : Bytes} {entries : List ArtifactEntry}
    (h : p.validateIntegrity (some (bytes, some entries)) = none) : p.Vouched bytes entries := by
  obtain ⟨hvalid, hset⟩ := validateIntegrity_iff.1 h
  intro f hf
  have hactual : slashed (p.relative f) ∈ p.actual := by
    apply List.mem_map_of_mem
    rw [List.mem_filter, hu.included f hf]
    exact ⟨List.mem_append_left _ hf, rfl⟩
  obtain ⟨a, ha, hsame⟩ := (setEquals_iff.1 hset).2 _ hactual
  obtain ⟨e, he, rfl⟩ := List.mem_map.1 ha
  obtain ⟨hroot, b, hopen, hlength, hhash⟩ := validateEntry_iff.1 (hvalid e he)
  have hsome : (p.openEntry [] e.path.toList).isSome = true := by
    rw [← openEntry_isSome bytes, hopen]
    rfl
  have hpath := hu.opens f hf e.path.toList hsame hroot hsome
  refine ⟨e, he, hsame, hpath, b, ?_, hlength, hhash⟩
  rw [← read_congr hpath]
  rw [openEntry] at hopen
  split at hopen
  · simp at hopen
  · exact hopen

/-! ## What passes otherwise -/

/-- An entry for what a path opens. -/
def entryOf (p : Package) (path : List Char) (b : Bytes) : ArtifactEntry where
  path := String.ofList path
  length := b.length
  sha256 := String.ofList (p.hash b)

/-- The entry of a file, as `CreateAsync` makes it up to the slashes. -/
def listed (p : Package) (f : List Name) : ArtifactEntry :=
  p.entryOf (p.relative f) ((p.contents ((p.root ++ f).map p.fold)).getD [])

/-- A manifest of all files but one, with other entries in its place. -/
def forged (p : Package) (f : List Name) (extra : List ArtifactEntry) : List ArtifactEntry :=
  (p.files.filter (fun g => !p.excluded g && g != f)).map p.listed ++ extra

theorem sameIgnoringCase_refl (a : List Char) : p.sameIgnoringCase a a = true := by
  rw [sameIgnoringCase, beq_self_eq_true]

theorem validateEntry_entryOf {bytes b : Bytes} {path : List Char}
    (hroot : p.inRoot (p.fullPath path) = true) (hopen : p.openEntry bytes path = some b) :
    p.validateEntry bytes (p.entryOf path b) = true := by
  rw [validateEntry_iff, entryOf, String.toList_ofList, String.toList_ofList]
  exact ⟨hroot, b, hopen, rfl, sameIgnoringCase_refl _⟩

theorem native_relative {f : List Name} (hf : f ∈ p.files) : p.native (p.relative f) = p.relative f := by
  have hkeep : ∀ c ∈ p.relative f, (if c = '/' then p.rules.separator else c) = c := by
    intro c hc
    rcases mem_joinNames hc with hs | ⟨n, hn, hcn⟩
    · rw [hs, ite_eq_right_iff]
      exact fun _ => rfl
    · have hslash : c ≠ '/' := by
        intro he
        exact PathRules.slash_notMem ((p.valid f hf).2 n hn) (he ▸ hcn)
      rw [if_neg hslash]
  calc p.native (p.relative f) = (p.relative f).map id := List.map_congr_left hkeep
    _ = p.relative f := List.map_id _

theorem fullPath_relative {f : List Name} (hf : f ∈ p.files) :
    p.fullPath (p.relative f) = p.root ++ f := by
  obtain ⟨hne, hvalid⟩ := p.valid f hf
  rw [fullPath, native_relative hf]
  exact PathRules.full_joinNames hne hvalid p.root

theorem inRoot_append {f : List Name} (hne : f ≠ []) : p.inRoot (p.root ++ f) = true := by
  obtain ⟨n, ns, rfl⟩ := List.exists_cons_of_ne_nil hne
  have htext : p.rules.text (p.root ++ n :: ns) =
      p.rules.text p.root ++ p.rules.separator :: (n ++ p.rules.text ns) := by
    rw [PathRules.text_append]
    rfl
  have htake : (p.rules.text (p.root ++ n :: ns)).take (p.rules.text p.root).length.succ =
      p.rules.text p.root ++ [p.rules.separator] := by
    rw [htext, List.take_append, List.take_of_length_le (Nat.le_succ _)]
    simp
  rw [inRoot, htake]
  exact sameIgnoringCase_refl _

theorem read_file {f : List Name} (hf : f ∈ p.files) (bytes : Bytes) :
    p.read bytes (p.root ++ f) = p.contents ((p.root ++ f).map p.fold) := by
  apply if_neg
  intro he
  rw [manifestPath, List.map_append, List.map_append] at he
  exact p.noManifest f hf (List.append_cancel_left he)

theorem openEntry_relative {f : List Name} (hf : f ∈ p.files) (bytes : Bytes) :
    p.openEntry bytes (p.relative f) = p.contents ((p.root ++ f).map p.fold) := by
  obtain ⟨hne, hvalid⟩ := p.valid f hf
  have ht : p.rules.trailing (p.native (p.relative f)) = false := by
    rw [native_relative hf]
    exact PathRules.trailing_joinNames hne hvalid
  rw [openEntry, ht, fullPath_relative hf]
  exact read_file hf bytes

theorem validateEntry_listed {f : List Name} (hf : f ∈ p.files) (bytes : Bytes) :
    p.validateEntry bytes (p.listed f) = true := by
  obtain ⟨b, hb⟩ := Option.isSome_iff_exists.1 (p.readable f hf)
  apply validateEntry_entryOf
  · rw [fullPath_relative hf]
    exact inRoot_append (p.valid f hf).1
  · rw [openEntry_relative hf, hb]
    rfl

theorem listed_path (f : List Name) : (p.listed f).path.toList = p.relative f := String.toList_ofList

/-- Only its own entry leads to a file. -/
theorem listed_leads {f g : List Name} (hf : f ∈ p.files) (hg : g ∈ p.files)
    (h : (p.fullPath (p.listed g).path.toList).map p.fold = (p.root ++ f).map p.fold) : g = f := by
  rw [listed_path, fullPath_relative hg, List.map_append, List.map_append] at h
  exact p.distinct g hg f hf (List.append_cancel_left h)

theorem excluded_spelling : p.excluded [p.spelling] = true := by
  have htext (n : Name) : (p.rules.text (p.root ++ [n])).map p.toUpper =
      (p.rules.text p.root).map p.toUpper ++ p.toUpper p.rules.separator :: n.map p.toUpper := by
    rw [PathRules.text_append]
    simp [PathRules.text]
  rw [excluded, sameIgnoringCase, manifestPath, htext, htext, p.spelled]
  exact beq_self_eq_true _

theorem mem_actual {t : List Char} :
    t ∈ p.actual ↔ ∃ f ∈ p.files, p.excluded f = false ∧ slashed (p.relative f) = t := by
  rw [actual, List.filter_append]
  simp [excluded_spelling, and_assoc]

/-- A forged manifest passes when what stands in the place of the file reads like it and
is itself right, or when the file is left out. -/
theorem forged_passes {f : List Name} {extra : List ArtifactEntry} {bytes : Bytes}
    (hf : f ∈ p.files) (hvalid : ∀ e ∈ extra, p.validateEntry bytes e = true)
    (hlike : ∀ e ∈ extra, p.ReadsLike e.path.toList f) (hplace : extra = [] ↔ p.excluded f = true) :
    p.validateIntegrity (some (bytes, some (p.forged f extra))) = none := by
  rw [validateIntegrity_iff, setEquals_iff]
  refine ⟨?_, ?_, ?_⟩
  · intro e he
    cases List.mem_append.1 he with
    | inl he =>
      obtain ⟨g, hg, rfl⟩ := List.mem_map.1 he
      exact validateEntry_listed (List.mem_of_mem_filter hg) bytes
    | inr he =>
      exact hvalid e he
  · intro a ha
    obtain ⟨e, he, rfl⟩ := List.mem_map.1 ha
    cases List.mem_append.1 he with
    | inl he =>
      obtain ⟨g, hg, rfl⟩ := List.mem_map.1 he
      rw [List.mem_filter, Bool.and_eq_true, Bool.not_eq_true'] at hg
      refine ⟨slashed (p.relative g), mem_actual.2 ⟨g, hg.1, hg.2.1, rfl⟩, ?_⟩
      rw [listed_path]
      exact sameIgnoringCase_refl _
    | inr he =>
      have hinc : p.excluded f = false := by
        rw [Bool.eq_false_iff, ne_eq, ← hplace]
        exact List.ne_nil_of_mem he
      exact ⟨slashed (p.relative f), mem_actual.2 ⟨f, hf, hinc, rfl⟩, hlike e he⟩
  · intro b hb
    obtain ⟨g, hg, hinc, rfl⟩ := mem_actual.1 hb
    by_cases hgf : g = f
    · have hne : extra ≠ [] := by
        intro hnil
        rw [hplace, ← hgf, hinc] at hnil
        exact Bool.noConfusion hnil
      obtain ⟨e, he⟩ := List.exists_mem_of_ne_nil extra hne
      refine ⟨slashed e.path.toList, List.mem_map_of_mem (List.mem_append_right _ he), ?_⟩
      rw [hgf]
      exact hlike e he
    · have hmem : p.listed g ∈ p.forged f extra := by
        apply List.mem_append_left
        apply List.mem_map_of_mem
        rw [List.mem_filter, hinc]
        exact ⟨hg, by simpa using hgf⟩
      refine ⟨slashed (p.listed g).path.toList, List.mem_map_of_mem hmem, ?_⟩
      rw [listed_path]
      exact sameIgnoringCase_refl _

/-- No entry of a forged manifest leads to the file it passes over. -/
theorem forged_unvouched {f : List Name} {extra : List ArtifactEntry} (bytes : Bytes)
    (hf : f ∈ p.files)
    (hother : ∀ e ∈ extra, (p.fullPath e.path.toList).map p.fold ≠ (p.root ++ f).map p.fold) :
    ¬p.Vouched bytes (p.forged f extra) := by
  intro hv
  obtain ⟨e, he, -, hleads, -⟩ := hv f hf
  cases List.mem_append.1 he with
  | inl he =>
    obtain ⟨g, hg, rfl⟩ := List.mem_map.1 he
    rw [List.mem_filter, Bool.and_eq_true, bne_iff_ne] at hg
    exact hg.2.2 (listed_leads hf hg.1 hleads)
  | inr he =>
    exact hother e he hleads

/-- A file that is taken for the manifest need not be in it. -/
theorem excluded_forged {f : List Name} (hf : f ∈ p.files) (h : p.excluded f = true) (bytes : Bytes) :
    p.validateIntegrity (some (bytes, some (p.forged f []))) = none ∧
      ¬p.Vouched bytes (p.forged f []) := by
  constructor
  · apply forged_passes hf
    · simp
    · simp
    · exact iff_of_true rfl h
  · exact forged_unvouched bytes hf (by simp)

/-- An entry that reads like a file and opens another stands for it. -/
theorem confused_forged {f : List Name} {path : List Char} {bytes b : Bytes} (hf : f ∈ p.files)
    (hinc : p.excluded f = false) (hlike : p.ReadsLike path f)
    (hroot : p.inRoot (p.fullPath path) = true) (hopen : p.openEntry bytes path = some b)
    (hother : (p.fullPath path).map p.fold ≠ (p.root ++ f).map p.fold) :
    p.validateIntegrity (some (bytes, some (p.forged f [p.entryOf path b]))) = none ∧
      ¬p.Vouched bytes (p.forged f [p.entryOf path b]) := by
  have hpath : (p.entryOf path b).path.toList = path := String.toList_ofList
  constructor
  · apply forged_passes hf
    · intro e he
      rw [List.mem_singleton.1 he]
      exact validateEntry_entryOf hroot hopen
    · intro e he
      rw [List.mem_singleton.1 he, hpath]
      exact hlike
    · simp [hinc]
  · apply forged_unvouched bytes hf
    intro e he
    rw [List.mem_singleton.1 he, hpath]
    exact hother

theorem not_unambiguous (h : ¬p.Unambiguous) : (∃ f ∈ p.files, p.excluded f = true) ∨
    ∃ f ∈ p.files, p.excluded f = false ∧ ∃ path, p.ReadsLike path f ∧
      p.inRoot (p.fullPath path) = true ∧ (p.openEntry [] path).isSome = true ∧
      (p.fullPath path).map p.fold ≠ (p.root ++ f).map p.fold := by
  by_cases hex : ∃ f ∈ p.files, p.excluded f = true
  · exact .inl hex
  · right
    have hinc : ∀ f ∈ p.files, p.excluded f = false := by
      intro f hf
      rw [Bool.eq_false_iff]
      exact fun he => hex ⟨f, hf, he⟩
    by_contra hnone
    apply h
    refine ⟨?_, hinc⟩
    intro f hf path hlike hroot hsome
    by_contra hne
    exact hnone ⟨f, hf, hinc f hf, path, hlike, hroot, hsome, hne⟩

/-- The check is sound for a package just if nothing in it is ambiguous. Otherwise, unless
the manifest itself is what a path opens in the place of a file, one list of entries
passes whatever bytes it is written in. -/
theorem integrity_sound_iff (p : Package) :
    ((∀ bytes entries, p.validateIntegrity (some (bytes, some entries)) = none →
        p.Vouched bytes entries) ↔ p.Unambiguous) ∧
      (¬p.Unambiguous → p.ManifestTaken ∨
        ∃ entries, ∀ bytes, p.validateIntegrity (some (bytes, some entries)) = none ∧
          ¬p.Vouched bytes entries) := by
  refine ⟨⟨?_, fun hu _ _ h => hu.vouched h⟩, ?_⟩
  · intro hsound
    by_contra hu
    rcases not_unambiguous hu with ⟨f, hf, hex⟩ | ⟨f, hf, hinc, path, hlike, hroot, hsome, hother⟩
    · obtain ⟨hpass, hnot⟩ := excluded_forged hf hex []
      exact hnot (hsound _ _ hpass)
    · obtain ⟨b, hb⟩ := Option.isSome_iff_exists.1 hsome
      obtain ⟨hpass, hnot⟩ := confused_forged hf hinc hlike hroot hb hother
      exact hnot (hsound _ _ hpass)
  · intro hu
    rcases not_unambiguous hu with ⟨f, hf, hex⟩ | ⟨f, hf, hinc, path, hlike, hroot, hsome, hother⟩
    · exact .inr ⟨_, excluded_forged hf hex⟩
    · obtain ⟨b, hb⟩ := Option.isSome_iff_exists.1 hsome
      cases openEntry_cases (p := p) path with
      | inl hm =>
        exact .inl ⟨f, hf, path, hlike, hroot, hm⟩
      | inr hsame =>
        right
        refine ⟨p.forged f [p.entryOf path b], fun bytes => ?_⟩
        apply confused_forged hf hinc hlike hroot _ hother
        rw [hsame, hb]

/-- Two scripts whose names differ in letter case only, on a file system that tells them apart. -/
def scripts : Package where
  rules := PathRules.unix
  toUpper := Char.toUpper
  fold := id
  root := [['p', 'k', 'g']]
  files := [[['r', 'u', 'n']], [['R', 'U', 'N']]]
  spelling := manifestName
  contents path :=
    if path = [['p', 'k', 'g'], ['r', 'u', 'n']] then some [1]
    else if path = [['p', 'k', 'g'], ['R', 'U', 'N']] then some [2]
    else none
  hash b :=
    if b = [1] then "4bf5122f344554c53bde2ebb8cd2b7e3d1600ad631c385a5d7cce23c7785459a".toList
    else "dbc1b4c900ffe48d575b5da5c638040125f65db0fe3e24494b76ea986457d986".toList
  valid := by decide
  readable := by decide
  distinct := by decide
  noManifest := by decide +kernel
  spelled := rfl

/-- The manifest with an entry for one of the two. -/
def runOnly : List ArtifactEntry :=
  [⟨"run", 1, "4bf5122f344554c53bde2ebb8cd2b7e3d1600ad631c385a5d7cce23c7785459a"⟩]

/-- It passes, and the other script may be anything. -/
theorem integrity_script_unvouched :
    scripts.validateIntegrity (some ([], some runOnly)) = none ∧ ¬scripts.Vouched [] runOnly := by
  constructor
  · decide +kernel
  · intro hv
    obtain ⟨e, he, -, hleads, -⟩ := hv [['R', 'U', 'N']] (by decide)
    rw [List.mem_singleton.1 he] at hleads
    exact absurd hleads (by decide +kernel)

/-! ## Windows -/

/-- Lists of the same letters under one function are so under a coarser one. -/
theorem map_coarsen {u v : Char → Char} (h : ∀ c d, u c = u d → v c = v d) :
    ∀ {as bs : List Char}, as.map u = bs.map u → as.map v = bs.map v
  | [], [], _ => rfl
  | [], _ :: _, he => by simp at he
  | _ :: _, [], he => by simp at he
  | a :: as, b :: bs, he => by
    rw [List.map_cons, List.map_cons, List.cons.injEq] at he
    rw [List.map_cons, List.map_cons, h a b he.1, map_coarsen h he.2]

/-- What the runtime takes for the same letter is what the file system does, and it tells
apart the characters that mean something in a path. -/
structure FoldsCase (p : Package) (drive : List Char → List Name) : Prop where
  rules : p.rules = PathRules.windows drive
  fold : p.fold = List.map p.toUpper
  apart : ∀ c ∈ '.' :: ' ' :: PathRules.reserved, ∀ d, p.toUpper d = p.toUpper c → d = c

section windows
variable {drive : List Char → List Name} (h : p.FoldsCase drive)
include h

theorem FoldsCase.separator : p.rules.separator = '\\' := by
  rw [h.rules]
  rfl

/-- Names of the same letters are names of files too. -/
theorem FoldsCase.valid_of_map {f ms : List Name} (hf : f ∈ p.files)
    (hms : ms.map (List.map p.toUpper) = f.map (List.map p.toUpper)) :
    ms ≠ [] ∧ ∀ m ∈ ms, p.rules.valid m = true := by
  obtain ⟨hne, hvalid⟩ := p.valid f hf
  constructor
  · intro hnil
    rw [hnil, List.map_nil, eq_comm, List.map_eq_nil_iff] at hms
    exact hne hms
  · intro m hm
    have hmem : m.map p.toUpper ∈ f.map (List.map p.toUpper) := hms ▸ List.mem_map_of_mem hm
    obtain ⟨n, hn, hnm⟩ := List.mem_map.1 hmem
    have hnv := hvalid n hn
    rw [h.rules] at hnv ⊢
    exact PathRules.windowsName_of_map h.apart hnm.symm hnv

/-- Both slashes are separators there, so a path that reads like a file's has its names. -/
theorem FoldsCase.native_of_readsLike {f : List Name} {path : List Char} (hf : f ∈ p.files)
    (hlike : p.ReadsLike path f) : (p.native path).map p.toUpper = (p.relative f).map p.toUpper := by
  have hnative : ∀ t : List Char, p.native t = p.native (slashed t) := by
    intro t
    rw [native, native, slashed, List.map_map]
    apply List.map_congr_left
    intro c _
    by_cases hc : c = '\\'
    · simp [hc, h.separator]
    · simp [hc]
  have happart : ∀ c d, p.toUpper c = p.toUpper d →
      p.toUpper (if c = '/' then p.rules.separator else c) =
        p.toUpper (if d = '/' then p.rules.separator else d) := by
    intro c d hcd
    have hslash := h.apart '/' (by simp [PathRules.reserved])
    have hiff : c = '/' ↔ d = '/' := by
      constructor
      · intro hc
        exact hslash d (by rw [← hcd, hc])
      · intro hd
        exact hslash c (by rw [hcd, hd])
    by_cases hc : c = '/'
    · rw [if_pos hc, if_pos (hiff.1 hc)]
    · rw [if_neg hc, if_neg (mt hiff.2 hc), hcd]
  rw [ReadsLike, sameIgnoringCase, beq_iff_eq] at hlike
  rw [← native_relative hf, hnative path, hnative (p.relative f), native, native, List.map_map,
    List.map_map]
  exact map_coarsen happart hlike

theorem FoldsCase.fold_names {f ms : List Name}
    (hms : ms.map (List.map p.toUpper) = f.map (List.map p.toUpper)) : ms.map p.fold = f.map p.fold := by
  rw [h.fold]
  exact hms

theorem FoldsCase.names_of_map {f : List Name} {t : List Char} (hf : f ∈ p.files)
    (ht : t.map p.toUpper = (p.relative f).map p.toUpper) :
    ∃ ms, t = joinNames p.rules.separator ms ∧ ms.map (List.map p.toUpper) = f.map (List.map p.toUpper) := by
  apply joinNames_of_map _ (p.valid f hf).1 ht
  rw [h.separator]
  exact h.apart '\\' (by simp [PathRules.reserved])

/-- On Windows nothing is ambiguous: the comparisons merge what the file system does. -/
theorem FoldsCase.unambiguous : p.Unambiguous := by
  constructor
  · intro f hf path hlike _ _
    obtain ⟨ms, ht, hms⟩ := h.names_of_map hf (h.native_of_readsLike hf hlike)
    obtain ⟨hne, hvalid⟩ := h.valid_of_map hf hms
    rw [fullPath, ht, PathRules.full_joinNames hne hvalid, List.map_append, List.map_append,
      h.fold_names hms]
  · intro f hf
    rw [Bool.eq_false_iff]
    intro hex
    rw [excluded, sameIgnoringCase, beq_iff_eq, manifestPath, PathRules.text_append,
      PathRules.text_append, List.map_append, List.map_append] at hex
    have hcut := List.append_cancel_left hex
    rw [PathRules.text_eq_cons (p.valid f hf).1, PathRules.text_eq_cons (List.cons_ne_nil _ _),
      List.map_cons, List.map_cons, List.cons.injEq, joinNames_singleton] at hcut
    -- The name of the manifest has no separator, so it is the only name of the file.
    obtain ⟨ms, ht, hms⟩ := h.names_of_map hf hcut.2.symm
    obtain ⟨hne, hvalid⟩ := h.valid_of_map hf hms
    have hsplit := PathRules.splitOnP_joinNames hne hvalid
    rw [← ht] at hsplit
    have hname : manifestName.splitOnP p.rules.isSeparator = [manifestName] := by
      rw [h.rules]
      change manifestName.splitOnP (fun c => c == '\\' || c == '/') = [manifestName]
      decide +kernel
    rw [hname] at hsplit
    apply p.noManifest f hf
    rw [← h.fold_names hms, ← hsplit]
    rfl

end windows

end Package

end EasyTierHost
