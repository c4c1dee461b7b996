import EasyTierHost.Deployment.DeploymentValidation
import EasyTierHost.Text.Paths

/- The four files an install script on Linux replaces or backs up: the profile, the
   secret, and the `.previous` of each. The profile's path is the request's text, with
   its backslashes and its slashes as they are; the secret's is put together from the
   profile's directory and the names of the secret's own path. `ResolveRemoteSecretPath`
   compares the two texts, and nothing compares the backups: this is which profiles and
   secrets give four different files. -/
namespace EasyTierHost
open NetworkProfileValidator (require require_ok)
open Text (Name Lexical lexical pathNames joinNames)

namespace DeploymentValidation

/-! ## What the checks leave -/

theorem check_ok {α : Type} {ok : Bool} {reason : String} {f : Unit → Except Err α} {a : α}
    (h : (require ok reason >>= f) = .ok a) : ok = true ∧ f () = .ok a := by
  cases hr : require ok reason with
  | error e =>
    rw [hr] at h
    cases h
  | ok u =>
    rw [hr] at h
    exact ⟨require_ok hr, h⟩

theorem value_ok {α β : Type} {x : Except Err α} {f : α → Except Err β} {b : β}
    (h : (x >>= f) = .ok b) : ∃ a, x = .ok a ∧ f a = .ok b := by
  cases x with
  | error e => cases h
  | ok a => exact ⟨a, rfl, h⟩

/-- A text after `Replace('\\', '/')`. -/
def forward (text : String) : List Char := (replaceChar '\\' '/' text).toList

theorem forward_eq (text : String) :
    forward text = text.toList.map (fun c => if c = '\\' then '/' else c) := by
  rw [forward, replaceChar, String.toList_ofList]

theorem backslash_notMem_forward (text : String) : '\\' ∉ forward text := by
  rw [forward_eq, List.mem_map]
  intro hgiven
  obtain ⟨c, -, hc⟩ := hgiven
  by_cases h : c = '\\'
  · rw [if_pos h] at hc
    exact absurd hc (by decide)
  · rw [if_neg h] at hc
    exact h hc

theorem forward_of_notMem {text : String} (h : '\\' ∉ text.toList) : forward text = text.toList := by
  rw [forward_eq]
  conv_rhs => rw [← List.map_id text.toList]
  apply List.map_congr_left
  intro c hc
  have hne : c ≠ '\\' := fun he => h (he ▸ hc)
  rw [if_neg hne, id]

/-- The names of a secret's path. -/
def secretNames (secret : String) : List Name := pathNames (forward secret)

theorem normalizeSecretRelativePath_ok {m : LocalMachine} {secret relative : String}
    (h : normalizeSecretRelativePath m secret = .ok relative) :
    secretNames secret ≠ [] ∧ relative.toList = joinNames '/' (secretNames secret) := by
  obtain ⟨-, h⟩ := check_ok h
  obtain ⟨-, h⟩ := check_ok h
  obtain ⟨hs, h⟩ := check_ok h
  have hrelative := Except.ok.inj h
  rw [← hrelative]
  simp only [Bool.not_eq_true', Bool.or_eq_false_iff, List.isEmpty_eq_false_iff] at hs
  exact ⟨hs.1, String.toList_ofList⟩

/-- A profile's path is its directory, one name, and slashes. -/
theorem remoteDirectory_ok {path directory : String} (h : remoteDirectory path = .ok directory) :
    directory.toList ≠ [] ∧ ∃ n t, n ≠ [] ∧ '/' ∉ n ∧ (∀ c ∈ t, c = '/') ∧
      forward path = directory.toList ++ '/' :: n ++ t := by
  obtain ⟨-, -, h⟩ := value_ok h
  obtain ⟨hlen, h⟩ := check_ok h
  have hdirectory := Except.ok.inj h
  clear h
  generalize hx : (replaceChar '\\' '/' path).toList = x at *
  generalize hy : x.rdropWhile slash = y at *
  generalize hu : y.rdropWhile (fun c => !slash c) = u at *
  replace hlen : 1 < u.length := by simpa using hlen
  have hxy : x = y ++ x.rtakeWhile slash := by
    rw [← hy]
    exact List.rdropWhile_append_rtakeWhile.symm
  have hyu : y = u ++ y.rtakeWhile (fun c => !slash c) := by
    rw [← hu]
    exact List.rdropWhile_append_rtakeWhile.symm
  have hune : u ≠ [] := List.ne_nil_of_length_pos (by omega)
  have hlast : u.getLast hune = '/' := by
    have hl := List.rdropWhile_last_not (p := fun c => !slash c) (l := y) (by rw [hu]; exact hune)
    simp only [hu] at hl
    simpa [slash] using hl
  have hu' : u = u.dropLast ++ ['/'] := by
    conv_lhs => rw [← List.dropLast_append_getLast hune, hlast]
  rw [← hdirectory, String.toList_ofList]
  refine ⟨?_, y.rtakeWhile (fun c => !slash c), x.rtakeWhile slash, ?_, ?_, ?_, ?_⟩
  · apply List.ne_nil_of_length_pos
    rw [List.length_dropLast]
    omega
  · intro hn
    rw [hn, List.append_nil] at hyu
    have hyne : x.rdropWhile slash ≠ [] := by
      rw [hy, hyu]
      exact hune
    have hl := List.rdropWhile_last_not (p := slash) (l := x) hyne
    simp only [hy, hyu, hlast] at hl
    exact hl rfl
  · intro hmem
    have hs := List.mem_rtakeWhile_imp hmem
    simp [slash] at hs
  · intro c hc
    have hs := List.mem_rtakeWhile_imp hc
    simpa [slash] using hs
  · rw [forward, hx]
    conv_lhs => rw [hxy, hyu, hu']
    simp

theorem combineRemote_toList (root relative : String) :
    (combineRemote root relative).toList
      = root.toList.rdropWhile anySlash ++ '/' :: relative.toList.dropWhile anySlash :=
  String.toList_ofList

theorem eq_slash_of_anySlash {c : Char} (h : anySlash c = true) (hc : c ≠ '\\') : c = '/' := by
  simpa [anySlash, hc] using h

/-- Trailing slashes of a directory make no difference below it. -/
theorem lexical_below {d : List Char} (hne : d ≠ []) (hb : '\\' ∉ d) (r : List Char) :
    lexical (d.rdropWhile anySlash ++ '/' :: r) = ⟨d.head? == some '/', pathNames d ++ pathNames r⟩ := by
  have hsplit : d.rdropWhile anySlash ++ d.rtakeWhile anySlash = d :=
    List.rdropWhile_append_rtakeWhile
  have hslashes : ∀ c ∈ d.rtakeWhile anySlash, c = '/' := by
    intro c hc
    apply eq_slash_of_anySlash (List.mem_rtakeWhile_imp hc)
    intro he
    rw [he] at hc
    exact hb ((List.rtakeWhile_suffix _ _).subset hc)
  have hnames : pathNames (d.rdropWhile anySlash) = pathNames d := by
    conv_rhs => rw [← hsplit]
    exact (Text.pathNames_append_slashes _ hslashes).symm
  have hhead : (d.rdropWhile anySlash ++ '/' :: r).head? = d.head? := by
    cases hd : d.rdropWhile anySlash with
    | nil =>
      rw [hd, List.nil_append] at hsplit
      obtain ⟨c, cs, hcs⟩ := List.exists_cons_of_ne_nil hne
      have hc : c = '/' := hslashes c (by rw [hsplit, hcs]; exact List.mem_cons_self)
      rw [hcs, hc]
      rfl
    | cons c cs =>
      rw [← hsplit, hd]
      rfl
  rw [lexical, hhead, Text.pathNames_append_slash, hnames]

/-! ## Where the four files are -/

/-- The suffix of a backup. -/
def previous : Name := ".previous".toList

/-- A profile at `n` in the directory `d`, followed by the slashes `t`, and a secret at the
names `inner` and `l` below it, in the directory `a`. -/
structure Placed (profile secret path : String) (d : List Char) (n : Name) (t a : List Char)
    (inner : List Name) (l : Name) : Prop where
  profile_eq : forward profile = d ++ '/' :: n ++ t
  path_eq : path.toList = a ++ '/' :: l
  secret_eq : secretNames secret = inner ++ [l]
  directory : ∀ r, lexical (a ++ '/' :: r) = ⟨d.head? == some '/', pathNames d ++ inner ++ pathNames r⟩
  nonempty : d ≠ []
  name : n ≠ [] ∧ '/' ∉ n
  last : l ≠ [] ∧ '/' ∉ l
  slashes : ∀ c ∈ t, c = '/'
  backslash : '\\' ∉ path.toList

theorem secretNames_name {secret : String} {n : Name} (h : n ∈ secretNames secret) :
    n ≠ [] ∧ '/' ∉ n ∧ '\\' ∉ n := by
  have hname := Text.mem_pathNames h
  refine ⟨hname.1, hname.2, ?_⟩
  intro hb
  have hmem : '\\' ∈ (secretNames secret).flatten := List.mem_flatten.2 ⟨n, h, hb⟩
  rw [secretNames, Text.flatten_pathNames, List.mem_filter] at hmem
  exact backslash_notMem_forward secret hmem.1

/-- Trimming the start of a secret's path cuts nothing off. -/
theorem dropWhile_joinNames {ns : List Name} (h : ∀ n ∈ ns, n ≠ [] ∧ '/' ∉ n ∧ '\\' ∉ n) :
    (joinNames '/' ns).dropWhile anySlash = joinNames '/' ns := by
  match ns with
  | [] => rfl
  | [] :: ns => exact absurd rfl (h [] List.mem_cons_self).1
  | (c :: cs) :: ns =>
    have hc := (h (c :: cs) List.mem_cons_self).2
    have hany : anySlash c = false := by
      simp only [List.mem_cons, not_or] at hc
      simp [anySlash, Ne.symm hc.1.1, Ne.symm hc.2.1]
    cases ns with
    | nil => rw [Text.joinNames_singleton, List.dropWhile_cons_of_neg (by simp [hany])]
    | cons m ms =>
      rw [Text.joinNames_cons_cons, List.cons_append, List.dropWhile_cons_of_neg (by simp [hany])]

/-- The directory the last name of a secret stands in. -/
theorem exists_secret_directory {d : List Char} (hne : d ≠ []) (hb : '\\' ∉ d) {inner : List Name}
    {l : Name} (hinner : ∀ k ∈ inner, k ≠ [] ∧ '/' ∉ k) :
    ∃ a, d.rdropWhile anySlash ++ '/' :: joinNames '/' (inner ++ [l]) = a ++ '/' :: l ∧
      ∀ r, lexical (a ++ '/' :: r)
        = ⟨d.head? == some '/', pathNames d ++ inner ++ pathNames r⟩ := by
  by_cases hi : inner = []
  · refine ⟨d.rdropWhile anySlash, ?_, ?_⟩
    · rw [hi, List.nil_append, Text.joinNames_singleton]
    · intro r
      rw [lexical_below hne hb, hi, List.append_nil]
  · refine ⟨d.rdropWhile anySlash ++ '/' :: joinNames '/' inner, ?_, ?_⟩
    · rw [Text.joinNames_concat '/' l hi, List.append_assoc, List.cons_append]
    · intro r
      rw [List.append_assoc, List.cons_append, lexical_below hne hb, Text.pathNames_append_slash,
        Text.pathNames_joinNames hinner, List.append_assoc]

/-- What an accepted pair looks like. -/
theorem resolveRemoteSecretPath_ok {m : LocalMachine} {request : DeploymentRequest}
    {secret path : String} (h : resolveRemoteSecretPath m request secret = .ok path) :
    ∃ d n t a inner l, Placed request.remoteProfilePath secret path d n t a inner l := by
  obtain ⟨directory, hdir, h⟩ := value_ok h
  obtain ⟨relative, hrel, h⟩ := value_ok h
  obtain ⟨-, h⟩ := check_ok h
  have hpath := Except.ok.inj h
  obtain ⟨hne, n, t, hn, hslash, ht, hprofile⟩ := remoteDirectory_ok hdir
  obtain ⟨hnames, hrelative⟩ := normalizeSecretRelativePath_ok hrel
  have hproper := fun k (hk : k ∈ secretNames secret) => secretNames_name hk
  have hb : '\\' ∉ directory.toList := by
    intro hmem
    apply backslash_notMem_forward request.remoteProfilePath
    rw [hprofile]
    simp [hmem]
  have htext : path.toList
      = directory.toList.rdropWhile anySlash ++ '/' :: joinNames '/' (secretNames secret) := by
    rw [← hpath, combineRemote_toList, hrelative, dropWhile_joinNames hproper]
  obtain hnil | ⟨inner, l, hsecret⟩ := List.eq_nil_or_concat (secretNames secret)
  · exact absurd hnil hnames
  · rw [List.concat_eq_append] at hsecret
    have hl := hproper l (by simp [hsecret])
    have hinner : ∀ k ∈ inner, k ≠ [] ∧ '/' ∉ k := by
      intro k hk
      have hk := hproper k (by simp [hsecret, hk])
      exact ⟨hk.1, hk.2.1⟩
    obtain ⟨a, ha, hbelow⟩ := exists_secret_directory hne hb (l := l) hinner
    refine ⟨directory.toList, n, t, a, inner, l, hprofile, ?_, hsecret, hbelow, hne, ⟨hn, hslash⟩,
      ⟨hl.1, hl.2.1⟩, ht, ?_⟩
    · rw [htext, hsecret, ha]
    · rw [htext, List.mem_append, List.mem_cons, not_or, not_or]
      refine ⟨fun hmem => hb ((List.rdropWhile_prefix _ _).subset hmem), by decide, fun hmem => ?_⟩
      rcases Text.mem_joinNames hmem with hs | ⟨k, hk, hbk⟩
      · exact absurd hs (by decide)
      · exact (hproper k hk).2.2 hbk

section Placed
variable {profile secret path : String} {d : List Char} {n : Name} {t a : List Char}
  {inner : List Name} {l : Name}

theorem previous_name : previous ≠ [] ∧ '/' ∉ previous := by decide

theorem Placed.lexical_path (p : Placed profile secret path d n t a inner l) :
    lexical path.toList = ⟨d.head? == some '/', pathNames d ++ inner ++ [l]⟩ := by
  rw [p.path_eq, p.directory, Text.pathNames_name p.last.1 p.last.2]

theorem suffixed {k : Name} (h : k ≠ [] ∧ '/' ∉ k) : k ++ previous ≠ [] ∧ '/' ∉ k ++ previous := by
  refine ⟨by simp [h.1], ?_⟩
  rw [List.mem_append, not_or]
  exact ⟨h.2, previous_name.2⟩

theorem Placed.lexical_path_previous (p : Placed profile secret path d n t a inner l) :
    lexical (path.toList ++ previous)
      = ⟨d.head? == some '/', pathNames d ++ inner ++ [l ++ previous]⟩ := by
  have hl := suffixed p.last
  rw [p.path_eq, List.append_assoc, List.cons_append, p.directory, Text.pathNames_name hl.1 hl.2]

theorem head?_directory (hne : d ≠ []) (r : List Char) : (d ++ r).head? = d.head? := by
  obtain ⟨c, cs, rfl⟩ := List.exists_cons_of_ne_nil hne
  rfl

theorem Placed.lexical_profile (p : Placed profile secret path d n t a inner l)
    (hb : '\\' ∉ profile.toList) :
    lexical profile.toList = ⟨d.head? == some '/', pathNames d ++ [n]⟩ := by
  rw [← forward_of_notMem hb, p.profile_eq, lexical, Text.pathNames_append_slashes _ p.slashes,
    Text.pathNames_concat p.name.1 p.name.2, List.append_assoc, head?_directory p.nonempty]

/-- The names of a profile's backup, in the directory of the profile. -/
def backupNames (profile : String) (n : Name) : List Name :=
  if profile.toList.getLast? = some '/' then [n, previous] else [n ++ previous]

theorem Placed.lexical_profile_previous (p : Placed profile secret path d n t a inner l)
    (hb : '\\' ∉ profile.toList) :
    lexical (profile.toList ++ previous)
      = ⟨d.head? == some '/', pathNames d ++ backupNames profile n⟩ := by
  have hprofile : profile.toList = d ++ '/' :: n ++ t := by
    rw [← p.profile_eq, forward_of_notMem hb]
  obtain ht | ⟨s, c, ht⟩ := List.eq_nil_or_concat t
  · -- the suffix lengthens the profile's name
    have hn := suffixed p.name
    have hlast : profile.toList.getLast? ≠ some '/' := by
      rw [hprofile, ht, List.append_nil, List.append_cons, List.getLast?_append,
        List.getLast?_eq_some_getLast p.name.1, Option.some_or]
      intro he
      apply p.name.2
      rw [← Option.some.inj he]
      exact List.getLast_mem p.name.1
    rw [backupNames, if_neg hlast, hprofile, ht, List.append_nil, List.append_assoc, List.cons_append,
      lexical, Text.pathNames_concat hn.1 hn.2, head?_directory p.nonempty]
  · -- the backup is below the profile
    have hc : c = '/' := p.slashes c (by simp [ht])
    have hs : ∀ k ∈ s, k = '/' := fun k hk => p.slashes k (by simp [ht, hk])
    have hlast : profile.toList.getLast? = some '/' := by
      rw [hprofile, ht, hc, List.concat_eq_append, ← List.append_assoc, List.getLast?_concat]
    have htext : profile.toList ++ previous = (d ++ '/' :: n ++ s) ++ '/' :: previous := by
      rw [hprofile, ht, hc]
      simp
    rw [backupNames, if_pos hlast, htext, lexical,
      Text.pathNames_concat previous_name.1 previous_name.2, Text.pathNames_append_slashes _ hs,
      Text.pathNames_concat p.name.1 p.name.2, List.append_assoc, List.append_assoc,
      head?_directory p.nonempty]
    simp

end Placed

/-! ## When they are four -/

/-- The files of an install transaction. -/
def installFiles (secret profile : String) : List String :=
  [secret, profile, secret ++ ".previous", profile ++ ".previous"]

/-- They are different files, whatever slashes their texts have. -/
def FourFiles (secret profile : String) : Prop :=
  ((installFiles secret profile).map (fun file => lexical file.toList)).Nodup

instance (secret profile : String) : Decidable (FourFiles secret profile) :=
  inferInstanceAs (Decidable (List.Nodup _))

/-- The secret's path is not the profile's name, nor the name of its backup, nor has it a
backup of the profile's name. A profile with a backslash has a name no secret can have. -/
def SecretApart (profile secret : String) : Prop :=
  '\\' ∈ profile.toList ∨
    (let n := (pathNames profile.toList).getLastD []
    secretNames secret ≠ [n] ∧ (secretNames secret).map (· ++ previous) ≠ [n] ∧
      secretNames secret ≠ backupNames profile n)

instance (profile secret : String) : Decidable (SecretApart profile secret) :=
  inferInstanceAs (Decidable (_ ∨ (_ ∧ _ ∧ _)))

/-- A file is never its own backup. -/
theorem fourFiles_iff (secret profile : String) : FourFiles secret profile ↔
    lexical secret.toList ≠ lexical profile.toList ∧
    lexical secret.toList ≠ lexical (profile.toList ++ previous) ∧
    lexical profile.toList ≠ lexical (secret.toList ++ previous) ∧
    lexical (secret.toList ++ previous) ≠ lexical (profile.toList ++ previous) := by
  have hself := fun text => Text.lexical_append_ne previous_name.1 previous_name.2 text
  have hbackup : ∀ text : String, (text ++ ".previous").toList = text.toList ++ previous :=
    fun text => String.toList_append
  simp only [FourFiles, installFiles, List.map_cons, List.map_nil, hbackup, List.nodup_cons,
    List.mem_cons, List.not_mem_nil, not_or, or_false]
  constructor
  · intro h
    exact ⟨h.1.1, h.1.2.2, h.2.1.1, h.2.2.1⟩
  · intro h
    exact ⟨⟨h.1, hself _, h.2.1⟩, ⟨h.2.2.1, hself _⟩, h.2.2.2, not_false, List.nodup_nil⟩

/-- The backups meet where the files do. -/
theorem backup_eq {profile : String} {inner : List Name} {l n : Name} (hl : l ≠ [])
    (h : inner ++ [l ++ previous] = backupNames profile n) : inner ++ [l] = [n] := by
  rw [backupNames] at h
  split at h
  · have hlast := congrArg List.getLast? h
    rw [List.getLast?_concat] at hlast
    have hprev : l ++ previous = previous := Option.some.inj hlast
    exact absurd (List.append_left_eq_self.1 hprev) hl
  · obtain ⟨hinner, hname⟩ := List.append_eq_singleton_iff.1 h |>.resolve_right (by simp)
    have hln : l = n := List.append_cancel_right (List.singleton_inj.1 hname)
    rw [hinner, hln, List.nil_append]

theorem Placed.fourFiles_iff_apart {profile secret path : String} {d : List Char} {n : Name}
    {t a : List Char} {inner : List Name} {l : Name}
    (p : Placed profile secret path d n t a inner l) (hb : '\\' ∉ profile.toList) :
    FourFiles path profile ↔ SecretApart profile secret := by
  have hname : (pathNames profile.toList).getLastD [] = n := by
    have hnames := congrArg Lexical.names (p.lexical_profile hb)
    rw [show pathNames profile.toList = pathNames d ++ [n] from hnames]
    simp
  rw [fourFiles_iff, p.lexical_path, p.lexical_path_previous, p.lexical_profile hb,
    p.lexical_profile_previous hb, SecretApart, hname, p.secret_eq]
  simp only [hb, false_or, ne_eq, Lexical.mk.injEq, true_and, List.append_assoc,
    List.append_cancel_left_eq, List.map_append, List.map_cons, List.map_nil]
  have hmap : [n] = inner ++ [l ++ previous] ↔ inner.map (· ++ previous) ++ [l ++ previous] = [n] := by
    cases inner with
    | nil => exact eq_comm
    | cons k ks => simp
  rw [hmap]
  constructor
  · intro h
    exact ⟨h.1, h.2.2.1, h.2.1⟩
  · intro h
    exact ⟨h.1, h.2.2, h.2.1, fun he => h.1 (backup_eq p.last.1 he)⟩

/-- On the node a backslash stands in a name, and no secret's path has any. -/
theorem fourFiles_of_backslash {path profile : String} (hp : '\\' ∉ path.toList)
    (hb : '\\' ∈ profile.toList) : FourFiles path profile := by
  have hslash : '\\' ≠ '/' := by decide
  have hp' : '\\' ∉ path.toList ++ previous := by
    rw [List.mem_append, not_or]
    exact ⟨hp, by decide⟩
  have hb' : '\\' ∈ profile.toList ++ previous := List.mem_append_left previous hb
  rw [fourFiles_iff]
  refine ⟨?_, ?_, ?_, ?_⟩
  · intro h
    exact hp (Text.mem_of_lexical_eq h.symm hslash hb)
  · intro h
    exact hp (Text.mem_of_lexical_eq h.symm hslash hb')
  · intro h
    exact hp' (Text.mem_of_lexical_eq h hslash hb)
  · intro h
    exact hp' (Text.mem_of_lexical_eq h.symm hslash hb')

/-- The files of an accepted deployment are four exactly if the secret's path is none that
meets the profile or its backup. -/
theorem resolveRemoteSecretPath_fourFiles (m : LocalMachine) (request : DeploymentRequest)
    (secret path : String) (h : resolveRemoteSecretPath m request secret = .ok path) :
    FourFiles path request.remoteProfilePath ↔ SecretApart request.remoteProfilePath secret := by
  obtain ⟨d, n, t, a, inner, l, p⟩ := resolveRemoteSecretPath_ok h
  by_cases hb : '\\' ∈ request.remoteProfilePath.toList
  · exact iff_of_true (fourFiles_of_backslash p.backslash hb) (.inl hb)
  · exact p.fourFiles_iff_apart hb

theorem managerRequest_fourFiles :
    resolveRemoteSecretPath managerMachine managerRequest "secret" = .ok "/etc/easytier-host/secret" ∧
      FourFiles "/etc/easytier-host/secret" managerRequest.remoteProfilePath := by
  have h : resolveRemoteSecretPath managerMachine managerRequest "secret"
      = .ok "/etc/easytier-host/secret" := rfl
  refine ⟨h, (resolveRemoteSecretPath_fourFiles _ _ _ _ h).2 ?_⟩
  decide +kernel

/-- A secret kept under the name of the profile's backup is accepted: the script deletes
it before anything is saved, and moves the profile over it. -/
theorem secret_is_profile_backup :
    LinuxRemoteInstaller.prepare managerMachine managerRequest
        { managerProfile with secretFile := "network.json.previous" } "correct horse" 0
      = .ok { managerTransaction with secret := "/etc/easytier-host/network.json.previous" } ∧
    resolveRemoteSecretPath managerMachine managerRequest "network.json.previous"
      = .ok "/etc/easytier-host/network.json.previous" ∧
    ¬ FourFiles "/etc/easytier-host/network.json.previous" managerRequest.remoteProfilePath := by
  refine ⟨rfl, rfl, ?_⟩
  decide +kernel

end DeploymentValidation

end EasyTierHost
