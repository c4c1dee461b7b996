import EasyTierHost.Deployment.RemoteSecretPath

/- Where a secret can end up on the node. `NormalizeSecretRelativePath` is described from
   the text it is given: when it throws, and what it returns. What it returns is put below
   the directory of the profile by trimming slashes off both texts; the result is below
   that directory also after dots are resolved, whatever dots and slashes the directory
   itself has. -/
namespace EasyTierHost
open NetworkProfileValidator (require)
open Text (Name Proper joinNames pathNames lexical)

namespace DeploymentValidation

/-! ## The segments of a text -/

/-- The segments of a path, split at both slashes. -/
def secretSegments (path : String) : List Name := path.toList.splitOnP anySlash

theorem splitOn_forward (path : String) : (forward path).splitOn '/' = secretSegments path := by
  rw [forward_eq, secretSegments]
  induction path.toList with
  | nil => rfl
  | cons c cs ih =>
    rw [List.map_cons, List.splitOn_cons_eq_if_modifyHead, List.splitOnP_cons_eq_if_modifyHead, ih]
    by_cases hb : c = '\\'
    · simp [hb, anySlash]
    · by_cases hs : c = '/'
      · simp [hs, anySlash]
      · simp [hb, hs, anySlash]

theorem secretNames_eq (path : String) :
    secretNames path = (secretSegments path).filter (fun s => !s.isEmpty) := by
  rw [← splitOn_forward]
  rfl

/-- The first name of a text that does not start with a slash. -/
theorem pathNames_head? {t : List Char} (hne : t ≠ []) (h : t.head? ≠ some '/') :
    (pathNames t).head? = some (t.takeWhile (fun c => c != '/')) := by
  have hsplit := List.takeWhile_append_dropWhile (p := fun c => c != '/') (l := t)
  have hfirst : t.takeWhile (fun c => c != '/') ≠ [] := by
    obtain ⟨c, cs, rfl⟩ := List.exists_cons_of_ne_nil hne
    have hc : c ≠ '/' := by simpa using h
    simp [hc]
  have hslash : '/' ∉ t.takeWhile (fun c => c != '/') := by
    intro hm
    simpa using List.mem_takeWhile_imp hm
  cases hrest : t.dropWhile (fun c => c != '/') with
  | nil =>
    rw [hrest, List.append_nil] at hsplit
    have hname := Text.pathNames_name hfirst hslash
    rw [hsplit] at hname ⊢
    rw [hname, List.head?_cons]
  | cons c cs =>
    have hc : c = '/' := by
      have hhead := List.head?_dropWhile_not (fun c => c != '/') t
      rw [hrest] at hhead
      simpa using hhead
    rw [hrest, hc] at hsplit
    have hnames : pathNames t = pathNames (t.takeWhile (fun c => c != '/') ++ '/' :: cs) := by
      rw [hsplit]
    rw [hnames, Text.pathNames_append_slash, Text.pathNames_name hfirst hslash, List.singleton_append,
      List.head?_cons]

/-! ## The texts that are refused -/

/-- The first unit of a text is a letter of the machine's, and a colon follows. -/
def StartsWithDrive (m : LocalMachine) (text : List Char) : Prop :=
  ∃ c rest, text = c :: ':' :: rest ∧ c.toNat < 0x10000 ∧ m.isLetter c = true

/-- A segment that stays where it is, or goes up. -/
def HasDots (path : String) : Prop := ['.'] ∈ secretSegments path ∨ ['.', '.'] ∈ secretSegments path

/-- The texts that are no path of a secret. -/
def Unfit (m : LocalMachine) (path : String) : Prop :=
  (∀ c ∈ path.toList, isWhiteSpace c = true) ∨
  ('\r' ∈ path.toList ∨ '\n' ∈ path.toList ∨ '\x00' ∈ path.toList) ∨
  (path.toList.head? = some '/' ∨ path.toList.head? = some '\\') ∨
  StartsWithDrive m path.toList ∨ HasDots path

section Refused
variable {m : LocalMachine} {path : String}

theorem hasBreak_iff :
    hasBreak path = true ↔ '\r' ∈ path.toList ∨ '\n' ∈ path.toList ∨ '\x00' ∈ path.toList := by
  rw [hasBreak, List.any_eq_true]
  constructor
  · intro h
    obtain ⟨c, hc, heq⟩ := h
    simp only [Bool.or_eq_true, beq_iff_eq] at heq
    rcases heq with (rfl | rfl) | rfl
    · exact .inl hc
    · exact .inr (.inl hc)
    · exact .inr (.inr hc)
  · intro h
    rcases h with h | h | h
    · exact ⟨_, h, rfl⟩
    · exact ⟨_, h, rfl⟩
    · exact ⟨_, h, rfl⟩

theorem looksLikeWindowsAbsolutePath_iff (text : String) :
    looksLikeWindowsAbsolutePath m text = true ↔ StartsWithDrive m text.toList := by
  rw [looksLikeWindowsAbsolutePath]
  split
  · next c rest heq =>
    rw [heq]
    simp [StartsWithDrive]
  · next hno =>
    refine iff_of_false Bool.false_ne_true ?_
    intro h
    obtain ⟨c, rest, heq, -⟩ := h
    exact hno c rest heq

theorem forward_head? :
    (forward path).head? = some '/' ↔ path.toList.head? = some '/' ∨ path.toList.head? = some '\\' := by
  rw [forward_eq, List.head?_map, Option.map_eq_some_iff]
  constructor
  · intro h
    obtain ⟨c, hc, heq⟩ := h
    by_cases hb : c = '\\'
    · exact .inr (hb ▸ hc)
    · rw [if_neg hb] at heq
      exact .inl (heq ▸ hc)
  · intro h
    rcases h with h | h
    · exact ⟨'/', h, rfl⟩
    · exact ⟨'\\', h, rfl⟩

/-- Where the first unit is no slash, turning the backslashes leaves a drive as it is. -/
theorem startsWithDrive_forward (h : path.toList.head? ≠ some '\\') :
    StartsWithDrive m (forward path) ↔ StartsWithDrive m path.toList := by
  have hcolon : ∀ c : Char, (if c = '\\' then '/' else c) = ':' ↔ c = ':' := by
    intro c
    by_cases hc : c = '\\'
    · rw [if_pos hc, hc]
      decide
    · rw [if_neg hc]
  rw [forward_eq]
  match hpath : path.toList with
  | [] => exact Iff.rfl
  | [c] =>
    refine iff_of_false ?_ ?_
    · intro hd
      obtain ⟨d, rest, heq, -⟩ := hd
      simp at heq
    · intro hd
      obtain ⟨d, rest, heq, -⟩ := hd
      simp at heq
  | c :: d :: rest =>
    have hc : c ≠ '\\' := by
      intro he
      rw [hpath, he] at h
      exact h rfl
    simp only [StartsWithDrive, List.map_cons, List.cons.injEq, if_neg hc, hcolon]
    constructor
    · intro hd
      obtain ⟨e, tail, ⟨rfl, hcol, -⟩, hletter⟩ := hd
      exact ⟨c, rest, ⟨rfl, hcol, rfl⟩, hletter⟩
    · intro hd
      obtain ⟨e, tail, ⟨rfl, hcol, -⟩, hletter⟩ := hd
      exact ⟨c, _, ⟨rfl, hcol, rfl⟩, hletter⟩

theorem hasDots_iff : HasDots path ↔ ['.'] ∈ secretNames path ∨ ['.', '.'] ∈ secretNames path := by
  rw [HasDots, secretNames_eq, List.mem_filter, List.mem_filter]
  simp

/-- A path without names is empty, or starts with a slash. -/
theorem secretNames_ne_nil (hne : path.toList ≠ []) (h : (forward path).head? ≠ some '/') :
    secretNames path ≠ [] := by
  have hfne : forward path ≠ [] := by
    rw [forward_eq]
    simpa using hne
  intro hnil
  have hhead := pathNames_head? hfne h
  rw [show pathNames (forward path) = [] from hnil] at hhead
  exact absurd hhead (by simp)

/-- What is refused: the four checks, in the words of the text. -/
theorem unfit_iff : Unfit m path ↔ ¬((isNullOrWhiteSpace path || hasBreak path) = false ∧
    ((forward path).head? == some '/' ||
      looksLikeWindowsAbsolutePath m (replaceChar '\\' '/' path)) = false ∧
    ((secretNames path).isEmpty ||
      (secretNames path).any (fun s => s == ['.'] || s == ['.', '.'])) = false) := by
  have hblank : isNullOrWhiteSpace path = true ↔ ∀ c ∈ path.toList, isWhiteSpace c = true := List.all_eq_true
  have hdots : (secretNames path).any (fun s => s == ['.'] || s == ['.', '.']) = true ↔ HasDots path := by
    rw [hasDots_iff, List.any_eq_true]
    constructor
    · intro h
      obtain ⟨s, hs, heq⟩ := h
      simp only [Bool.or_eq_true, beq_iff_eq] at heq
      rcases heq with rfl | rfl
      · exact .inl hs
      · exact .inr hs
    · intro h
      rcases h with h | h
      · exact ⟨_, h, rfl⟩
      · exact ⟨_, h, rfl⟩
  simp only [← Bool.not_eq_true, Bool.or_eq_true, hblank, hasBreak_iff, beq_iff_eq, forward_head?,
    looksLikeWindowsAbsolutePath_iff, hdots]
  show Unfit m path ↔ ¬(_ ∧ ¬(_ ∨ StartsWithDrive m (forward path)) ∧ _)
  by_cases hempty : path.toList = []
  · refine iff_of_true (.inl ?_) ?_
    · rw [hempty]
      exact fun c hc => absurd hc List.not_mem_nil
    · intro h
      apply h.1
      rw [hempty]
      exact .inl (fun c hc => absurd hc List.not_mem_nil)
  by_cases hslash : path.toList.head? = some '/' ∨ path.toList.head? = some '\\'
  · exact iff_of_true (.inr (.inr (.inl hslash))) (fun h => h.2.1 (.inl hslash))
  · have hnames : ¬((secretNames path).isEmpty = true) := by
      rw [List.isEmpty_iff]
      exact secretNames_ne_nil hempty (fun hf => hslash (forward_head?.1 hf))
    rw [startsWithDrive_forward (fun hb => hslash (.inr hb)), Unfit]
    simp only [hslash, hnames, Bool.false_eq_true, false_or, not_and_or, not_not, or_assoc]

end Refused

/-! ## What is returned -/

section Returned
variable {m : LocalMachine} {path : String}

/-- Refused or not, and what is returned if not. -/
theorem normalizeSecretRelativePath_spec (m : LocalMachine) (path : String) :
    (Unfit m path ∧ ∃ reason, normalizeSecretRelativePath m path = .error (.host "ETH003" reason)) ∨
    (¬Unfit m path ∧
      normalizeSecretRelativePath m path = .ok (String.ofList (joinNames '/' (secretNames path)))) := by
  have hrun : normalizeSecretRelativePath m path =
      (require (!(isNullOrWhiteSpace path || hasBreak path)) "Secret file path is invalid" >>= fun _ =>
        require (!((forward path).head? == some '/' ||
            looksLikeWindowsAbsolutePath m (replaceChar '\\' '/' path)))
          "Remote deployment requires a relative secret file path" >>= fun _ =>
        require (!((secretNames path).isEmpty ||
            (secretNames path).any (fun s => s == ['.'] || s == ['.', '.'])))
          "Secret file path must stay inside the remote profile directory" >>= fun _ =>
        pure (String.ofList (joinNames '/' (secretNames path)))) := rfl
  rw [unfit_iff, hrun]
  cases isNullOrWhiteSpace path || hasBreak path with
  | true => exact .inl ⟨by simp, _, rfl⟩
  | false =>
    cases (forward path).head? == some '/' ||
        looksLikeWindowsAbsolutePath m (replaceChar '\\' '/' path) with
    | true => exact .inl ⟨by simp, _, rfl⟩
    | false =>
      cases (secretNames path).isEmpty ||
          (secretNames path).any (fun s => s == ['.'] || s == ['.', '.']) with
      | true => exact .inl ⟨by simp, _, rfl⟩
      | false => exact .inr ⟨by simp, rfl⟩

theorem normalizeSecretRelativePath_throws_iff :
    (∃ e, normalizeSecretRelativePath m path = .error e) ↔ Unfit m path := by
  rcases normalizeSecretRelativePath_spec m path with h | h
  · exact iff_of_true ⟨_, h.2.choose_spec⟩ h.1
  · refine iff_of_false (fun he => ?_) h.1
    obtain ⟨e, he⟩ := he
    rw [h.2] at he
    cases he

/-- A path that is accepted. -/
theorem normalizeSecretRelativePath_fit {result : String}
    (h : normalizeSecretRelativePath m path = .ok result) :
    ¬Unfit m path ∧ result.toList = joinNames '/' (secretNames path) := by
  rcases normalizeSecretRelativePath_spec m path with hs | hs
  · rw [hs.2.choose_spec] at h
    cases h
  · refine ⟨hs.1, ?_⟩
    rw [hs.2] at h
    rw [← Except.ok.inj h, String.toList_ofList]

/-- The segments of an accepted path. -/
theorem secretNames_fit (h : ¬Unfit m path) : secretNames path ≠ [] ∧
    ∀ s ∈ secretNames path, Proper s ∧ '/' ∉ s ∧ '\\' ∉ s := by
  have hdots : ¬HasDots path := fun hd => h (.inr (.inr (.inr (.inr hd))))
  rw [unfit_iff, not_not] at h
  refine ⟨?_, fun s hs => ?_⟩
  · intro hnil
    simp [hnil] at h
  · have hname := secretNames_name hs
    refine ⟨⟨hname.1, ?_, ?_⟩, hname.2⟩
    · intro he
      exact hdots (hasDots_iff.2 (.inl (he ▸ hs)))
    · intro he
      exact hdots (hasDots_iff.2 (.inr (he ▸ hs)))

/-- The drive of a text is in its first name. -/
theorem startsWithDrive_head {t : List Char} (h : t.head? ≠ some '/') :
    StartsWithDrive m t ↔ ∃ n, (pathNames t).head? = some n ∧ StartsWithDrive m n := by
  by_cases hne : t = []
  · rw [hne]
    refine iff_of_false ?_ ?_
    · intro hd
      obtain ⟨c, rest, heq, -⟩ := hd
      cases heq
    · intro hd
      obtain ⟨n, hn, -⟩ := hd
      cases hn
  · rw [pathNames_head? hne h]
    have hsplit := List.takeWhile_append_dropWhile (p := fun c => c != '/') (l := t)
    constructor
    · intro hd
      obtain ⟨c, rest, rfl, hletter⟩ := hd
      have hc : c ≠ '/' := by simpa using h
      refine ⟨_, rfl, c, rest.takeWhile (fun c => c != '/'), ?_, hletter⟩
      simp [hc]
    · intro hd
      obtain ⟨n, hn, c, rest, heq, hletter⟩ := hd
      refine ⟨c, rest ++ t.dropWhile (fun c => c != '/'), ?_, hletter⟩
      rw [← Option.some.inj hn] at heq
      rw [heq] at hsplit
      exact hsplit.symm

/-- The result is accepted again, unless it is blank. -/
theorem fit_joinNames {result : String} (h : ¬Unfit m path)
    (hresult : result.toList = joinNames '/' (secretNames path))
    (hblank : ¬∀ c ∈ result.toList, isWhiteSpace c = true) :
    ¬Unfit m result ∧ secretNames result = secretNames path := by
  obtain ⟨hne, hproper⟩ := secretNames_fit h
  have hmem : ∀ c ∈ result.toList, c = '/' ∨ c ∈ path.toList := by
    intro c hc
    rw [hresult] at hc
    rcases Text.mem_joinNames hc with hs | ⟨n, hn, hcn⟩
    · exact .inl hs
    · have hf : c ∈ (secretNames path).flatten := List.mem_flatten.2 ⟨n, hn, hcn⟩
      rw [secretNames, Text.flatten_pathNames, List.mem_filter, forward_eq, List.mem_map] at hf
      obtain ⟨⟨d, hd, heq⟩, hslash⟩ := hf
      by_cases hb : d = '\\'
      · rw [if_pos hb] at heq
        exact .inl heq.symm
      · rw [if_neg hb] at heq
        exact .inr (heq ▸ hd)
  have hbackslash : '\\' ∉ result.toList := by
    intro hb
    rw [hresult] at hb
    rcases Text.mem_joinNames hb with hs | ⟨n, hn, hbn⟩
    · exact absurd hs (by decide)
    · exact (hproper n hn).2.2 hbn
  have hnames : secretNames result = secretNames path := by
    rw [secretNames, forward_of_notMem hbackslash, hresult]
    exact Text.pathNames_joinNames (fun n hn => ⟨(hproper n hn).1.1, (hproper n hn).2.1⟩)
  have hhead : result.toList.head? ≠ some '/' ∧ result.toList.head? ≠ some '\\' := by
    have htrim : result.toList.dropWhile anySlash = result.toList := by
      rw [hresult]
      exact dropWhile_joinNames (fun n hn => ⟨(hproper n hn).1.1, (hproper n hn).2⟩)
    rw [← htrim]
    constructor
    · intro he
      have hslash := List.head?_dropWhile_not anySlash result.toList
      rw [he] at hslash
      exact absurd (show anySlash '/' = false from hslash) (by decide)
    · intro he
      have hslash := List.head?_dropWhile_not anySlash result.toList
      rw [he] at hslash
      exact absurd (show anySlash '\\' = false from hslash) (by decide)
  refine ⟨?_, hnames⟩
  intro hunfit
  rcases hunfit with hb | hbreak | hslash | hdrive | hdots
  · exact hblank hb
  · refine h (.inr (.inl ?_))
    rcases hbreak with hc | hc | hc
    · exact .inl ((hmem _ hc).resolve_left (by decide))
    · exact .inr (.inl ((hmem _ hc).resolve_left (by decide)))
    · exact .inr (.inr ((hmem _ hc).resolve_left (by decide)))
  · rcases hslash with hs | hs
    · exact hhead.1 hs
    · exact hhead.2 hs
  · -- the first name is that of the path, so the drive was there before
    have hf : (forward path).head? ≠ some '/' := fun hf => h (.inr (.inr (.inl (forward_head?.1 hf))))
    have hpath : path.toList.head? ≠ some '\\' := fun hp => h (.inr (.inr (.inl (.inr hp))))
    refine h (.inr (.inr (.inr (.inl ((startsWithDrive_forward hpath).1 ((startsWithDrive_head hf).2 ?_))))))
    rw [← forward_of_notMem hbackslash] at hdrive hhead
    rw [show pathNames (forward path) = pathNames (forward result) from hnames.symm]
    exact (startsWithDrive_head hhead.1).1 hdrive
  · rw [hasDots_iff, hnames] at hdots
    exact h (.inr (.inr (.inr (.inr (hasDots_iff.2 hdots)))))

/-- The path on the node is strictly below the directory of the profile. -/
theorem combineRemote_below {result profile directory : String} (h : ¬Unfit m path)
    (hresult : result.toList = joinNames '/' (secretNames path))
    (hdirectory : remoteDirectory profile = .ok directory) :
    (lexical (combineRemote directory result).toList).normal.Below (lexical directory.toList).normal := by
  obtain ⟨hne, hproper⟩ := secretNames_fit h
  obtain ⟨hdne, n, t, -, -, -, hprofile⟩ := remoteDirectory_ok hdirectory
  have hb : '\\' ∉ directory.toList := by
    intro hmem
    apply backslash_notMem_forward profile
    rw [hprofile]
    simp [hmem]
  have hnames := fun n hn => (⟨(hproper n hn).1.1, (hproper n hn).2⟩ : n ≠ [] ∧ '/' ∉ n ∧ '\\' ∉ n)
  rw [combineRemote_toList, hresult, dropWhile_joinNames hnames, lexical_below hdne hb,
    Text.pathNames_joinNames (fun n hn => ⟨(hnames n hn).1, (hnames n hn).2.1⟩)]
  exact Text.Lexical.below hne (fun n hn => (hproper n hn).1) _

end Returned

/-! ## The secret stays in the profile's directory -/

/-- Which texts are refused, what the others become, and where that is on the node. -/
theorem normalizeSecretRelativePath_confined (m : LocalMachine) (path : String) :
    ((∃ e, normalizeSecretRelativePath m path = .error e) ↔ Unfit m path) ∧
    ∀ result, normalizeSecretRelativePath m path = .ok result →
      (∃ segments, segments ≠ [] ∧ result.toList = joinNames '/' segments ∧
        segments = (secretSegments path).filter (fun s => !s.isEmpty) ∧
        ∀ s ∈ segments, s ≠ [] ∧ s ≠ ['.'] ∧ s ≠ ['.', '.'] ∧ '/' ∉ s ∧ '\\' ∉ s) ∧
      ((∀ c ∈ result.toList, isWhiteSpace c = true) ∨
        normalizeSecretRelativePath m result = .ok result) ∧
      ∀ profile directory, remoteDirectory profile = .ok directory →
        (lexical (combineRemote directory result).toList).normal.Below
          (lexical directory.toList).normal := by
  refine ⟨normalizeSecretRelativePath_throws_iff, ?_⟩
  intro result hok
  obtain ⟨hfit, hresult⟩ := normalizeSecretRelativePath_fit hok
  obtain ⟨hne, hproper⟩ := secretNames_fit hfit
  refine ⟨⟨secretNames path, hne, hresult, secretNames_eq path, fun s hs => ?_⟩, ?_, ?_⟩
  · obtain ⟨⟨hempty, hdot, hdots⟩, hslash, hback⟩ := hproper s hs
    exact ⟨hempty, hdot, hdots, hslash, hback⟩
  · by_cases hblank : ∀ c ∈ result.toList, isWhiteSpace c = true
    · exact .inl hblank
    · obtain ⟨hagain, hnames⟩ := fit_joinNames hfit hresult hblank
      rcases normalizeSecretRelativePath_spec m result with hs | hs
      · exact absurd hs.1 hagain
      · right
        rw [hs.2, hnames, ← hresult, String.ofList_toList]
  · exact fun profile directory hdirectory => combineRemote_below hfit hresult hdirectory

theorem private_secret_confined :
    normalizeSecretRelativePath managerMachine "private\\\\network.secret" = .ok "private/network.secret" ∧
    (lexical (combineRemote "/etc/../opt" "private/network.secret").toList).normal.Below
      (lexical "/etc/../opt".toList).normal := by
  have hok : normalizeSecretRelativePath managerMachine "private\\\\network.secret"
      = .ok "private/network.secret" := rfl
  have hdirectory : remoteDirectory "/etc/../opt/network.json" = .ok "/etc/../opt" := rfl
  exact ⟨hok, ((normalizeSecretRelativePath_confined _ _).2 _ hok).2.2 _ _ hdirectory⟩

end DeploymentValidation

end EasyTierHost
