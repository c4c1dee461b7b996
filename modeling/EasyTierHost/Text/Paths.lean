import Mathlib.Data.List.DropRight
import Mathlib.Tactic.Common

/- Path texts and the full paths they lead to, as the path functions of .NET take them
   on either system: a text is split at its separators, empty names and dots are
   dropped, and two dots go up. A full path is its volume, where the system has any,
   and its names. `rooted` says where a text leads that does not start at the given
   directory; on Windows that depends on drives and is a parameter. -/
namespace Text

abbrev Name := List Char

/-- The text of a relative path. -/
def joinNames (separator : Char) (ns : List Name) : List Char := [separator].intercalate ns

@[simp] theorem joinNames_singleton (s : Char) (n : Name) : joinNames s [n] = n :=
  List.intercalate_singleton

theorem joinNames_cons_cons (s : Char) (n m : Name) (ns : List Name) :
    joinNames s (n :: m :: ns) = n ++ s :: joinNames s (m :: ns) := by
  rw [joinNames, List.intercalate_cons_cons, List.append_assoc]
  rfl

theorem joinNames_concat (s : Char) (l : Name) : ∀ {ns : List Name}, ns ≠ [] →
    joinNames s (ns ++ [l]) = joinNames s ns ++ s :: l
  | [], h => absurd rfl h
  | [n], _ => by
    rw [List.singleton_append, joinNames_cons_cons, joinNames_singleton, joinNames_singleton]
  | n :: m :: ns, _ => by
    have ih := joinNames_concat s l (List.cons_ne_nil m ns)
    rw [List.cons_append, List.cons_append, joinNames_cons_cons, ← List.cons_append, ih,
      joinNames_cons_cons, List.append_assoc, List.cons_append]

theorem mem_joinNames {s c : Char} : ∀ {ns : List Name}, c ∈ joinNames s ns → c = s ∨ ∃ n ∈ ns, c ∈ n
  | [], h => by simp [joinNames] at h
  | [n], h => by
    rw [joinNames_singleton] at h
    exact .inr ⟨n, List.mem_cons_self, h⟩
  | n :: m :: ns, h => by
    rw [joinNames_cons_cons, List.mem_append, List.mem_cons] at h
    rcases h with h | h | h
    · exact .inr ⟨n, List.mem_cons_self, h⟩
    · exact .inl h
    · rcases mem_joinNames h with hs | ⟨k, hk, hc⟩
      · exact .inl hs
      · exact .inr ⟨k, List.mem_cons_of_mem n hk, hc⟩

/-- A text that equals that of a path up to a change of letters is that of a path. -/
theorem joinNames_of_map {s : Char} {u : Char → Char} (hs : ∀ c, u c = u s → c = s) :
    ∀ {ns : List Name} {t : List Char}, ns ≠ [] → t.map u = (joinNames s ns).map u →
      ∃ ms, t = joinNames s ms ∧ ms.map (List.map u) = ns.map (List.map u)
  | [], _, hne, _ => absurd rfl hne
  | [n], t, _, h => by
    rw [joinNames_singleton] at h
    refine ⟨[t], ?_, ?_⟩
    · rw [joinNames_singleton]
    · simp [h]
  | n :: m :: ns, t, _, h => by
    rw [joinNames_cons_cons, List.map_append, List.map_cons, List.map_eq_append_iff] at h
    obtain ⟨k, t', rfl, hk, h⟩ := h
    obtain ⟨c, r, rfl, hc, hr⟩ := List.map_eq_cons_iff.1 h
    obtain ⟨ms, rfl, hms⟩ := joinNames_of_map hs (List.cons_ne_nil m ns) hr
    cases ms with
    | nil => simp at hms
    | cons l ls =>
      refine ⟨k :: l :: ls, ?_, ?_⟩
      · rw [hs c hc, joinNames_cons_cons]
      · rw [List.map_cons, hk, hms]
        exact List.map_cons.symm

/-! ## Texts that differ in slashes only -/

/-- The names of a text; repeated and trailing slashes name nothing. -/
def pathNames (text : List Char) : List Name := (text.splitOn '/').filter (fun n => !n.isEmpty)

/-- A path text with its repeated and trailing slashes collapsed. -/
structure Lexical where
  absolute : Bool
  names : List Name
  deriving DecidableEq, Repr

def lexical (text : List Char) : Lexical := ⟨text.head? == some '/', pathNames text⟩

theorem pathNames_append_slash (a b : List Char) :
    pathNames (a ++ '/' :: b) = pathNames a ++ pathNames b := by
  rw [pathNames, List.splitOn_append_cons_self, List.filter_append]
  rfl

theorem pathNames_name {n : Name} (hne : n ≠ []) (h : '/' ∉ n) : pathNames n = [n] := by
  rw [pathNames, List.splitOn_eq_singleton h]
  simp [hne]

theorem pathNames_append_slashes (a : List Char) : ∀ {t : List Char}, (∀ c ∈ t, c = '/') →
    pathNames (a ++ t) = pathNames a
  | [], _ => by rw [List.append_nil]
  | c :: t, h => by
    have hc : c = '/' := h c List.mem_cons_self
    have ht : pathNames ([] ++ t) = pathNames [] :=
      pathNames_append_slashes [] (fun d hd => h d (List.mem_cons_of_mem c hd))
    have hnil : pathNames [] = [] := rfl
    rw [hc, pathNames_append_slash]
    rw [List.nil_append, hnil] at ht
    rw [ht, List.append_nil]

theorem pathNames_joinNames {ns : List Name} (h : ∀ n ∈ ns, n ≠ [] ∧ '/' ∉ n) :
    pathNames (joinNames '/' ns) = ns := by
  by_cases hne : ns = []
  · rw [hne]
    rfl
  · rw [pathNames, joinNames, List.splitOn_intercalate '/' (fun n hn => (h n hn).2) hne,
      List.filter_eq_self]
    intro n hn
    simpa using (h n hn).1

theorem flatten_splitOn_slash : ∀ text : List Char,
    (text.splitOn '/').flatten = text.filter (fun c => c != '/')
  | [] => rfl
  | x :: xs => by
    have ih := flatten_splitOn_slash xs
    rw [List.splitOn_cons_eq_if_modifyHead]
    by_cases hx : x = '/'
    · rw [if_pos (by simpa using hx), List.flatten_cons, ih, List.filter_cons_of_neg (by simpa using hx)]
      rfl
    · obtain ⟨r, rs, hr⟩ := List.exists_cons_of_ne_nil (List.splitOn_ne_nil '/' xs)
      rw [if_neg (by simpa using hx), List.filter_cons_of_pos (by simpa using hx), ← ih, hr]
      rfl

/-- The names hold every character but the slashes. -/
theorem flatten_pathNames (text : List Char) :
    (pathNames text).flatten = text.filter (fun c => c != '/') := by
  rw [pathNames, List.flatten_filter_not_isEmpty, flatten_splitOn_slash]

theorem mem_pathNames {text : List Char} {n : Name} (h : n ∈ pathNames text) :
    n ≠ [] ∧ '/' ∉ n := by
  constructor
  · rw [pathNames, List.mem_filter] at h
    simpa using h.2
  · intro hmem
    have hflat : '/' ∈ (pathNames text).flatten := List.mem_flatten.2 ⟨n, h, hmem⟩
    rw [flatten_pathNames, List.mem_filter] at hflat
    exact absurd hflat.2 (by decide)

/-- Texts of the same names have the same characters, up to slashes. -/
theorem mem_of_lexical_eq {a b : List Char} {c : Char} (h : lexical a = lexical b) (hc : c ≠ '/')
    (ha : c ∈ a) : c ∈ b := by
  have hnames : pathNames a = pathNames b := congrArg Lexical.names h
  have hmem : c ∈ a.filter (fun c => c != '/') := List.mem_filter.2 ⟨ha, by simpa using hc⟩
  rw [← flatten_pathNames, hnames, flatten_pathNames] at hmem
  exact (List.mem_filter.1 hmem).1

/-- A suffix leads to another file. -/
theorem lexical_append_ne {suffix : Name} (hne : suffix ≠ []) (h : '/' ∉ suffix) (a : List Char) :
    lexical a ≠ lexical (a ++ suffix) := by
  intro he
  have hnames : pathNames a = pathNames (a ++ suffix) := congrArg Lexical.names he
  have hsuffix : suffix.filter (fun c => c != '/') = suffix := by
    rw [List.filter_eq_self]
    intro c hc
    simpa using fun hs : c = '/' => h (hs ▸ hc)
  have hflat := congrArg (fun ns => ns.flatten.length) hnames
  simp only [flatten_pathNames, List.filter_append, hsuffix, List.length_append] at hflat
  have hpos : 0 < suffix.length := List.length_pos_of_ne_nil hne
  omega

theorem pathNames_concat {a : List Char} {n : Name} (hne : n ≠ []) (h : '/' ∉ n) :
    pathNames (a ++ '/' :: n) = pathNames a ++ [n] := by
  rw [pathNames_append_slash, pathNames_name hne h]

/-! ## Full paths -/

/-- One name further. -/
def descend (floor : Nat) (path : List Name) (n : Name) : List Name :=
  if n = [] ∨ n = ['.'] then path
  else if n = ['.', '.'] then if path.length ≤ floor then path else path.dropLast
  else path ++ [n]

/-- A name that leads down. -/
def Proper (n : Name) : Prop := n ≠ [] ∧ n ≠ ['.'] ∧ n ≠ ['.', '.']

theorem foldl_descend {floor : Nat} : ∀ {ns : List Name}, (∀ n ∈ ns, Proper n) → ∀ path : List Name,
    ns.foldl (descend floor) path = path ++ ns
  | [], _, path => by simp
  | n :: ns, h, path => by
    have hn := h n List.mem_cons_self
    have hstep : descend floor path n = path ++ [n] := by
      simp [descend, hn.1, hn.2.1, hn.2.2]
    rw [List.foldl_cons, hstep, foldl_descend (fun m hm => h m (List.mem_cons_of_mem n hm))]
    simp

/-! ## Normal forms -/

/-- A path text with its dots resolved: how often it leads out of where it starts, and
the names it leads down from there. -/
structure Normal where
  absolute : Bool
  ups : Nat
  names : List Name
  deriving DecidableEq, Repr

/-- One name further. Two dots at the root stay there. -/
def Normal.walk (p : Normal) (n : Name) : Normal :=
  if n = ['.'] then p
  else if n = ['.', '.'] then
    if p.names ≠ [] then { p with names := p.names.dropLast }
    else if p.absolute then p
    else { p with ups := p.ups + 1 }
  else { p with names := p.names ++ [n] }

def Lexical.normal (l : Lexical) : Normal := l.names.foldl Normal.walk ⟨l.absolute, 0, []⟩

/-- A path strictly below another. -/
def Normal.Below (p root : Normal) : Prop :=
  p.absolute = root.absolute ∧ p.ups = root.ups ∧ ∃ ns, ns ≠ [] ∧ p.names = root.names ++ ns

theorem Normal.foldl_walk : ∀ {ns : List Name}, (∀ n ∈ ns, Proper n) → ∀ p : Normal,
    ns.foldl Normal.walk p = { p with names := p.names ++ ns }
  | [], _, p => by simp
  | n :: ns, h, p => by
    have hn := h n List.mem_cons_self
    have hstep : p.walk n = { p with names := p.names ++ [n] } := by
      simp [Normal.walk, hn.2.1, hn.2.2]
    rw [List.foldl_cons, hstep, foldl_walk (fun m hm => h m (List.mem_cons_of_mem n hm))]
    simp

/-- Proper names lead down from any path. -/
theorem Lexical.below {absolute : Bool} {ns : List Name} (hne : ns ≠ []) (h : ∀ n ∈ ns, Proper n)
    (root : List Name) :
    (Lexical.normal ⟨absolute, root ++ ns⟩).Below (Lexical.normal ⟨absolute, root⟩) := by
  have hwalk : Lexical.normal ⟨absolute, root ++ ns⟩
      = ns.foldl Normal.walk (Lexical.normal ⟨absolute, root⟩) := by
    show (root ++ ns).foldl Normal.walk _ = _
    rw [List.foldl_append]
    rfl
  rw [hwalk, Normal.foldl_walk h]
  exact ⟨rfl, rfl, ns, hne, rfl⟩

/-- The path functions of a system. -/
structure PathRules where
  separator : Char
  isSeparator : Char → Bool
  /-- Where a rooted text leads. -/
  rooted : List Char → Option (List Name)
  /-- How many names of a full path two dots cannot leave. -/
  floor : Nat
  /-- What is cut off the names of a text. -/
  trim : List Name → List Name
  /-- The names a file can have. -/
  valid : Name → Bool
  separator_separates : isSeparator separator = true
  slash_separates : isSeparator '/' = true
  valid_proper : ∀ n, valid n = true → Proper n
  valid_unseparated : ∀ n, valid n = true → ∀ c ∈ n, isSeparator c = false
  valid_trim : ∀ ns, (∀ n ∈ ns, valid n = true) → trim ns = ns
  valid_relative : ∀ n rest, valid n = true → (∀ c ∈ rest.head?, isSeparator c = true) →
    rooted (n ++ rest) = none

namespace PathRules
variable (rules : PathRules)

/-- `Path.GetFullPath(Path.Combine(root, text))`. -/
def full (root : List Name) (text : List Char) : List Name :=
  match rules.rooted text with
  | some path => path
  | none => (rules.trim (text.splitOnP rules.isSeparator)).foldl (descend rules.floor) root

/-- A text that ends in a separator leads to no file. -/
def trailing (text : List Char) : Bool :=
  (rules.trim (text.splitOnP rules.isSeparator)).getLast? == some []

/-- The text of a full path. -/
def text (path : List Name) : List Char := path.flatMap (fun n => rules.separator :: n)

variable {rules}

theorem splitOnP_joinNames : ∀ {ns : List Name}, ns ≠ [] → (∀ n ∈ ns, rules.valid n = true) →
    (joinNames rules.separator ns).splitOnP rules.isSeparator = ns
  | [], hne, _ => absurd rfl hne
  | [n], _, h => by
    rw [joinNames_singleton]
    exact List.splitOnP_eq_singleton (rules.valid_unseparated n (h n List.mem_cons_self))
  | n :: m :: ns, _, h => by
    have hrest := splitOnP_joinNames (List.cons_ne_nil m ns) (fun k hk => h k (List.mem_cons_of_mem n hk))
    have hn := rules.valid_unseparated n (h n List.mem_cons_self)
    rw [joinNames_cons_cons,
      List.splitOnP_append_cons_of_forall_mem hn _ rules.separator_separates, hrest]

theorem rooted_joinNames {ns : List Name} (hne : ns ≠ []) (h : ∀ n ∈ ns, rules.valid n = true) :
    rules.rooted (joinNames rules.separator ns) = none := by
  match ns, hne with
  | [n], _ =>
    have hr := rules.valid_relative n [] (h n List.mem_cons_self) (by simp)
    rw [List.append_nil] at hr
    rw [joinNames_singleton]
    exact hr
  | n :: m :: ns, _ =>
    rw [joinNames_cons_cons]
    apply rules.valid_relative n _ (h n List.mem_cons_self)
    simp [rules.separator_separates]

/-- The text of a path below a directory leads there. -/
theorem full_joinNames {ns : List Name} (hne : ns ≠ []) (h : ∀ n ∈ ns, rules.valid n = true)
    (root : List Name) : rules.full root (joinNames rules.separator ns) = root ++ ns := by
  rw [full, rooted_joinNames hne h]
  change (rules.trim _).foldl _ _ = _
  rw [splitOnP_joinNames hne h, rules.valid_trim ns h]
  exact foldl_descend (fun n hn => rules.valid_proper n (h n hn)) root

theorem trailing_joinNames {ns : List Name} (hne : ns ≠ []) (h : ∀ n ∈ ns, rules.valid n = true) :
    rules.trailing (joinNames rules.separator ns) = false := by
  rw [trailing, splitOnP_joinNames hne h, rules.valid_trim ns h, List.getLast?_eq_some_getLast hne]
  have hlast := rules.valid_proper _ (h _ (List.getLast_mem hne))
  simpa using hlast.1

theorem slash_notMem {n : Name} (h : rules.valid n = true) : '/' ∉ n := by
  intro hmem
  have hsep := rules.valid_unseparated n h '/' hmem
  rw [rules.slash_separates] at hsep
  exact Bool.noConfusion hsep

theorem text_eq_cons : ∀ {ns : List Name}, ns ≠ [] →
    rules.text ns = rules.separator :: joinNames rules.separator ns
  | [], hne => absurd rfl hne
  | [n], _ => by
    rw [text, joinNames_singleton, List.flatMap_singleton]
  | n :: m :: ns, _ => by
    have hrest := text_eq_cons (List.cons_ne_nil m ns)
    rw [text] at hrest ⊢
    rw [List.flatMap_cons, hrest, joinNames_cons_cons]
    rfl

@[simp] theorem text_append (a b : List Name) : rules.text (a ++ b) = rules.text a ++ rules.text b := by
  rw [text, List.flatMap_append]
  rfl

/-! ## The two systems -/

/-- Linux: every character but the slash and NUL may stand in a name. -/
def unix : PathRules where
  separator := '/'
  isSeparator c := c == '/'
  rooted s := if s.head? = some '/' then some ((s.splitOnP (· == '/')).foldl (descend 0) []) else none
  floor := 0
  trim := id
  valid n := n != [] && n != ['.'] && n != ['.', '.'] && n.all (fun c => c != '/' && c != '\x00')
  separator_separates := rfl
  slash_separates := rfl
  valid_proper n h := by
    simp only [Bool.and_eq_true, bne_iff_ne] at h
    exact ⟨h.1.1.1, h.1.1.2, h.1.2⟩
  valid_unseparated n h c hc := by
    simp only [Bool.and_eq_true, List.all_eq_true] at h
    have hslash := (h.2 c hc).1
    simpa using hslash
  valid_trim _ _ := rfl
  valid_relative n rest h _ := by
    cases n with
    | nil => simp at h
    | cons c cs =>
      have hslash : c ≠ '/' := by
        simp only [Bool.and_eq_true, List.all_eq_true] at h
        simpa using (h.2 c List.mem_cons_self).1
      simp [hslash]

/-- Windows cuts a single dot off a name, and all dots and spaces off the last. -/
def trimDots (ns : List Name) : List Name :=
  let inner (n : Name) : Name :=
    if n.getLast? = some '.' ∧ n.dropLast.getLast? ≠ some '.' ∧ n ≠ ['.'] then n.dropLast else n
  let last (n : Name) : Name :=
    if n = ['.'] ∨ n = ['.', '.'] then n else n.rdropWhile (fun c => c == '.' || c == ' ')
  ns.dropLast.map inner ++ (ns.getLast?.map last).toList

/-- The characters Windows allows in no name. -/
def reserved : List Char := ['/', '\\', ':', '*', '?', '"', '<', '>', '|', '\x00']

def windowsName (n : Name) : Bool :=
  n != [] && n.all (fun c => !reserved.contains c) && n.getLast? != some '.' && n.getLast? != some ' '

theorem trimDots_names {ns : List Name} (h : ∀ n ∈ ns, windowsName n = true) : trimDots ns = ns := by
  have hlast : ∀ n ∈ ns, n ≠ [] ∧ n.getLast? ≠ some '.' ∧ n.getLast? ≠ some ' ' := by
    intro n hn
    have hv := h n hn
    simp only [windowsName, Bool.and_eq_true, bne_iff_ne] at hv
    exact ⟨hv.1.1.1, hv.1.2, hv.2⟩
  rcases List.eq_nil_or_concat ns with rfl | ⟨ms, n, rfl⟩
  · rfl
  · have hn := hlast n (by simp)
    have hinner : ms.map (fun n => if n.getLast? = some '.' ∧ n.dropLast.getLast? ≠ some '.' ∧ n ≠ ['.']
        then n.dropLast else n) = ms := by
      conv_rhs => rw [← List.map_id ms]
      apply List.map_congr_left
      intro m hm
      simp [(hlast m (by simp [hm])).2.1]
    have hdrop : n.rdropWhile (fun c => c == '.' || c == ' ') = n := by
      rw [List.rdropWhile_eq_self_iff]
      intro hne
      have hl := List.getLast?_eq_some_getLast hne
      rw [hl] at hn
      simpa using hn.2
    simp only [trimDots, List.concat_eq_append, List.dropLast_concat, List.getLast?_concat,
      Option.map_some, Option.toList_some, hinner, hdrop, ite_self]

/-- A name of the same letters under a function that keeps what Windows treats apart. -/
theorem windowsName_of_map {u : Char → Char} {n m : Name}
    (hu : ∀ c ∈ '.' :: ' ' :: reserved, ∀ d, u d = u c → d = c)
    (h : m.map u = n.map u) (hn : windowsName n = true) : windowsName m = true := by
  simp only [windowsName, Bool.and_eq_true, bne_iff_ne, List.all_eq_true, Bool.not_eq_true'] at hn ⊢
  obtain ⟨⟨⟨hne, hall⟩, hdot⟩, hspace⟩ := hn
  have hlast : ∀ c ∈ '.' :: ' ' :: reserved, n.getLast? ≠ some c → m.getLast? ≠ some c := by
    intro c hc hnc hmc
    have hl := congrArg List.getLast? h
    rw [List.getLast?_map, List.getLast?_map, hmc, Option.map_some, eq_comm, Option.map_eq_some_iff] at hl
    obtain ⟨d, hd, hdc⟩ := hl
    rw [hu c hc d hdc] at hd
    exact hnc hd
  refine ⟨⟨⟨?_, ?_⟩, hlast '.' (by simp) hdot⟩, hlast ' ' (by simp) hspace⟩
  · intro hm
    rw [hm, List.map_nil, eq_comm, List.map_eq_nil_iff] at h
    exact hne h
  · intro c hc
    rw [Bool.eq_false_iff]
    intro hres
    have hmem : u c ∈ n.map u := h ▸ List.mem_map_of_mem hc
    obtain ⟨d, hd, hdc⟩ := List.mem_map.1 hmem
    have hcr : c ∈ reserved := List.contains_iff_mem.1 hres
    have hdn := hall d hd
    rw [hu c (by simp [hcr]) d hdc, hres] at hdn
    exact Bool.noConfusion hdn

/-- Windows; `drive` says where a rooted text leads. -/
def windows (drive : List Char → List Name) : PathRules where
  separator := '\\'
  isSeparator c := c == '\\' || c == '/'
  rooted s :=
    match s with
    | c :: cs =>
      if c == '\\' || c == '/' || (c.isAlpha && cs.head? == some ':') then some (drive s) else none
    | [] => none
  floor := 1
  trim := trimDots
  valid := windowsName
  separator_separates := rfl
  slash_separates := rfl
  valid_proper n h := by
    simp only [windowsName, Bool.and_eq_true, bne_iff_ne] at h
    refine ⟨h.1.1.1, ?_, ?_⟩
    · intro he
      rw [he] at h
      exact h.1.2 rfl
    · intro he
      rw [he] at h
      exact h.1.2 rfl
  valid_unseparated n h c hc := by
    simp only [windowsName, Bool.and_eq_true, List.all_eq_true] at h
    have hr := h.1.1.2 c hc
    simp only [reserved, Bool.not_eq_true', List.contains_cons, Bool.or_eq_false_iff] at hr
    simp [hr.1, hr.2.1]
  valid_trim _ := trimDots_names
  valid_relative n rest h hrest := by
    simp only [windowsName, Bool.and_eq_true, List.all_eq_true] at h
    have hr : ∀ c ∈ n, c ≠ '/' ∧ c ≠ '\\' ∧ c ≠ ':' := by
      intro c hc
      have hc := h.1.1.2 c hc
      simp only [reserved, Bool.not_eq_true', List.contains_cons, Bool.or_eq_false_iff,
        beq_eq_false_iff_ne] at hc
      exact ⟨hc.1, hc.2.1, hc.2.2.1⟩
    match n with
    | [] => simp at h
    | [c] =>
      have hc := hr c List.mem_cons_self
      have hcolon : rest.head? ≠ some ':' := by
        intro he
        have hsep := hrest ':' he
        simp at hsep
      simp [hc, hcolon]
    | c :: d :: cs =>
      have hc := hr c List.mem_cons_self
      have hd := hr d (by simp)
      simp [hc, hd]

end PathRules

end Text
