import Mathlib.Data.List.TakeWhile
import Mathlib.Tactic.Common

/- Shell-style substitution of environment variables in a text. A text is cut
   into pieces: characters copied as they are, `$$`, `$NAME` with the longest
   name there is, and `${...}` up to the next closing brace. A `$` in front of
   anything else, and a `${` that is never closed, are characters like any
   other. `Expander` is an implementation of the substitution given by what is
   documented of it: the text is replaced piece by piece, a set variable by its
   value, an unset one by the default after `:-`, and an unset one without a
   default fails the whole substitution. Which characters a name is made of, and
   whether a variable set to the empty text counts as unset where a default is
   given, is left to the implementation.

   The question answered here is when a text survives: substitution leaves it
   alone in every environment exactly when it is `Inert`. -/
namespace Text

/-- Names and values, in the order the process holds them. -/
abbrev Environment := List (List Char × List Char)

/-- `settable` says which names a process environment can hold at all. -/
def Environment.Legal (settable : List Char → Bool) (env : Environment) : Prop :=
  ∀ v ∈ env, settable v.1 = true

/-! ## Pieces -/

inductive Piece where
  | char (c : Char)
  | escape
  | word (c : Char) (cs : List Char)
  | braced (body : List Char)
  deriving DecidableEq, Repr

/-- The two sides of the first `:-`. -/
def splitDefault : List Char → Option (List Char × List Char)
  | ':' :: '-' :: cs => some ([], cs)
  | [] => none
  | c :: cs => (splitDefault cs).map (fun s => (c :: s.1, s.2))

namespace Piece

/-- The text a piece was read from. -/
def raw : Piece → List Char
  | char c => [c]
  | escape => ['$', '$']
  | word c cs => '$' :: c :: cs
  | braced body => '$' :: '{' :: (body ++ ['}'])

/-- The variable a piece refers to and its default. A `:-` with no name before
it belongs to the name. -/
def reference : Piece → Option (List Char × Option (List Char))
  | char _ => none
  | escape => none
  | word c cs => some (c :: cs, none)
  | braced body =>
    match splitDefault body with
    | some (c :: name, d) => some (c :: name, some d)
    | _ => some (body, none)

/-- A piece that is copied. -/
def plain : Piece → Bool
  | char _ => true
  | _ => false

/-- A reference without a default to a name that no environment holds. -/
def fails (settable : List Char → Bool) (p : Piece) : Bool :=
  match p.reference with
  | some (name, none) => !settable name
  | _ => false

end Piece

/-- The text before and after the first closing brace. -/
def closing (cs : List Char) : Option (List Char × List Char) :=
  match cs.dropWhile (· != '}') with
  | [] => none
  | _ :: rest => some (cs.takeWhile (· != '}'), rest)

/-- The piece behind a `$`, and what follows it. -/
def dollar (nameChar : Char → Bool) : List Char → Piece × List Char
  | [] => (.char '$', [])
  | c :: cs =>
    if c = '$' then (.escape, cs)
    else if c = '{' then
      match closing cs with
      | some (body, rest) => (.braced body, rest)
      | none => (.char '$', c :: cs)
    else if nameChar c then
      (.word c (cs.takeWhile nameChar), cs.dropWhile nameChar)
    else (.char '$', c :: cs)

/-- The first piece of a text, and what follows it. -/
def next (nameChar : Char → Bool) (c : Char) (cs : List Char) : Piece × List Char :=
  if c = '$' then dollar nameChar cs else (.char c, cs)

/-- The first `fuel` pieces of a text. -/
def scan (nameChar : Char → Bool) : Nat → List Char → List Piece
  | 0, _ => []
  | _ + 1, [] => []
  | fuel + 1, c :: cs => (next nameChar c cs).1 :: scan nameChar fuel (next nameChar c cs).2

/-- The pieces of a text: there are no more of them than characters. -/
def pieces (nameChar : Char → Bool) (t : List Char) : List Piece := scan nameChar t.length t

/-! ## What an implementation is known to do -/

structure Expander where
  nameChar : Char → Bool
  /-- What a set variable gives where a default is written. -/
  orDefault : List Char → List Char → List Char
  expand : Environment → List Char → Option (List Char)
  /-- Whether the result is a new text, and not the one that was given. -/
  owned : Environment → List Char → Bool
  /-- Among the ASCII characters a name has letters, digits and underscores. -/
  nameChar_ascii : ∀ c : Char, c.toNat < 128 → nameChar c = (c.isAlphanum || c == '_')
  orDefault_filled : ∀ v d, v ≠ [] → orDefault v d = v
  expand_nil : ∀ env, expand env [] = some []
  expand_char : ∀ env c cs c' rest, next nameChar c cs = (.char c', rest) →
    expand env (c :: cs) = (expand env rest).map (c' :: ·)
  expand_escape : ∀ env c cs rest, next nameChar c cs = (.escape, rest) →
    expand env (c :: cs) = (expand env rest).map ('$' :: ·)
  expand_unset : ∀ env c cs p rest name, next nameChar c cs = (p, rest) →
    p.reference = some (name, none) → env.lookup name = none → expand env (c :: cs) = none
  expand_set : ∀ env c cs p rest name v, next nameChar c cs = (p, rest) →
    p.reference = some (name, none) → env.lookup name = some v →
    expand env (c :: cs) = (expand env rest).map (v ++ ·)
  expand_default : ∀ env c cs p rest name d, next nameChar c cs = (p, rest) →
    p.reference = some (name, some d) → env.lookup name = none →
    expand env (c :: cs) = (expand env rest).map (d ++ ·)
  expand_filled : ∀ env c cs p rest name d v, next nameChar c cs = (p, rest) →
    p.reference = some (name, some d) → env.lookup name = some v →
    expand env (c :: cs) = (expand env rest).map (orDefault v d ++ ·)

/-! ## Scanning -/

theorem closing_eq_some {cs body rest : List Char} (h : closing cs = some (body, rest)) :
    cs = body ++ '}' :: rest := by
  unfold closing at h
  split at h
  · cases h
  next c rest' hd =>
    simp only [Option.some.injEq, Prod.mk.injEq] at h
    obtain ⟨rfl, rfl⟩ := h
    have hc : c = '}' := by
      have hne : cs.dropWhile (· != '}') ≠ [] := by simp [hd]
      have := List.head_dropWhile_not (· != '}') hne
      simpa [hd] using this
    have ht : cs.takeWhile (· != '}') ++ cs.dropWhile (· != '}') = cs :=
      List.takeWhile_append_dropWhile
    rw [hd, hc] at ht
    exact ht.symm

theorem raw_dollar (nameChar : Char → Bool) (cs : List Char) :
    (dollar nameChar cs).1.raw ++ (dollar nameChar cs).2 = '$' :: cs := by
  cases cs with
  | nil => rfl
  | cons c cs =>
    simp only [dollar]
    split
    · next h => simp [Piece.raw, h]
    · split
      · next h =>
        split
        · next body rest hc => simp [Piece.raw, h, closing_eq_some hc]
        · simp [Piece.raw]
      · split <;> simp [Piece.raw]

/-- Nothing is lost: a piece and what follows it are the text. -/
theorem raw_next (nameChar : Char → Bool) (c : Char) (cs : List Char) :
    (next nameChar c cs).1.raw ++ (next nameChar c cs).2 = c :: cs := by
  unfold next
  split
  · next h => rw [raw_dollar, h]
  · rfl

theorem Piece.raw_pos (p : Piece) : 0 < p.raw.length := by
  cases p <;> simp [raw]

theorem next_length (nameChar : Char → Bool) (c : Char) (cs : List Char) :
    (next nameChar c cs).2.length ≤ cs.length := by
  have h := congrArg List.length (raw_next nameChar c cs)
  have hp := (next nameChar c cs).1.raw_pos
  simp only [List.length_append, List.length_cons] at h
  omega

theorem scan_eq (nameChar : Char → Bool) : ∀ (n m : Nat) (t : List Char), t.length ≤ n →
    t.length ≤ m → scan nameChar n t = scan nameChar m t
  | 0, 0, _, _, _ => rfl
  | 0, _ + 1, [], _, _ => rfl
  | _ + 1, 0, [], _, _ => rfl
  | _ + 1, _ + 1, [], _, _ => rfl
  | n + 1, m + 1, c :: cs, hn, hm => by
    have hl := next_length nameChar c cs
    simp only [List.length_cons] at hn hm
    simp only [scan]
    rw [scan_eq nameChar n m _ (by omega) (by omega)]

@[simp] theorem pieces_nil (nameChar : Char → Bool) : pieces nameChar [] = [] := rfl

theorem pieces_cons (nameChar : Char → Bool) (c : Char) (cs : List Char) :
    pieces nameChar (c :: cs) = (next nameChar c cs).1 :: pieces nameChar (next nameChar c cs).2 := by
  have hl := next_length nameChar c cs
  simp only [pieces, List.length_cons, scan]
  rw [scan_eq nameChar _ _ _ hl (Nat.le_refl _)]

/-- Induction along the pieces of a text. -/
theorem piece_induction (nameChar : Char → Bool) {motive : List Char → Prop} (nil : motive [])
    (cons : ∀ c cs, motive (next nameChar c cs).2 → motive (c :: cs)) (t : List Char) : motive t := by
  induction h : t.length using Nat.strong_induction_on generalizing t with
  | _ n ih =>
    cases t with
    | nil => exact nil
    | cons c cs =>
      have hl := next_length nameChar c cs
      have hn : (next nameChar c cs).2.length < n := by
        rw [← h, List.length_cons]
        omega
      exact cons c cs (ih _ hn _ rfl)

/-- The pieces of a text spell it. -/
theorem pieces_raw (nameChar : Char → Bool) (t : List Char) :
    (pieces nameChar t).flatMap Piece.raw = t := by
  induction t using piece_induction nameChar with
  | nil => rfl
  | cons c cs ih => rw [pieces_cons, List.flatMap_cons, ih, raw_next]

/-! ## The expansion of a text -/

/-- What one piece becomes. -/
def value (orDefault : List Char → List Char → List Char) (env : Environment) (p : Piece) :
    Option (List Char) :=
  match p, p.reference with
  | .char c, _ => some [c]
  | _, none => some ['$']
  | _, some (name, none) => env.lookup name
  | _, some (name, some d) => some (((env.lookup name).map (orDefault · d)).getD d)

/-- What the pieces of a text become, if none of them fails. -/
def render (orDefault : List Char → List Char → List Char) (env : Environment) :
    List Piece → Option (List Char)
  | [] => some []
  | p :: ps => (value orDefault env p).bind (fun v => (render orDefault env ps).map (v ++ ·))

section value
variable {orDefault : List Char → List Char → List Char} {env : Environment} {p : Piece}

theorem Piece.plain_of_reference {r} (h : p.reference = some r) : p.plain = false := by
  cases p <;> first | rfl | cases h

theorem value_undefaulted {name : List Char} (h : p.reference = some (name, none)) :
    value orDefault env p = env.lookup name := by
  have hp := Piece.plain_of_reference h
  unfold value
  split <;> simp_all [Piece.plain]

theorem value_defaulted {name d : List Char} (h : p.reference = some (name, some d)) :
    value orDefault env p = some (((env.lookup name).map (orDefault · d)).getD d) := by
  have hp := Piece.plain_of_reference h
  unfold value
  split <;> simp_all [Piece.plain]

end value

namespace Expander
variable (x : Expander)

theorem expand_next (env : Environment) (c : Char) (cs : List Char) :
    x.expand env (c :: cs) = (value x.orDefault env (next x.nameChar c cs).1).bind
      (fun v => (x.expand env (next x.nameChar c cs).2).map (v ++ ·)) := by
  rcases hn : next x.nameChar c cs with ⟨p, rest⟩
  cases hr : p.reference with
  | none =>
    cases p with
    | char c' => rw [x.expand_char env c cs c' rest hn]; simp [value]
    | escape => rw [x.expand_escape env c cs rest hn]; simp [value, Piece.reference]
    | word c' cs' => cases hr
    | braced body => simp only [Piece.reference] at hr; split at hr <;> cases hr
  | some r =>
    obtain ⟨name, d⟩ := r
    cases d with
    | none =>
      rw [value_undefaulted hr]
      cases hl : env.lookup name with
      | none => rw [x.expand_unset env c cs p rest name hn hr hl]; rfl
      | some v => rw [x.expand_set env c cs p rest name v hn hr hl]; rfl
    | some d =>
      rw [value_defaulted hr]
      cases hl : env.lookup name with
      | none => rw [x.expand_default env c cs p rest name d hn hr hl]; rfl
      | some v => rw [x.expand_filled env c cs p rest name d v hn hr hl]; rfl

theorem expand_eq_render (env : Environment) (t : List Char) :
    x.expand env t = render x.orDefault env (pieces x.nameChar t) := by
  induction t using piece_induction x.nameChar with
  | nil => exact x.expand_nil env
  | cons c cs ih => rw [expand_next, ih, pieces_cons]; rfl

/-- An implementation whose names are ASCII and for which an empty variable is a
set one. -/
def ascii : Expander where
  nameChar c := c.isAlphanum || c == '_'
  orDefault v _ := v
  expand env t := render (fun v _ => v) env (pieces (fun c => c.isAlphanum || c == '_') t)
  owned _ t := t.contains '$'
  nameChar_ascii _ _ := rfl
  orDefault_filled _ _ _ := rfl
  expand_nil _ := rfl
  expand_char env c cs c' rest hn := by simp [pieces_cons, hn, render, value]
  expand_escape env c cs rest hn := by simp [pieces_cons, hn, render, value, Piece.reference]
  expand_unset env c cs p rest name hn hr hl := by
    simp [pieces_cons, hn, render, value_undefaulted hr, hl]
  expand_set env c cs p rest name v hn hr hl := by
    simp [pieces_cons, hn, render, value_undefaulted hr, hl]
  expand_default env c cs p rest name d hn hr hl := by
    simp [pieces_cons, hn, render, value_defaulted hr, hl]
  expand_filled env c cs p rest name d v hn hr hl := by
    simp [pieces_cons, hn, render, value_defaulted hr, hl]

end Expander

/-! ## Texts no environment changes -/

/-- Either there is nothing to substitute, or the substitution always fails. -/
def Inert (settable : List Char → Bool) (ps : List Piece) : Prop :=
  (∀ p ∈ ps, p.plain = true) ∨ ∃ p ∈ ps, p.fails settable = true

instance (settable : List Char → Bool) (ps : List Piece) : Decidable (Inert settable ps) :=
  inferInstanceAs (Decidable (_ ∨ _))

section inert
variable {orDefault : List Char → List Char → List Char} {env : Environment}
  {settable : List Char → Bool}

theorem render_plain {ps : List Piece} (h : ∀ p ∈ ps, p.plain = true) :
    render orDefault env ps = some (ps.flatMap Piece.raw) := by
  induction ps with
  | nil => rfl
  | cons p ps ih =>
    have hp := h p (by simp)
    cases p <;> simp_all [render, value, Piece.plain, Piece.raw]

/-- A name that cannot be set is not found in a legal environment. -/
theorem Environment.Legal.lookup_none (h : env.Legal settable) {name : List Char}
    (hs : settable name = false) : env.lookup name = none := by
  rw [List.lookup_eq_none_iff]
  intro v hv
  have := h v hv
  simp only [bne_iff_ne, ne_eq]
  intro he
  subst he
  simp_all

theorem render_fails (hl : env.Legal settable) {ps : List Piece}
    (h : ∃ p ∈ ps, p.fails settable = true) : render orDefault env ps = none := by
  induction ps with
  | nil => simp at h
  | cons q ps ih =>
    obtain ⟨p, hp, hf⟩ := h
    rcases List.mem_cons.mp hp with rfl | hp
    · have hv : value orDefault env p = none := by
        unfold Piece.fails at hf
        split at hf
        · next name hr =>
          rw [value_undefaulted hr]
          exact hl.lookup_none (by simpa using hf)
        · cases hf
      simp [render, hv]
    · simp [render, ih ⟨p, hp, hf⟩]

theorem splitDefault_eq_some : ∀ {body name d : List Char}, splitDefault body = some (name, d) →
    body = name ++ ':' :: '-' :: d
  | [], _, _, h => by simp [splitDefault] at h
  | c :: cs, name, d, h => by
    unfold splitDefault at h
    split at h
    · next hc =>
      cases h
      exact hc
    · next hc => cases hc
    · next c' cs' _ hc =>
      cases hc
      obtain ⟨⟨n, d'⟩, hs, he⟩ := Option.map_eq_some_iff.mp h
      cases he
      rw [splitDefault_eq_some hs]
      rfl

/-- The environment that gives every name the pieces mention, and that can be
given, the text "x". -/
def marking (settable : List Char → Bool) (ps : List Piece) : Environment :=
  (((ps.filterMap Piece.reference).map Prod.fst).filter settable).map (fun n => (n, ['x']))

theorem marking_legal (ps : List Piece) : (marking settable ps).Legal settable := by
  intro v hv
  obtain ⟨n, hn, rfl⟩ := List.mem_map.mp hv
  exact (List.mem_filter.mp hn).2

theorem marking_lookup {ps : List Piece} {name v : List Char}
    (h : (marking settable ps).lookup name = some v) : v = ['x'] := by
  obtain ⟨l₁, l₂, he, -⟩ := List.lookup_eq_some_iff.mp h
  have hm : (name, v) ∈ marking settable ps := by simp [he]
  obtain ⟨n, -, hn⟩ := List.mem_map.mp hm
  cases hn
  rfl

theorem marking_isSome {ps : List Piece} {p : Piece} (hp : p ∈ ps) {name : List Char}
    {d : Option (List Char)} (hr : p.reference = some (name, d)) (hs : settable name = true) :
    ∃ v, (marking settable ps).lookup name = some v := by
  rw [← Option.isSome_iff_exists, List.lookup_isSome_iff]
  refine ⟨(name, ['x']), ?_, by simp⟩
  refine List.mem_map.mpr ⟨name, List.mem_filter.mpr ⟨?_, hs⟩, rfl⟩
  exact List.mem_map.mpr ⟨(name, d), List.mem_filterMap.mpr ⟨p, hp, hr⟩, rfl⟩

/-- A reference is longer than its default and longer than one character. -/
theorem Piece.reference_length {p : Piece} {name : List Char} {d : Option (List Char)}
    (hr : p.reference = some (name, d)) :
    (d.getD []).length < p.raw.length ∧ 1 < p.raw.length := by
  cases p with
  | char c => cases hr
  | escape => cases hr
  | word c cs =>
    cases hr
    simp [raw]
  | braced body =>
    simp only [reference] at hr
    split at hr
    · next c n e hs =>
      cases hr
      rw [splitDefault_eq_some hs]
      simp only [raw, Option.getD_some, List.length_cons, List.length_append]
      omega
    · cases hr
      simp [raw]

/-- In the marking environment a piece that does not fail becomes a text, and a
shorter one unless it is copied. -/
theorem value_marking (hd : ∀ v d, v ≠ [] → orDefault v d = v) {ps : List Piece} {p : Piece}
    (hp : p ∈ ps) (hf : p.fails settable = false) :
    ∃ v, value orDefault (marking settable ps) p = some v ∧
      (p.plain = true ∧ v = p.raw ∨ v.length < p.raw.length) := by
  cases hr : p.reference with
  | none =>
    cases p with
    | char c => exact ⟨[c], by simp [value], .inl ⟨rfl, rfl⟩⟩
    | escape => exact ⟨['$'], by simp [value, Piece.reference], .inr (by simp [Piece.raw])⟩
    | word c cs => cases hr
    | braced body => simp only [Piece.reference] at hr; split at hr <;> cases hr
  | some r =>
    obtain ⟨name, d⟩ := r
    obtain ⟨hlt, hone⟩ := Piece.reference_length hr
    cases d with
    | none =>
      have hs : settable name = true := by simpa [Piece.fails, hr] using hf
      obtain ⟨v, hv⟩ := marking_isSome hp hr hs
      refine ⟨v, by rw [value_undefaulted hr, hv], .inr ?_⟩
      rw [marking_lookup hv]
      exact hone
    | some d =>
      refine ⟨_, value_defaulted hr, .inr ?_⟩
      cases hv : (marking settable ps).lookup name with
      | none => exact hlt
      | some v =>
        have hx := marking_lookup hv
        have hne : v ≠ [] := by simp [hx]
        rw [Option.map_some, Option.getD_some, hd v d hne, hx]
        exact hone

theorem render_marking (hd : ∀ v d, v ≠ [] → orDefault v d = v) {all : List Piece} :
    ∀ ps : List Piece, (∀ p ∈ ps, p ∈ all) → (∀ p ∈ ps, p.fails settable = false) →
    ∃ out, render orDefault (marking settable all) ps = some out ∧
      ((∀ p ∈ ps, p.plain = true) ∧ out = ps.flatMap Piece.raw ∨
        out.length < (ps.flatMap Piece.raw).length)
  | [], _, _ => ⟨[], rfl, .inl ⟨by simp, rfl⟩⟩
  | p :: ps, ha, hf => by
    obtain ⟨v, hv, hp⟩ := value_marking hd (ha p (by simp)) (hf p (by simp))
    obtain ⟨out, ho, hps⟩ := render_marking hd ps (fun q hq => ha q (by simp [hq]))
      (fun q hq => hf q (by simp [hq]))
    refine ⟨v ++ out, by simp [render, hv, ho], ?_⟩
    simp only [List.flatMap_cons, List.length_append]
    -- the whole is as long as its raw text only if both parts are copied
    rcases hp with ⟨hpl, rfl⟩ | hp
    · rcases hps with ⟨hall, rfl⟩ | hps
      · exact .inl ⟨by simpa [hpl] using hall, rfl⟩
      · exact .inr (by omega)
    · rcases hps with ⟨-, rfl⟩ | hps
      · exact .inr (by omega)
      · exact .inr (by omega)

end inert

/-- Substitution, where a failed one leaves the text alone, is the identity in
every environment exactly on the inert texts. -/
theorem Expander.stable_iff (x : Expander) (settable : List Char → Bool) (t : List Char) :
    (∀ env : Environment, env.Legal settable → (x.expand env t).getD t = t) ↔
      Inert settable (pieces x.nameChar t) := by
  constructor
  · intro h
    by_cases hf : ∃ p ∈ pieces x.nameChar t, p.fails settable = true
    · exact .inr hf
    · have hnone : ∀ p ∈ pieces x.nameChar t, p.fails settable = false := by
        intro p hp
        cases hp' : p.fails settable with
        | false => rfl
        | true => exact absurd ⟨p, hp, hp'⟩ hf
      obtain ⟨out, ho, hall | hlt⟩ := render_marking x.orDefault_filled _ (fun _ hp => hp) hnone
      · exact .inl hall.1
      · have he := h _ (marking_legal (pieces x.nameChar t))
        rw [x.expand_eq_render, ho, Option.getD_some] at he
        rw [pieces_raw, he] at hlt
        exact absurd hlt (Nat.lt_irrefl _)
  · rintro (hp | hf) env hl
    · rw [x.expand_eq_render, render_plain hp, pieces_raw, Option.getD_some]
    · rw [x.expand_eq_render, render_fails hl hf, Option.getD_none]

/-! ## Surroundings -/

/-- The end of a text that belongs to no piece begun before it. -/
structure Ending (nameChar : Char → Bool) (v : List Char) : Prop where
  head : ∃ c cs, v = c :: cs ∧ nameChar c = false ∧ c ≠ '{'
  noDollar : '$' ∉ v
  noBrace : '}' ∉ v

section surroundings
variable {nameChar : Char → Bool}

theorem pieces_append_left {u : List Char} (h : '$' ∉ u) (t : List Char) :
    pieces nameChar (u ++ t) = u.map Piece.char ++ pieces nameChar t := by
  induction u with
  | nil => rfl
  | cons c cs ih =>
    simp only [List.mem_cons, not_or] at h
    have hc : c ≠ '$' := fun he => h.1 he.symm
    simp [pieces_cons, next, hc, ih h.2]

theorem closing_append {v : List Char} (h : '}' ∉ v) (cs : List Char) :
    closing (cs ++ v) = (closing cs).map (fun s => (s.1, s.2 ++ v)) := by
  have hv : v.dropWhile (· != '}') = [] := by
    rw [List.dropWhile_eq_nil_iff]
    intro c hc
    simp only [bne_iff_ne, ne_eq]
    intro he
    subst he
    exact h hc
  induction cs with
  | nil => simp [closing, hv]
  | cons c cs ih =>
    by_cases hc : c = '}'
    · simp [closing, hc]
    · simp only [closing, List.cons_append] at ih ⊢
      simp only [hc, bne_iff_ne, ne_eq, not_false_eq_true, List.dropWhile_cons_of_pos,
        List.takeWhile_cons_of_pos]
      revert ih
      cases cs.dropWhile (· != '}') <;> cases (cs ++ v).dropWhile (· != '}') <;> simp_all

theorem takeWhile_append_ending {v : List Char} (h : Ending nameChar v) (cs : List Char) :
    (cs ++ v).takeWhile nameChar = cs.takeWhile nameChar ∧
      (cs ++ v).dropWhile nameChar = cs.dropWhile nameChar ++ v := by
  obtain ⟨⟨w, ws, rfl, hw, -⟩, -, -⟩ := h
  induction cs with
  | nil => simp [hw]
  | cons c cs ih =>
    cases hc : nameChar c <;> simp_all

theorem next_append {v : List Char} (h : Ending nameChar v) (c : Char) (cs : List Char) :
    next nameChar c (cs ++ v) = ((next nameChar c cs).1, (next nameChar c cs).2 ++ v) := by
  unfold next
  split
  · cases cs with
    | nil =>
      obtain ⟨⟨w, ws, rfl, hw, hb⟩, hd, -⟩ := h
      have hne : w ≠ '$' := fun he => hd (by simp [he])
      simp [dollar, hne, hb, hw]
    | cons c' cs =>
      obtain ⟨htake, hdrop⟩ := takeWhile_append_ending h cs
      simp only [dollar, List.cons_append, closing_append h.noBrace, htake, hdrop]
      split
      · rfl
      · split
        · cases closing cs <;> rfl
        · split <;> rfl
  · rfl

theorem pieces_append_right {v : List Char} (h : Ending nameChar v) (t : List Char) :
    pieces nameChar (t ++ v) = pieces nameChar t ++ v.map Piece.char := by
  induction t using piece_induction nameChar with
  | nil => simpa using @pieces_append_left nameChar v h.noDollar []
  | cons c cs ih =>
    rw [List.cons_append, pieces_cons, next_append h, ih, pieces_cons]
    rfl

/-- Plain text around a text does not matter to whether it is inert. -/
theorem inert_surrounded {settable : List Char → Bool} {u v : List Char} (hu : '$' ∉ u)
    (hv : Ending nameChar v) (t : List Char) :
    Inert settable (pieces nameChar (u ++ (t ++ v))) ↔ Inert settable (pieces nameChar t) := by
  rw [pieces_append_left hu, pieces_append_right hv]
  have hchar : ∀ (l : List Char), ∀ p ∈ l.map Piece.char, p.plain = true ∧ p.fails settable = false := by
    intro l p hp
    obtain ⟨c, -, rfl⟩ := List.mem_map.mp hp
    exact ⟨rfl, rfl⟩
  constructor
  · intro hcase
    rcases hcase with h | ⟨p, hp, hf⟩
    · exact .inl (fun p hp => h p (by simp [hp]))
    · cases List.mem_append.mp hp with
      | inl hp =>
        rw [(hchar u p hp).2] at hf
        cases hf
      | inr hp =>
        cases List.mem_append.mp hp with
        | inl hp =>
          exact .inr ⟨p, hp, hf⟩
        | inr hp =>
          rw [(hchar v p hp).2] at hf
          cases hf
  · intro hcase
    rcases hcase with h | ⟨p, hp, hf⟩
    · refine .inl (fun p hp => ?_)
      cases List.mem_append.mp hp with
      | inl hp =>
        exact (hchar u p hp).1
      | inr hp =>
        cases List.mem_append.mp hp with
        | inl hp =>
          exact h p hp
        | inr hp =>
          exact (hchar v p hp).1
    · exact .inr ⟨p, by simp [hp], hf⟩

theorem render_append {orDefault : List Char → List Char → List Char} {env : Environment}
    (ps qs : List Piece) :
    render orDefault env (ps ++ qs) =
      (render orDefault env ps).bind (fun a => (render orDefault env qs).map (a ++ ·)) := by
  induction ps with
  | nil => simp [render]
  | cons p ps ih =>
    rw [List.cons_append, render, ih, render]
    cases value orDefault env p <;> cases render orDefault env ps <;>
      cases render orDefault env qs <;> simp

/-- Plain text around a text is copied. -/
theorem Expander.expand_surrounded (x : Expander) (env : Environment) {u v : List Char}
    (hu : '$' ∉ u) (hv : Ending x.nameChar v) (t : List Char) :
    x.expand env (u ++ (t ++ v)) = (x.expand env t).map (fun out => u ++ (out ++ v)) := by
  have hchars : ∀ l : List Char, render x.orDefault env (l.map Piece.char) = some l := by
    intro l
    have hplain : ∀ p ∈ l.map Piece.char, p.plain = true := by
      intro p hp
      obtain ⟨c, -, rfl⟩ := List.mem_map.mp hp
      rfl
    rw [render_plain hplain, List.flatMap_map]
    simp [Piece.raw]
  rw [x.expand_eq_render, x.expand_eq_render, pieces_append_left hu, pieces_append_right hv,
    render_append, render_append, hchars, hchars]
  cases render x.orDefault env (pieces x.nameChar t) <;> simp

end surroundings

end Text
