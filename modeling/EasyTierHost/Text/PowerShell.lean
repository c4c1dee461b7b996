import Mathlib.Tactic.Common

/- Single-quoted strings of PowerShell. Five characters count as single quotes, and any
   of them opens and closes such a string; two in a row inside it stand for the second.
   Doubling one kind of quote only is therefore not enough: every other quote of a value
   pairs off with its neighbour or ends the string. How much of a text a string takes up
   is counted by a weight, one for a quote and two for any other character, in which a
   pair and the character it stands for agree. -/
namespace Text.PowerShell

/-- `IsSingleQuote` of the tokenizer: U+0027, and the typographic quotes. -/
def isSingleQuote (c : Char) : Bool :=
  c == '\'' || c == Char.ofNat 0x2018 || c == Char.ofNat 0x2019 || c == Char.ofNat 0x201A || c == Char.ofNat 0x201B

/-- The typographic quotes alone. -/
def isTypographic (c : Char) : Bool := isSingleQuote c && c != '\''

/-- The value of a string whose opening quote has been read, and the text behind it;
nothing if it is not closed. -/
def readRest : List Char → Option (List Char × List Char)
  | [] => none
  | [c] => if isSingleQuote c then some ([], []) else none
  | c :: d :: cs =>
    if isSingleQuote c then
      if isSingleQuote d then (readRest cs).map (fun r => (d :: r.1, r.2)) else some ([], d :: cs)
    else (readRest (d :: cs)).map (fun r => (c :: r.1, r.2))

/-- The single-quoted string at the start of a text, and what is behind it. -/
def readString : List Char → Option (List Char × List Char)
  | [] => none
  | c :: cs => if isSingleQuote c then readRest cs else none

/-- A value between quotes with the quotes in it doubled, those of U+0027 only. -/
def quote (v : List Char) : List Char :=
  '\'' :: v.flatMap (fun c => if c = '\'' then ['\'', '\''] else [c]) ++ ['\'']

/-! ## What a string takes up -/

def weight : List Char → Nat
  | [] => 0
  | c :: cs => (if isSingleQuote c then 1 else 2) + weight cs

@[simp] theorem weight_nil : weight [] = 0 := rfl

@[simp] theorem weight_cons (c : Char) (cs : List Char) :
    weight (c :: cs) = (if isSingleQuote c then 1 else 2) + weight cs := rfl

@[simp] theorem weight_append (as bs : List Char) : weight (as ++ bs) = weight as + weight bs := by
  induction as with
  | nil => simp
  | cons a as ih => rw [List.cons_append, weight_cons, weight_cons, ih, Nat.add_assoc]

/-- A character of a value takes up two, and the closing quote one. -/
theorem weight_readRest {cs value rest : List Char} (h : readRest cs = some (value, rest)) :
    weight cs = 2 * value.length + 1 + weight rest := by
  induction cs using readRest.induct generalizing value with
  | case1 => cases h
  | case2 c hc =>
    rw [readRest, if_pos hc] at h
    obtain ⟨rfl, rfl⟩ := Prod.mk.inj (Option.some.inj h)
    simp [hc]
  | case3 c hc =>
    rw [readRest, if_neg hc] at h
    cases h
  | case4 c d cs hc hd ih =>
    rw [readRest, if_pos hc, if_pos hd, Option.map_eq_some_iff] at h
    obtain ⟨⟨v, r⟩, hread, heq⟩ := h
    obtain ⟨rfl, rfl⟩ : d :: v = value ∧ r = rest := Prod.mk.inj heq
    have hw := ih hread
    simp only [weight_cons, hc, hd, if_true, List.length_cons]
    omega
  | case5 c d cs hc hd =>
    rw [readRest, if_pos hc, if_neg hd] at h
    obtain ⟨rfl, rfl⟩ := Prod.mk.inj (Option.some.inj h)
    simp [hc]
  | case6 c d cs hc ih =>
    rw [readRest, if_neg hc, Option.map_eq_some_iff] at h
    obtain ⟨⟨v, r⟩, hread, heq⟩ := h
    obtain ⟨rfl, rfl⟩ : c :: v = value ∧ r = rest := Prod.mk.inj heq
    have hw := ih hread
    rw [weight_cons, hw, List.length_cons]
    simp only [hc, Bool.false_eq_true, if_false]
    omega

/-- Doubling makes up for the weight of U+0027, and of no other quote. -/
theorem weight_doubled (v : List Char) :
    weight (v.flatMap (fun c => if c = '\'' then ['\'', '\''] else [c])) + v.countP isTypographic
      = 2 * v.length := by
  induction v with
  | nil => rfl
  | cons c v ih =>
    have hquote : isSingleQuote '\'' = true := by decide
    rw [List.flatMap_cons, weight_append, List.length_cons]
    by_cases hc : c = '\''
    · have hplain : isTypographic c = false := by
        rw [hc]
        decide
      rw [if_pos hc, List.countP_cons_of_neg (by simp [hplain])]
      simp only [weight_cons, weight_nil, hquote, if_true]
      omega
    · rw [if_neg hc, weight_cons, weight_nil]
      by_cases hq : isSingleQuote c = true
      · rw [List.countP_cons_of_pos (by simp [isTypographic, hq, hc]), if_pos hq]
        omega
      · rw [List.countP_cons_of_neg (by simp [isTypographic, hq]), if_neg hq]
        omega

/-! ## Quoted values -/

theorem readRest_doubled {rest : List Char} (hrest : ∀ c ∈ rest.head?, isSingleQuote c = false) :
    ∀ {v : List Char}, (∀ c ∈ v, isTypographic c = false) →
      readRest (v.flatMap (fun c => if c = '\'' then ['\'', '\''] else [c]) ++ '\'' :: rest) = some (v, rest)
  | [], _ => by
    cases rest with
    | nil => rfl
    | cons c rest =>
      have hc := hrest c rfl
      have hquote : isSingleQuote '\'' = true := by decide
      show (if isSingleQuote '\'' = true then (if isSingleQuote c = true then _ else some ([], c :: rest)) else _) = _
      rw [if_pos hquote, if_neg (by simp [hc])]
  | c :: v, h => by
    have hquote : isSingleQuote '\'' = true := by decide
    have ih := readRest_doubled hrest (fun d hd => h d (List.mem_cons_of_mem c hd))
    rw [List.flatMap_cons, List.append_assoc]
    by_cases hc : c = '\''
    · rw [if_pos hc, List.cons_append, List.cons_append, List.nil_append, readRest, if_pos hquote, if_pos hquote, ih, hc]
      rfl
    · have hplain : isSingleQuote c = false := by
        have ht := h c List.mem_cons_self
        simpa [isTypographic, hc] using ht
      rw [if_neg hc, List.singleton_append]
      obtain ⟨d, ds, hds⟩ := List.exists_cons_of_ne_nil (l := v.flatMap (fun c =>
        if c = '\'' then ['\'', '\''] else [c]) ++ '\'' :: rest) (by simp)
      rw [hds, readRest, if_neg (by simp [hplain]), ← hds, ih]
      rfl

/-- A quoted value is one string with that value, up to whatever is behind it, exactly if
it has no typographic quote. -/
theorem readString_quote_iff (v : List Char) {rest : List Char}
    (hrest : ∀ c ∈ rest.head?, isSingleQuote c = false) :
    readString (quote v ++ rest) = some (v, rest) ↔ ∀ c ∈ v, isTypographic c = false := by
  have hquote : isSingleQuote '\'' = true := by decide
  have hread : readString (quote v ++ rest)
      = readRest (v.flatMap (fun c => if c = '\'' then ['\'', '\''] else [c]) ++ '\'' :: rest) := by
    rw [quote, List.cons_append, List.cons_append, List.append_assoc, readString, if_pos hquote, List.singleton_append]
  rw [hread]
  constructor
  · intro h
    have hw := weight_readRest h
    have hd := weight_doubled v
    rw [weight_append, weight_cons, if_pos hquote] at hw
    have hnone : v.countP isTypographic = 0 := by omega
    intro c hc
    have hneg := List.countP_eq_zero.mp hnone c hc
    simpa using hneg
  · exact readRest_doubled hrest

end Text.PowerShell
