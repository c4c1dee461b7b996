import EasyTierHost.Text.Toml

/- Reading JSON documents without comments and trailing commas, nested no deeper than
   a bound. A document is cut into tokens character by character and assembled on a
   stack of open arrays and objects. Strings, names and numbers are kept as they are
   written: what a string stands for is asked of it later (`unescape`), and then
   half of a surrogate pair is an error. -/
namespace Text.JsonText

inductive Value where
  | null
  | boolean (b : Bool)
  | number (raw : List Char)
  | string (raw : List Char)
  | array (items : List Value)
  | object (fields : List (List Char × Value))

/-! ## Tokens -/

inductive Token where
  | punctuation (c : Char)
  | string (raw : List Char)
  | word (v : Value)

def isBlank (c : Char) : Bool := c == ' ' || c == '\t' || c == '\n' || c == '\r'

def isPunctuation (c : Char) : Bool := ['{', '}', '[', ']', ':', ','].contains c

/-- One or more digits, and what follows them. -/
def digits (cs : List Char) : Option (List Char) :=
  if (cs.takeWhile Char.isDigit).isEmpty then none else some (cs.dropWhile Char.isDigit)

/-- Digits without a zero in front of another one. -/
def wholePart : List Char → Option (List Char)
  | '0' :: cs => some cs
  | cs => digits cs

def fraction : List Char → Option (List Char)
  | '.' :: cs => digits cs
  | cs => some cs

def exponent : List Char → Option (List Char)
  | e :: cs =>
    if e = 'e' ∨ e = 'E' then
      match cs with
      | '+' :: ds => digits ds
      | '-' :: ds => digits ds
      | ds => digits ds
    else some (e :: cs)
  | [] => some []

def isNumber (cs : List Char) : Bool :=
  (((wholePart (if cs.head? = some '-' then cs.drop 1 else cs)).bind fraction).bind exponent) = some []

/-- What is written without quotes. -/
def word (cs : List Char) : Option Value :=
  if cs = "null".toList then some .null
  else if cs = "true".toList then some (.boolean true)
  else if cs = "false".toList then some (.boolean false)
  else if isNumber cs then some (.number cs)
  else none

/-- Where the reader stands between two characters, with what it has of a string or
word, last character first. -/
inductive Place where
  | between
  | word (read : List Char)
  | string (read : List Char)
  | escape (read : List Char)
  | hex (left : Nat) (read : List Char)

/-- The place after a character outside of strings, and the token it is. -/
def start (c : Char) : Place × List Token :=
  if isBlank c then (.between, [])
  else if isPunctuation c then (.between, [.punctuation c])
  else if c = '"' then (.string [], [])
  else (.word [c], [])

/-- One character. -/
def read : Place → Char → Option (Place × List Token)
  | .between, c => some (start c)
  | .word cs, c =>
    if isBlank c || isPunctuation c || c = '"' then
      (word cs.reverse).map (fun v => ((start c).1, .word v :: (start c).2))
    else some (.word (c :: cs), [])
  | .string cs, c =>
    if c = '"' then some (.between, [.string cs.reverse])
    else if c = '\\' then some (.escape (c :: cs), [])
    else if c.toNat < 0x20 then none
    else some (.string (c :: cs), [])
  | .escape cs, c =>
    if c = 'u' then some (.hex 4 (c :: cs), [])
    else if "\"\\/bfnrt".toList.contains c then some (.string (c :: cs), [])
    else none
  | .hex left cs, c =>
    if (Toml.hexDigit c).isSome then
      some (if left ≤ 1 then .string (c :: cs) else .hex (left - 1) (c :: cs), [])
    else none

/-- The tokens of a text, which may end in a word. -/
def tokens : Place → List Char → Option (List Token)
  | .between, [] => some []
  | .word cs, [] => (word cs.reverse).map (fun v => [.word v])
  | _, [] => none
  | p, c :: cs => (read p c).bind (fun s => (tokens s.1 cs).map (s.2 ++ ·))

/-! ## Documents -/

/-- An open array, or an open object with the name of the value to come; the last
item first. -/
inductive Frame where
  | array (items : List Value)
  | object (fields : List (List Char × Value)) (name : List Char)

/-- What may come next: after an opening bracket also the closing one. -/
inductive Expected where
  | value
  | valueOrClose
  | name (fields : List (List Char × Value)) (close : Bool)
  | colon (fields : List (List Char × Value)) (name : List Char)
  | comma
  | done (v : Value)

abbrev Stack := List Frame × Expected

/-- A value is complete. -/
def put (v : Value) : List Frame → Stack
  | [] => ([], .done v)
  | .array items :: open_ => (.array (v :: items) :: open_, .comma)
  | .object fields name :: open_ => (.object ((name, v) :: fields) name :: open_, .comma)

/-- An opening bracket, for an object the name of the first value is expected. -/
def opening (maxDepth : Nat) (c : Char) (open_ : List Frame) : Option Stack :=
  if maxDepth ≤ open_.length then none
  else if c = '[' then some (.array [] :: open_, .valueOrClose)
  else if c = '{' then some (.object [] [] :: open_, .name [] true)
  else none

def step (maxDepth : Nat) : Stack → Token → Option Stack
  | (open_, .value), .punctuation c => opening maxDepth c open_
  | (open_, .valueOrClose), .punctuation c =>
    match open_, c with
    | .array items :: rest, ']' => some (put (.array items.reverse) rest)
    | _, _ => opening maxDepth c open_
  | (open_, .value), .string raw => some (put (.string raw) open_)
  | (open_, .valueOrClose), .string raw => some (put (.string raw) open_)
  | (open_, .value), .word v => some (put v open_)
  | (open_, .valueOrClose), .word v => some (put v open_)
  | (open_, .name fields _), .string raw => some (open_, .colon fields raw)
  | (_ :: rest, .name fields true), .punctuation '}' => some (put (.object fields.reverse) rest)
  | (_ :: rest, .colon fields name), .punctuation ':' => some (.object fields name :: rest, .value)
  | (.array items :: rest, .comma), .punctuation c =>
    if c = ',' then some (.array items :: rest, .value)
    else if c = ']' then some (put (.array items.reverse) rest)
    else none
  | (.object fields name :: rest, .comma), .punctuation c =>
    if c = ',' then some (.object fields name :: rest, .name fields false)
    else if c = '}' then some (put (.object fields.reverse) rest)
    else none
  | _, _ => none

/-- The value of a document. -/
def parse (maxDepth : Nat) (cs : List Char) : Option Value := do
  let ts ← tokens .between cs
  match ← ts.foldlM (step maxDepth) ([], .value) with
  | ([], .done v) => some v
  | _ => none

example : (parse 2 "[\x7b\"a\": -0.5e1\x7d, true]".toList).isSome ∧ ¬ (parse 2 "[[[]]]".toList).isSome ∧
    ¬ (parse 2 "[1,]".toList).isSome := by decide +kernel

/-! ## Strings -/

def isHigh (u : Nat) : Bool := 0xd800 ≤ u && u < 0xdc00
def isLow (u : Nat) : Bool := 0xdc00 ≤ u && u < 0xe000

/-- A character that is written as itself or behind a backslash, or a code unit
written in hexadecimal. -/
abbrev Piece := Char ⊕ Nat

def unescapeChar : Char → Option Char
  | 'b' => some '\x08'
  | 'f' => some '\x0c'
  | 'n' => some '\n'
  | 'r' => some '\r'
  | 't' => some '\t'
  | '/' => some '/'
  | '"' => some '"'
  | '\\' => some '\\'
  | _ => none

def pieces : List Char → Option (List Piece)
  | [] => some []
  | '\\' :: 'u' :: a :: b :: c :: d :: rest => do
    let a ← Toml.hexDigit a
    let b ← Toml.hexDigit b
    let c ← Toml.hexDigit c
    let d ← Toml.hexDigit d
    (pieces rest).map (.inr (((a * 16 + b) * 16 + c) * 16 + d) :: ·)
  | '\\' :: e :: rest => (unescapeChar e).bind (fun c => (pieces rest).map (.inl c :: ·))
  | c :: rest => (pieces rest).map (.inl c :: ·)

/-- Two code units of a surrogate pair are one character; half of a pair is none. -/
def joinUnits : List Piece → Option (List Char)
  | [] => some []
  | .inl c :: rest => (joinUnits rest).map (c :: ·)
  | .inr u :: .inr v :: rest =>
    if isHigh u then
      if isLow v then
        (joinUnits rest).map (Char.ofNat (0x10000 + (u - 0xd800) * 0x400 + (v - 0xdc00)) :: ·)
      else none
    else if isLow u then none
    else (joinUnits (.inr v :: rest)).map (Char.ofNat u :: ·)
  | .inr u :: rest => if isHigh u || isLow u then none else (joinUnits rest).map (Char.ofNat u :: ·)

/-- The text a string or a name stands for. -/
def unescape (raw : List Char) : Option (List Char) := (pieces raw).bind joinUnits

example : unescape "a\\n\\ud83d\\ude00".toList = some "a\n😀".toList := by decide +kernel
example : unescape "\\ud83d!".toList = none := by decide +kernel

end Text.JsonText
