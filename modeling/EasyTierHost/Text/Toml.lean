import Mathlib.Data.List.TakeWhile
import Mathlib.Tactic.Common

/- Reading TOML documents in which every item stands on a line of its own: blank
   lines, `[table]` and `[[array]]` headers, and `key = value` with a bare key and
   a value that is a basic string, a boolean or an array of basic strings. The
   reader accepts part of the language only; what it accepts it reads as the
   language says. -/
namespace Text.Toml

inductive Value where
  | string (cs : List Char)
  | boolean (b : Bool)
  | array (items : List (List Char))
  deriving DecidableEq, Repr

/-- What one line says. -/
inductive Item where
  | blank
  | table (name : List Char)
  | tableArray (name : List Char)
  | pair (key : List Char) (value : Value)
  deriving DecidableEq, Repr

/-! ## Basic strings -/

def hexDigit (c : Char) : Option Nat :=
  if '0' ≤ c ∧ c ≤ '9' then some (c.toNat - '0'.toNat)
  else if 'a' ≤ c ∧ c ≤ 'f' then some (c.toNat - 'a'.toNat + 10)
  else if 'A' ≤ c ∧ c ≤ 'F' then some (c.toNat - 'A'.toNat + 10)
  else none

/-- The character `\uabcd` stands for. -/
def unicode (a b c d : Char) : Option Char := do
  let a ← hexDigit a
  let b ← hexDigit b
  let c ← hexDigit c
  let d ← hexDigit d
  let n := ((a * 16 + b) * 16 + c) * 16 + d
  if n.isValidChar then some (Char.ofNat n) else none

/-- The characters behind a backslash that stand for another one. -/
def unescape : Char → Option Char
  | 'b' => some '\x08'
  | 't' => some '\t'
  | 'n' => some '\n'
  | 'f' => some '\x0c'
  | 'r' => some '\r'
  | '"' => some '"'
  | '\\' => some '\\'
  | _ => none

/-- A character that stands for itself in a basic string. -/
def literal (c : Char) : Bool :=
  (0x20 ≤ c.toNat || c == '\t') && c.toNat != 0x7f && c != '"' && c != '\\'

/-- The value of a basic string behind its opening quote, and what follows its
closing one. -/
def readString : List Char → Option (List Char × List Char)
  | [] => none
  | '"' :: rest => some ([], rest)
  | '\\' :: 'u' :: a :: b :: c :: d :: rest =>
    (unicode a b c d).bind (fun x => (readString rest).map (fun s => (x :: s.1, s.2)))
  | '\\' :: e :: rest =>
    (unescape e).bind (fun x => (readString rest).map (fun s => (x :: s.1, s.2)))
  | c :: rest =>
    if literal c then (readString rest).map (fun s => (c :: s.1, s.2)) else none

/-! ## Values and lines -/

/-- The strings of an array behind its opening bracket. -/
def readArray : Nat → List Char → Option (List (List Char))
  | fuel + 1, '"' :: cs =>
    match readString cs with
    | some (s, [']']) => some [s]
    | some (s, ',' :: ' ' :: rest) => (readArray fuel rest).map (s :: ·)
    | _ => none
  | _, _ => none

def readValue (cs : List Char) : Option Value :=
  match cs with
  | '"' :: rest =>
    match readString rest with
    | some (s, []) => some (.string s)
    | _ => none
  | '[' :: rest => (readArray rest.length rest).map .array
  | _ =>
    if cs = "true".toList then some (.boolean true)
    else if cs = "false".toList then some (.boolean false)
    else none

/-- The characters of a bare key. -/
def bare (c : Char) : Bool := c.isAlphanum || c == '_' || c == '-'

/-- The name in a header, up to its closing brackets. -/
def readHeader (close cs : List Char) : Option (List Char) :=
  if cs.takeWhile bare ≠ [] ∧ cs.dropWhile bare = close then some (cs.takeWhile bare) else none

def readPair (cs : List Char) : Option Item :=
  match cs.takeWhile bare, cs.dropWhile bare with
  | [], _ => none
  | key, ' ' :: '=' :: ' ' :: v => (readValue v).map (.pair key)
  | _, _ => none

def readLine : List Char → Option Item
  | [] => some .blank
  | '[' :: '[' :: cs => (readHeader [']', ']'] cs).map .tableArray
  | '[' :: cs => (readHeader [']'] cs).map .table
  | cs => readPair cs

def parse (t : List Char) : Option (List Item) := (t.splitOn '\n').mapM readLine

/-! ## Looking up a key -/

/-- The pairs of a document with the table each stands in, the root table first. -/
def entries (table : List Char) : List Item → List (List Char × List Char × Value)
  | [] => []
  | .blank :: items => entries table items
  | .table name :: items => entries name items
  | .tableArray name :: items => entries name items
  | .pair key value :: items => (table, key, value) :: entries table items

def get (items : List Item) (table key : List Char) : Option Value :=
  ((entries [] items).find? (fun e => e.1 == table && e.2.1 == key)).map (·.2.2)

example : (parse "a = \"x\\u0041\\n\"\n\n[t]\nb = [\"p\", \"q\"]\n".toList).bind (get · ['t'] ['b']) =
    some (.array [['p'], ['q']]) := by decide +kernel

/-! ## Documents -/

/-- A table, with its keys in the order they are given. -/
abbrev Table := List (List Char × Value)

/-- What stands under a key of the root table. -/
inductive Entry where
  | value (v : Value)
  | table (t : Table)
  | tables (ts : List Table)
  deriving DecidableEq, Repr

abbrev Document := List (List Char × Entry)

/-- A new key; giving a key a second time is an error. -/
def define {α : Type} (key : List Char) (x : α) (t : List (List Char × α)) :
    Option (List (List Char × α)) :=
  if t.any (fun e => e.1 == key) then none else some (t ++ [(key, x)])

/-- A new key in a table, or in the last table of an array. -/
def Entry.define (key : List Char) (v : Value) : Entry → Option Entry
  | .value _ => none
  | .table t => (Toml.define key v t).map .table
  | .tables ts =>
    match ts.getLast? with
    | some t => (Toml.define key v t).map (fun t' => .tables (ts.dropLast ++ [t']))
    | none => none

/-- One more table of an array. -/
def Entry.extend : Entry → Option Entry
  | .tables ts => some (.tables (ts ++ [[]]))
  | _ => none

/-- Change what stands under a key. -/
def amend (name : List Char) (f : Entry → Option Entry) : Document → Option Document
  | [] => none
  | (key, e) :: doc =>
    if key == name then (f e).map (fun e' => (key, e') :: doc)
    else (amend name f doc).map ((key, e) :: ·)

/-- What an item adds to a document, given the header in force. -/
def place (doc : Document) (header : Option (List Char)) :
    Item → Option (Document × Option (List Char))
  | .blank => some (doc, header)
  | .table name => (define name (.table []) doc).map (·, some name)
  | .tableArray name =>
    if doc.any (fun e => e.1 == name) then (amend name Entry.extend doc).map (·, some name)
    else some (doc ++ [(name, .tables [[]])], some name)
  | .pair key v =>
    match header with
    | none => (define key (.value v) doc).map (·, none)
    | some name => (amend name (Entry.define key v) doc).map (·, some name)

def assemble (doc : Document) (header : Option (List Char)) : List Item → Option Document
  | [] => some doc
  | i :: items => (place doc header i).bind (fun s => assemble s.1 s.2 items)

/-- The root table of a document. -/
def read (t : List Char) : Option Document := (parse t).bind (assemble [] none)

example : read "a = true\n[[t]]\n[[t]]\nb = \"x\"\n".toList =
    some [(['a'], .value (.boolean true)), (['t'], .tables [[], [(['b'], .string ['x'])]])] := by
  decide +kernel

example : read "a = true\na = false\n".toList = none := by decide +kernel

/-! ## Reading what was written -/

theorem readString_literal {s : List Char} (h : ∀ c ∈ s, literal c = true) (rest : List Char) :
    readString (s ++ '"' :: rest) = some (s, rest) := by
  induction s with
  | nil => simp [readString]
  | cons c cs ih =>
    have hc := h c (by simp)
    have hq : c ≠ '"' := by rintro rfl; simp [literal] at hc
    have hb : c ≠ '\\' := by rintro rfl; simp [literal] at hc
    rw [List.cons_append, readString.eq_def]
    simp_all

theorem readValue_string {cs s : List Char} (h : readString cs = some (s, [])) :
    readValue ('"' :: cs) = some (.string s) := by
  simp [readValue, h]

theorem readArray_two {a b : List Char} (ha : ∀ c ∈ a, literal c = true)
    (hb : ∀ c ∈ b, literal c = true) (fuel : Nat) :
    readArray (fuel + 2) ('"' :: (a ++ '"' :: ',' :: ' ' :: '"' :: (b ++ ['"', ']']))) =
      some [a, b] := by
  rw [readArray, readString_literal ha]
  simp only
  rw [readArray, readString_literal hb]
  rfl

theorem readValue_two {a b : List Char} (ha : ∀ c ∈ a, literal c = true)
    (hb : ∀ c ∈ b, literal c = true) :
    readValue ('[' :: '"' :: (a ++ '"' :: ',' :: ' ' :: '"' :: (b ++ ['"', ']']))) =
      some (.array [a, b]) := by
  -- two strings need two units of fuel, and the text has more characters than that
  obtain ⟨fuel, hf⟩ : ∃ fuel,
      ('"' :: (a ++ '"' :: ',' :: ' ' :: '"' :: (b ++ ['"', ']']))).length = fuel + 2 :=
    ⟨a.length + b.length + 5, by simp; omega⟩
  rw [readValue, hf, readArray_two ha hb]
  rfl

theorem readLine_pair {key : List Char} (hk : key ≠ []) (hb : ∀ c ∈ key, bare c = true)
    (v : List Char) :
    readLine (key ++ ' ' :: '=' :: ' ' :: v) = (readValue v).map (.pair key) := by
  have hs : bare ' ' = false := by decide
  have htake : (key ++ ' ' :: '=' :: ' ' :: v).takeWhile bare = key := by
    rw [List.takeWhile_append_of_pos hb]
    simp [hs]
  have hdrop : (key ++ ' ' :: '=' :: ' ' :: v).dropWhile bare = ' ' :: '=' :: ' ' :: v := by
    rw [List.dropWhile_append_of_pos hb]
    simp [hs]
  have hpair : readPair (key ++ ' ' :: '=' :: ' ' :: v) = (readValue v).map (.pair key) := by
    unfold readPair
    rw [htake, hdrop]
    split <;> simp_all
  cases key with
  | nil => exact absurd rfl hk
  | cons c cs =>
    have hc : c ≠ '[' := by
      intro he
      subst he
      exact absurd (hb '[' (by simp)) (by decide)
    rw [List.cons_append] at hpair ⊢
    rw [readLine.eq_def]
    split <;> simp_all

/-- A document is read line by line. -/
theorem parse_lines {ls : List (List Char)} (h : ∀ l ∈ ls, '\n' ∉ l) :
    parse (ls.flatMap (· ++ ['\n'])) = (ls.mapM readLine).map (· ++ [.blank]) := by
  have hsplit : (ls.flatMap (· ++ ['\n'])).splitOn '\n' = ls ++ [[]] := by
    induction ls with
    | nil => rfl
    | cons l ls ih =>
      rw [List.flatMap_cons, List.append_assoc, List.singleton_append,
        List.splitOn_append_cons_self_of_not_mem (h l (by simp)),
        ih (fun k hk => h k (by simp [hk]))]
      rfl
  rw [parse, hsplit, List.mapM_append]
  cases ls.mapM readLine <;> rfl

theorem mapM_readLine {P : Item → Bool} {ls : List (List Char)}
    (h : ∀ l ∈ ls, (readLine l).any P = true) :
    ∃ items, ls.mapM readLine = some items ∧ ∀ i ∈ items, P i = true := by
  induction ls with
  | nil => exact ⟨[], rfl, by simp⟩
  | cons l ls ih =>
    obtain ⟨i, hi, hp⟩ := (Option.any_eq_true _ _).mp (h l (by simp))
    obtain ⟨items, hm, hall⟩ := ih (fun k hk => h k (by simp [hk]))
    exact ⟨i :: items, by simp [hi, hm], by simpa [hp] using hall⟩

/-- A line that opens no table. -/
def Item.within : Item → Bool
  | .blank => true
  | .pair _ _ => true
  | _ => false

/-- The first two pairs of a table. -/
theorem get_first {table key : List Char} {v : Value} {rest : List Item} :
    get (.blank :: .table table :: .pair key v :: rest) table key = some v := by
  simp [get, entries]

theorem get_second {table other key : List Char} {u v : Value} {rest : List Item} (h : other ≠ key) :
    get (.blank :: .table table :: .pair other u :: .pair key v :: rest) table key = some v := by
  simp [get, entries, h]

/-- What stands in front of the first header is in no named table. -/
theorem get_skip {head : List Item} (h : ∀ i ∈ head, i.within = true) {table : List Char}
    (ht : table ≠ []) (rest : List Item) (key : List Char) :
    get (head ++ rest) table key = get rest table key := by
  induction head with
  | nil => rfl
  | cons i head ih =>
    have hi := h i (by simp)
    have hrest := ih (fun j hj => h j (by simp [hj]))
    cases i with
    | blank => exact hrest
    | pair k v =>
      have hroot : (([] : List Char) == table) = false := by simpa using ht
      unfold get at hrest ⊢
      rw [List.cons_append, entries, List.find?_cons_of_neg (by simp [hroot])]
      exact hrest
    | table n => cases hi
    | tableArray n => cases hi

end Text.Toml
