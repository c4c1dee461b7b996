import Mathlib.Data.List.TakeWhile
import Mathlib.Tactic.Common

/- Text as bytes. A code page of a machine is known only by what it does with the
   128 characters of US-ASCII, on which all of them agree; UTF-8 is the language's
   own. -/
namespace Text

abbrev Bytes := List UInt8

/-- A character of US-ASCII. -/
def ascii (c : Char) : Bool := c.toNat < 128

/-- The byte of a character of US-ASCII. -/
def asciiByte (c : Char) : UInt8 := UInt8.ofNat c.toNat

/-- The character of a byte. -/
def byteChar (b : UInt8) : Char := Char.ofNat b.toNat

/-! ## UTF-8 -/

def utf8 (cs : List Char) : Bytes := cs.flatMap String.utf8EncodeChar

/-- A decoder of UTF-8; what it makes of malformed input is its own affair. -/
def utf8Decode (malformed : Bytes → List Char) (b : Bytes) : List Char :=
  match b.toByteArray.utf8Decode? with
  | some cs => cs.toList
  | none => malformed b

theorem utf8Decode_utf8 (malformed : Bytes → List Char) (cs : List Char) :
    utf8Decode malformed (utf8 cs) = cs := by
  have h : (utf8 cs).toByteArray.utf8Decode? = some cs.toArray := List.utf8Decode?_utf8Encode
  simp [utf8Decode, h]

/-- US-ASCII text is the same in UTF-8. -/
theorem utf8_ascii : ∀ {cs : List Char}, (∀ c ∈ cs, ascii c = true) → utf8 cs = cs.map asciiByte
  | [], _ => rfl
  | c :: cs, h => by
    have hc : c.toNat < 128 := by simpa [ascii] using h c (by simp)
    have hone : String.utf8EncodeChar c = [asciiByte c] := by
      have hle : c.val.toNat ≤ 0x7f := Nat.le_of_lt_succ hc
      simp only [String.utf8EncodeChar, hle, if_true]
      rfl
    have hrest := utf8_ascii (fun d hd => h d (List.mem_cons_of_mem c hd))
    rw [utf8, List.flatMap_cons, hone]
    change asciiByte c :: utf8 cs = _
    rw [hrest, List.map_cons]

/-! ## Code pages -/

/-- What a machine's code page makes of bytes. -/
structure CodePage where
  decode : Bytes → List Char
  decode_ascii : ∀ b : Bytes, (∀ x ∈ b, x.toNat < 128) → decode b = b.map byteChar

theorem byteChar_asciiByte {c : Char} (h : ascii c = true) : byteChar (asciiByte c) = c := by
  have hc : c.toNat < 128 := by simpa [ascii] using h
  have hv : (asciiByte c).toNat = c.toNat := by
    rw [asciiByte, UInt8.toNat_ofNat', Nat.mod_eq_of_lt (by omega)]
  rw [byteChar, hv, Char.ofNat_toNat]

theorem asciiByte_lt {c : Char} (h : ascii c = true) : (asciiByte c).toNat < 128 := by
  have hc : c.toNat < 128 := by simpa [ascii] using h
  rw [asciiByte, UInt8.toNat_ofNat', Nat.mod_eq_of_lt (by omega)]
  exact hc

/-- A code page reads US-ASCII text as it is. -/
theorem CodePage.decode_text (page : CodePage) {cs : List Char} (h : ∀ c ∈ cs, ascii c = true) :
    page.decode (cs.map asciiByte) = cs := by
  have hlow : ∀ x ∈ cs.map asciiByte, x.toNat < 128 := by
    intro x hx
    obtain ⟨c, hc, rfl⟩ := List.mem_map.mp hx
    exact asciiByte_lt (h c hc)
  rw [page.decode_ascii _ hlow, List.map_map]
  have hid : ∀ c ∈ cs, (byteChar ∘ asciiByte) c = c := fun c hc => byteChar_asciiByte (h c hc)
  rw [List.map_congr_left hid, List.map_id']

theorem ascii_ofNat : ∀ n < 128, ascii (Char.ofNat n) = true := by decide

/-- And makes US-ASCII text of bytes below 128. -/
theorem CodePage.ascii_decode (page : CodePage) {b : Bytes} (h : ∀ x ∈ b, x.toNat < 128) :
    ∀ c ∈ page.decode b, ascii c = true := by
  rw [page.decode_ascii b h]
  intro c hc
  obtain ⟨x, hx, rfl⟩ := List.mem_map.mp hc
  exact ascii_ofNat x.toNat (h x hx)

/-! ## Encoding as US-ASCII -/

/-- The encoder of US-ASCII: a question mark for every unit of UTF-16 it cannot
encode. -/
def usAscii (cs : List Char) : Bytes :=
  cs.flatMap (fun c =>
    if ascii c then [asciiByte c] else if c.toNat < 0x10000 then [0x3f] else [0x3f, 0x3f])

theorem usAscii_lt (cs : List Char) : ∀ x ∈ usAscii cs, x.toNat < 128 := by
  intro x hx
  obtain ⟨c, -, hc⟩ := List.mem_flatMap.mp hx
  split at hc
  next h =>
    rw [List.mem_singleton.mp hc]
    exact asciiByte_lt h
  next =>
    have hq : x = 0x3f := by
      split at hc
      next => simpa using hc
      next => simpa using hc
    rw [hq]
    decide

theorem usAscii_text : ∀ {cs : List Char}, (∀ c ∈ cs, ascii c = true) →
    usAscii cs = cs.map asciiByte
  | [], _ => rfl
  | c :: cs, h => by
    have hrest := usAscii_text (fun d hd => h d (List.mem_cons_of_mem c hd))
    rw [usAscii, List.flatMap_cons, if_pos (h c List.mem_cons_self)]
    change asciiByte c :: usAscii cs = _
    rw [hrest, List.map_cons]

/-! ## Lines -/

/-- A character that ends a line. -/
def lineEnd (c : Char) : Bool := c == '\r' || c == '\n'

/-- The first line of a text, without its end; none at the end of the text. -/
def readLine : List Char → Option (List Char)
  | [] => none
  | cs => some (cs.takeWhile (fun c => !lineEnd c))

theorem mem_readLine {cs line : List Char} (h : readLine cs = some line) {c : Char}
    (hc : c ∈ line) : c ∈ cs := by
  cases cs with
  | nil => cases h
  | cons d cs =>
    cases h
    exact (List.takeWhile_sublist _).subset hc

theorem readLine_line {line : List Char} (h : ∀ c ∈ line, lineEnd c = false) (hne : line ≠ []) :
    readLine line = some line := by
  have hall : line.takeWhile (fun c => !lineEnd c) = line := by
    rw [List.takeWhile_eq_self_iff]
    intro c hc
    simp [h c hc]
  cases line with
  | nil => exact absurd rfl hne
  | cons c cs => rw [readLine, hall]; simp

theorem readLine_ended {line : List Char} (h : ∀ c ∈ line, lineEnd c = false) {e : Char}
    (he : lineEnd e = true) (rest : List Char) : readLine (line ++ e :: rest) = some line := by
  have htake : (line ++ e :: rest).takeWhile (fun c => !lineEnd c) = line := by
    rw [List.takeWhile_append_of_pos (by intro c hc; simp [h c hc])]
    simp [he]
  cases line with
  | nil => rw [List.nil_append] at htake ⊢; rw [readLine, htake]; simp
  | cons c cs => rw [List.cons_append] at htake ⊢; rw [readLine, htake]; simp

end Text
