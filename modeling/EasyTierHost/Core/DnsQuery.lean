import EasyTierHost.Core.DnsCanonical
import EasyTierHost.Text.Encoding
import Mathlib.Data.List.DropRight

/- Queries of this program (`CreateQuery` of DnsMessage.cs): a name as text is cut at
   its dots and every label is written with its size in front. The parser reads the
   labels back. -/
namespace EasyTierHost
namespace DnsMessage
open Text

/-- `name.TrimEnd('.').Split('.')`. -/
def queryLabels (name : String) : List (List Char) :=
  (name.toList.rdropWhile (· == '.')).splitOn '.'

/-- The loop over the labels. -/
def writeLabels : List (List Char) → Except String Packet
  | [] => .ok []
  | label :: labels =>
    let bytes := usAscii label
    if bytes.length < 1 ∨ 63 < bytes.length then .error "Invalid DNS name"
    else (writeLabels labels).map (fun rest => UInt8.ofNat bytes.length :: (bytes ++ rest))

/-- `DnsMessage.CreateQuery`, with the random identifier it draws. -/
def createQuery (a b : UInt8) (name : String) : Except String Packet :=
  (writeLabels (queryLabels name)).map (fun labels =>
    [a, b, 1, 0, 0, 1, 0, 0, 0, 0, 0, 0] ++ labels ++ [0, 0, 1, 0, 1])

/-- The length of a string. -/
def stringLength (s : List Char) : Nat := (s.map (fun c => if c.toNat < 0x10000 then 1 else 2)).sum

/-! ## Writing labels -/

theorem length_usAscii : ∀ s : List Char, (usAscii s).length = stringLength s
  | [] => rfl
  | c :: s => by
    have hrest := length_usAscii s
    rw [usAscii] at hrest ⊢
    rw [List.flatMap_cons, List.length_append, hrest, stringLength, stringLength, List.map_cons,
      List.sum_cons]
    by_cases hascii : ascii c = true
    · have hc : c.toNat < 128 := by simpa [ascii] using hascii
      rw [if_pos hascii, if_pos (by omega)]
      rfl
    · rw [if_neg hascii]
      split <;> rfl

theorem stringLength_eq_zero {s : List Char} : stringLength s = 0 ↔ s = [] := by
  cases s with
  | nil => simp [stringLength]
  | cons c s =>
    rw [stringLength, List.map_cons, List.sum_cons]
    constructor
    · intro h
      split at h <;> omega
    · intro h
      cases h

/-- Labels are refused just when one of them is empty or too long. -/
theorem writeLabels_error : ∀ {labels : List (List Char)},
    (∃ m, writeLabels labels = .error m) ↔ ∃ l ∈ labels, l = [] ∨ 63 < stringLength l
  | [] => by simp [writeLabels]
  | l :: labels => by
    have hrest := @writeLabels_error labels
    rw [writeLabels, length_usAscii]
    by_cases hbad : stringLength l < 1 ∨ 63 < stringLength l
    · rw [if_pos hbad]
      refine iff_of_true ⟨_, rfl⟩ ⟨l, List.mem_cons_self, ?_⟩
      cases hbad with
      | inl hbad =>
        exact .inl (stringLength_eq_zero.mp (by omega))
      | inr hbad =>
        exact .inr hbad
    · rw [if_neg hbad, List.exists_mem_cons_iff]
      have hgood : ¬(l = [] ∨ 63 < stringLength l) := by
        rw [← stringLength_eq_zero]
        omega
      rw [or_iff_right hgood, ← hrest]
      cases writeLabels labels with
      | error m => simp [Except.map]
      | ok rest => simp [Except.map]

/-- The labels on the wire, each with its size in front. -/
def wire (labels : List (List UInt8)) : Packet :=
  labels.flatMap (fun l => UInt8.ofNat l.length :: l)

theorem writeLabels_ok : ∀ {labels : List (List Char)},
    (∀ l ∈ labels, l ≠ [] ∧ stringLength l ≤ 63) → writeLabels labels = .ok (wire (labels.map usAscii))
  | [], _ => rfl
  | l :: labels, h => by
    have hl := h l List.mem_cons_self
    have hpos : stringLength l ≠ 0 := mt stringLength_eq_zero.mp hl.1
    have hgood : ¬((usAscii l).length < 1 ∨ 63 < (usAscii l).length) := by
      rw [length_usAscii]
      omega
    rw [writeLabels, if_neg hgood, writeLabels_ok (fun k hk => h k (List.mem_cons_of_mem l hk))]
    rfl

/-! ## Reading them back -/

/-- Labels on the wire with the root behind them are a name without pointers. -/
theorem spelled_wire (rest : Packet) : ∀ (labels : List (List UInt8)) (front : Packet),
    (∀ l ∈ labels, 0 < l.length ∧ l.length ≤ 63) →
    Spelled (front ++ (wire labels ++ 0 :: rest)) front.length labels
      (front.length + (wire labels).length + 1)
  | [], front, _ => by
    apply Spelled.root
    rw [wire, List.flatMap_nil, List.nil_append, List.getElem?_append_right (Nat.le_refl _), Nat.sub_self]
    rfl
  | l :: labels, front, h => by
    obtain ⟨hpos, hmax⟩ := h l List.mem_cons_self
    have hsize : (UInt8.ofNat l.length).toNat = l.length := by
      rw [UInt8.toNat_ofNat', Nat.mod_eq_of_lt (by omega)]
    have hassoc : front ++ (wire (l :: labels) ++ 0 :: rest) =
        (front ++ UInt8.ofNat l.length :: l) ++ (wire labels ++ 0 :: rest) := by
      simp [wire]
    have hlen : (front ++ UInt8.ofNat l.length :: l).length = front.length + 1 + l.length := by
      rw [List.length_append, List.length_cons]
      omega
    have hrest := spelled_wire rest labels (front ++ UInt8.ofNat l.length :: l)
      (fun k hk => h k (List.mem_cons_of_mem l hk))
    rw [← hassoc, hlen] at hrest
    have hwire : (wire (l :: labels)).length = 1 + l.length + (wire labels).length := by
      simp [wire]
      omega
    have hhead : (front ++ (wire (l :: labels) ++ 0 :: rest))[front.length]? =
        some (UInt8.ofNat l.length) := by
      rw [hassoc, List.append_assoc, List.getElem?_append_right (Nat.le_refl _), Nat.sub_self]
      rfl
    have hbytes : ((front ++ (wire (l :: labels) ++ 0 :: rest)).drop (front.length + 1)).take
        (UInt8.ofNat l.length).toNat = l := by
      have hsplit : front ++ (wire (l :: labels) ++ 0 :: rest) =
          (front ++ [UInt8.ofNat l.length]) ++ (l ++ (wire labels ++ 0 :: rest)) := by
        simp [wire]
      rw [hsplit, hsize, List.drop_left' (by simp), List.take_left' rfl]
    have hfit : front.length + 1 + (UInt8.ofNat l.length).toNat ≤
        (front ++ (wire (l :: labels) ++ 0 :: rest)).length := by
      rw [hassoc, List.length_append, hlen, hsize]
      omega
    have hlabel := Spelled.label hhead (by rw [hsize]; exact ⟨hpos, hmax⟩) hfit (by rw [hsize]; exact hrest)
    rw [hbytes] at hlabel
    rw [hwire]
    have hend : front.length + (1 + l.length + (wire labels).length) + 1 =
        front.length + 1 + l.length + (wire labels).length + 1 := by omega
    rw [hend]
    exact hlabel

/-- A character in lower case, as two hexadecimal digits. -/
def canonicalChar (c : Char) : List Char := ((Nat.toDigits 16 c.toLower.toNat).map Char.toUpper).leftpad 2 '0'

/-- The canonical form of a label: its length, a colon, its characters in lower case and a slash. -/
def canonicalLabel (label : List Char) : List Char :=
  Nat.toDigits 10 label.length ++ ':' :: (label.flatMap canonicalChar ++ ['/'])

theorem hex_lower_ofNat : ∀ n < 128, hex (lower (UInt8.ofNat n)) = canonicalChar (Char.ofNat n) := by
  decide +kernel

/-- What the parser writes for a label of ASCII characters is its canonical form. -/
theorem labelText_asciiByte {label : List Char} (h : ∀ c ∈ label, ascii c = true) :
    labelText (label.map asciiByte) = canonicalLabel label := by
  have hbytes : (label.map asciiByte).flatMap (fun b => hex (lower b)) = label.flatMap canonicalChar := by
    rw [List.flatMap_map]
    apply List.flatMap_congr
    intro c hc
    have hlt : c.toNat < 128 := of_decide_eq_true (h c hc)
    have hchar := hex_lower_ofNat c.toNat hlt
    rwa [Char.ofNat_toNat] at hchar
  rw [labelText, canonicalLabel, hbytes, List.length_map, Nat.toString_eq_ofList_toDigits, String.toList_ofList]

theorem octets_wire (labels : List (List UInt8)) : octets labels = (wire labels).length + 1 := by
  rw [octets, wire, List.length_flatMap]
  rfl

theorem mem_of_mem_splitOn {a c : Char} : ∀ {s l : List Char}, l ∈ s.splitOn a → c ∈ l → c ∈ s
  | [], l, hl, hc => by
    rw [List.splitOn_nil, List.mem_singleton] at hl
    rw [hl] at hc
    exact hc
  | d :: s, l, hl, hc => by
    rw [List.splitOn_cons_eq_if_modifyHead] at hl
    split at hl
    · rcases List.mem_cons.mp hl with rfl | hl
      · cases hc
      · exact List.mem_cons_of_mem d (mem_of_mem_splitOn hl hc)
    · obtain ⟨k, ks, hks⟩ := List.exists_cons_of_ne_nil (List.splitOn_ne_nil a s)
      have hk : ∀ x ∈ k, x ∈ s := fun x hx => mem_of_mem_splitOn (hks ▸ List.mem_cons_self) hx
      rw [hks, List.modifyHead_cons] at hl
      rcases List.mem_cons.mp hl with rfl | hl
      · rcases List.mem_cons.mp hc with rfl | hc
        · exact List.mem_cons_self
        · exact List.mem_cons_of_mem d (hk c hc)
      · exact List.mem_cons_of_mem d (mem_of_mem_splitOn (hks ▸ List.mem_cons_of_mem k hl) hc)

theorem queryLabels_ascii {name : String} (h : ∀ c ∈ name.toList, ascii c = true) :
    ∀ l ∈ queryLabels name, ∀ c ∈ l, ascii c = true := by
  intro l hl c hc
  have hmem := mem_of_mem_splitOn hl hc
  exact h c ((List.rdropWhile_prefix _ _).subset hmem)

theorem stringLength_ascii {l : List Char} (h : ∀ c ∈ l, ascii c = true) : stringLength l = l.length := by
  rw [← length_usAscii, usAscii_text h, List.length_map]

/-- What is put behind a header with one question and read again. -/
theorem question_wire (a b : UInt8) {labels : List (List UInt8)}
    (h : ∀ l ∈ labels, 0 < l.length ∧ l.length ≤ 63) (hlen : (wire labels).length + 1 ≤ 255) :
    question ([a, b, 1, 0, 0, 1, 0, 0, 0, 0, 0, 0] ++ wire labels ++ [0, 0, 1, 0, 1]) =
      .ok (labels.flatMap labelText ++ [0, 1, 0, 1].flatMap hex, 12 + (wire labels).length + 5) := by
  have hspelled : Spelled ([a, b, 1, 0, 0, 1, 0, 0, 0, 0, 0, 0] ++ wire labels ++ [0, 0, 1, 0, 1]) 12 labels
      (12 + (wire labels).length + 1) := by
    rw [List.append_assoc]
    exact spelled_wire [0, 1, 0, 1] labels [a, b, 1, 0, 0, 1, 0, 0, 0, 0, 0, 0] h
  have hheaded : Headed ([a, b, 1, 0, 0, 1, 0, 0, 0, 0, 0, 0] ++ wire labels ++ [0, 0, 1, 0, 1]) := by
    refine ⟨?_, rfl⟩
    simp
  have hend : 12 + (wire labels).length + 1 + 4 ≤
      ([a, b, 1, 0, 0, 1, 0, 0, 0, 0, 0, 0] ++ wire labels ++ [0, 0, 1, 0, 1]).length := by
    simp
    omega
  have hquestion := question_spelled hheaded hspelled (by rw [octets_wire]; exact hlen) hend
  have hdrop : ([a, b, 1, 0, 0, 1, 0, 0, 0, 0, 0, 0] ++ wire labels ++ [0, 0, 1, 0, 1]).drop
      (12 + (wire labels).length + 1) = [0, 1, 0, 1] := by
    have hsplit : [a, b, 1, 0, 0, 1, 0, 0, 0, 0, 0, 0] ++ wire labels ++ [0, 0, 1, 0, 1] =
        ([a, b, 1, 0, 0, 1, 0, 0, 0, 0, 0, 0] ++ wire labels ++ [0]) ++ [0, 1, 0, 1] := by
      simp
    rw [hsplit]
    apply List.drop_left'
    simp
    omega
  rw [hquestion, hdrop]
  rfl

/-- A name of ASCII labels that fit is written and read back, in its canonical form and with
type A and class IN; a name is refused just when a label is empty or too long. -/
theorem createQuery_question (a b : UInt8) (name : String) :
    let labels := (name.toList.rdropWhile (· == '.')).splitOn '.'
    ((∀ c ∈ name.toList, c.toNat < 128) →
      (∀ l ∈ labels, 1 ≤ l.length ∧ l.length ≤ 63) →
      (labels.map (fun l => l.length + 1)).sum + 1 ≤ 255 →
      ∃ packet, createQuery a b name = .ok packet ∧
        question packet = .ok (labels.flatMap canonicalLabel ++ ['0', '0', '0', '1', '0', '0', '0', '1'],
          packet.length)) ∧
    ((∃ m, createQuery a b name = .error m) ↔
      ∃ l ∈ labels, l = [] ∨ 63 < stringLength l) := by
  intro labels
  constructor
  · intro hchars hsize hlen
    have hascii : ∀ c ∈ name.toList, ascii c = true := fun c hc => decide_eq_true (hchars c hc)
    have hlabels : ∀ l ∈ labels, ∀ c ∈ l, ascii c = true := queryLabels_ascii hascii
    have hmap : labels.map usAscii = labels.map (List.map asciiByte) :=
      List.map_congr_left (fun l hl => usAscii_text (hlabels l hl))
    have hwrite : writeLabels (queryLabels name) = .ok (wire (labels.map (List.map asciiByte))) := by
      rw [← hmap]
      apply writeLabels_ok
      intro l hl
      rw [stringLength_ascii (hlabels l hl)]
      obtain ⟨hpos, hmax⟩ := hsize l hl
      exact ⟨List.ne_nil_of_length_pos hpos, hmax⟩
    have hbounds : ∀ l ∈ labels.map (List.map asciiByte), 0 < l.length ∧ l.length ≤ 63 := by
      intro l hl
      obtain ⟨k, hk, rfl⟩ := List.mem_map.mp hl
      rw [List.length_map]
      exact hsize k hk
    have hwire : (wire (labels.map (List.map asciiByte))).length + 1 ≤ 255 := by
      rw [← octets_wire, octets, List.map_map]
      simpa [Function.comp_def] using hlen
    have htext : (labels.map (List.map asciiByte)).flatMap labelText = labels.flatMap canonicalLabel := by
      rw [List.flatMap_map]
      exact List.flatMap_congr (fun l hl => labelText_asciiByte (hlabels l hl))
    refine ⟨_, by rw [createQuery, hwrite]; rfl, ?_⟩
    rw [question_wire a b hbounds hwire, htext]
    congr 2
    simp
    omega
  · show _ ↔ ∃ l ∈ queryLabels name, l = [] ∨ 63 < stringLength l
    rw [← writeLabels_error, createQuery]
    cases writeLabels (queryLabels name) with
    | error m => simp [Except.map]
    | ok rest => simp [Except.map]

theorem createQuery_example_com :
    ∃ packet, createQuery 5 6 "Example.com." = .ok packet ∧
      question packet = .ok ("7:6578616D706C65/3:636F6D/00010001".toList, packet.length) := by
  have htext : ((("Example.com.".toList.rdropWhile (· == '.')).splitOn '.').flatMap canonicalLabel ++
      ['0', '0', '0', '1', '0', '0', '0', '1']) = "7:6578616D706C65/3:636F6D/00010001".toList := by
    decide +kernel
  have hascii : "Example.com.".toList.all (fun c => decide (c.toNat < 128)) = true := by decide +kernel
  rw [← htext]
  exact (createQuery_question 5 6 "Example.com.").1 (by simpa only [List.all_eq_true, decide_eq_true_eq] using hascii)
    (by decide +kernel) (by decide +kernel)

end DnsMessage
end EasyTierHost
