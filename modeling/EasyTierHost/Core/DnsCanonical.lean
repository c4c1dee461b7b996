import EasyTierHost.Core.DnsQuestion
import Mathlib.Data.List.Forall2

/- The text that `Question` returns stands for the name it read. A label is written
   with its size in front, so that no byte of a label can be taken for a separator,
   and the four bytes of type and class behind the last label have no colon. So the
   text gives back the labels, in lower case, and the four bytes, wherever the
   pointers of the packet led. -/
namespace EasyTierHost
namespace DnsMessage

/-! ## Letters -/

/-- Bytes that are the same or the two cases of an ASCII letter. -/
def SameLetter (a b : UInt8) : Prop :=
  a = b ∨ (0x41 ≤ a ∧ a ≤ 0x5a ∧ b = a + 32) ∨ (0x41 ≤ b ∧ b ≤ 0x5a ∧ a = b + 32)

/-- Label sequences that are the same up to letter case. -/
def SameLabels : List (List UInt8) → List (List UInt8) → Prop := List.Forall₂ (List.Forall₂ SameLetter)

theorem lower_toNat (a : UInt8) :
    (lower a).toNat = if 65 ≤ a.toNat ∧ a.toNat ≤ 90 then a.toNat + 32 else a.toNat := by
  have hcond : (0x41 ≤ a ∧ a ≤ 0x5a) ↔ (65 ≤ a.toNat ∧ a.toNat ≤ 90) := by
    rw [UInt8.le_iff_toNat_le, UInt8.le_iff_toNat_le]
    rfl
  unfold lower
  by_cases h : 65 ≤ a.toNat ∧ a.toNat ≤ 90
  · rw [if_pos (hcond.mpr h), if_pos h, UInt8.toNat_add]
    have h32 : (32 : UInt8).toNat = 32 := rfl
    omega
  · rw [if_neg (mt hcond.mp h), if_neg h]

theorem lower_eq_iff {a b : UInt8} : lower a = lower b ↔ SameLetter a b := by
  have hcase : ∀ x y : UInt8, (0x41 ≤ x ∧ x ≤ 0x5a ∧ y = x + 32) ↔
      (65 ≤ x.toNat ∧ x.toNat ≤ 90 ∧ y.toNat = x.toNat + 32) := by
    intro x y
    rw [UInt8.le_iff_toNat_le, UInt8.le_iff_toNat_le, ← UInt8.toNat_inj, UInt8.toNat_add]
    have h65 : (0x41 : UInt8).toNat = 65 := rfl
    have h90 : (0x5a : UInt8).toNat = 90 := rfl
    have h32 : (32 : UInt8).toNat = 32 := rfl
    rw [h65, h90, h32]
    constructor
    · omega
    · omega
  rw [SameLetter, hcase, hcase, ← UInt8.toNat_inj, ← UInt8.toNat_inj, lower_toNat, lower_toNat]
  split <;> split <;> omega

theorem map_eq_map_iff {α β : Type} {f : α → β} {R : α → α → Prop} (h : ∀ a b, f a = f b ↔ R a b) :
    ∀ {as bs : List α}, as.map f = bs.map f ↔ List.Forall₂ R as bs
  | [], [] => by simp
  | [], _ :: _ => by simp
  | _ :: _, [] => by simp
  | a :: as, b :: bs => by
    rw [List.map_cons, List.map_cons, List.cons.injEq, List.forall₂_cons, h, map_eq_map_iff h]

theorem map_lower_eq_iff {as bs : List (List UInt8)} :
    as.map (List.map lower) = bs.map (List.map lower) ↔ SameLabels as bs := by
  apply map_eq_map_iff
  intro a b
  apply map_eq_map_iff
  intro x y
  exact lower_eq_iff

/-! ## The text of labels -/

theorem hexDigit_inj : ∀ i < 16, ∀ j < 16,
    "0123456789ABCDEF".toList.getD i '0' = "0123456789ABCDEF".toList.getD j '0' → i = j := by
  decide

theorem hex_inj {a b : UInt8} (h : hex a = hex b) : a = b := by
  have ha := a.toNat_lt
  have hb := b.toNat_lt
  simp only [hex, List.cons.injEq, and_true] at h
  have hhigh := hexDigit_inj (a.toNat / 16) (by omega) (b.toNat / 16) (by omega) h.1
  have hlow := hexDigit_inj (a.toNat % 16) (by omega) (b.toNat % 16) (by omega) h.2
  apply UInt8.toNat_inj.mp
  omega

theorem hexDigit_not_colon : ∀ i < 16, "0123456789ABCDEF".toList.getD i '0' ≠ ':' := by
  decide

theorem colon_not_mem_hex (bytes : List UInt8) : ':' ∉ bytes.flatMap hex := by
  intro h
  obtain ⟨b, -, hb⟩ := List.mem_flatMap.mp h
  have hlt := b.toNat_lt
  simp only [hex, List.mem_cons, List.not_mem_nil, or_false] at hb
  cases hb with
  | inl hb =>
    exact hexDigit_not_colon (b.toNat / 16) (by omega) hb.symm
  | inr hb =>
    exact hexDigit_not_colon (b.toNat % 16) (by omega) hb.symm

theorem length_flatMap_hex (bytes : List UInt8) : (bytes.flatMap hex).length = 2 * bytes.length := by
  induction bytes with
  | nil => rfl
  | cons b bytes ih =>
    rw [List.flatMap_cons, List.length_append, ih, List.length_cons]
    show 2 + 2 * bytes.length = 2 * (bytes.length + 1)
    omega

theorem flatMap_hex_inj : ∀ {as bs : List UInt8}, as.flatMap hex = bs.flatMap hex → as = bs
  | [], [], _ => rfl
  | [], b :: bs, h => by
    have hlen := congrArg List.length h
    rw [length_flatMap_hex, length_flatMap_hex, List.length_nil, List.length_cons] at hlen
    omega
  | a :: as, [], h => by
    have hlen := congrArg List.length h
    rw [length_flatMap_hex, length_flatMap_hex, List.length_nil, List.length_cons] at hlen
    omega
  | a :: as, b :: bs, h => by
    rw [List.flatMap_cons, List.flatMap_cons] at h
    obtain ⟨hhead, htail⟩ := List.append_inj h rfl
    rw [hex_inj hhead, flatMap_hex_inj htail]

theorem colon_not_mem_digits (n : Nat) : ':' ∉ Nat.toDigits 10 n := by
  intro h
  have hd := Nat.isDigit_of_mem_toDigits (by decide) (by decide) h
  exact absurd hd (by decide)

theorem toDigits_inj {n m : Nat} (h : Nat.toDigits 10 n = Nat.toDigits 10 m) : n = m := by
  rw [← Nat.ofDigitChars_toDigits (b := 10) (n := n) (by decide) (by decide), h,
    Nat.ofDigitChars_toDigits (by decide) (by decide)]

/-- What stands in front of the first occurrence of a character, and behind it. -/
theorem append_cons_inj {c : Char} : ∀ {as bs xs ys : List Char}, c ∉ as → c ∉ bs →
    as ++ c :: xs = bs ++ c :: ys → as = bs ∧ xs = ys
  | [], [], _, _, _, _, h => ⟨rfl, List.tail_eq_of_cons_eq h⟩
  | [], b :: bs, _, _, _, hb, h => by
    have hhead := List.head_eq_of_cons_eq h
    exact absurd (hhead ▸ List.mem_cons_self) hb
  | a :: as, [], _, _, ha, _, h => by
    have hhead := List.head_eq_of_cons_eq h
    exact absurd (hhead ▸ List.mem_cons_self) ha
  | a :: as, b :: bs, _, _, ha, hb, h => by
    have hrest := append_cons_inj (fun hm => ha (List.mem_cons_of_mem a hm))
      (fun hm => hb (List.mem_cons_of_mem b hm)) (List.tail_eq_of_cons_eq h)
    rw [List.head_eq_of_cons_eq h, hrest.1]
    exact ⟨rfl, hrest.2⟩

theorem labelText_append (label : List UInt8) (rest : List Char) :
    labelText label ++ rest =
      Nat.toDigits 10 label.length ++ ':' :: ((label.map lower).flatMap hex ++ '/' :: rest) := by
  simp [labelText, List.flatMap_map]

/-- The first label of a text, and what follows it. -/
theorem labelText_append_inj {a b : List UInt8} {xs ys : List Char}
    (h : labelText a ++ xs = labelText b ++ ys) : a.map lower = b.map lower ∧ xs = ys := by
  rw [labelText_append, labelText_append] at h
  obtain ⟨hsize, hrest⟩ := append_cons_inj (colon_not_mem_digits _) (colon_not_mem_digits _) h
  have hlen : ((a.map lower).flatMap hex).length = ((b.map lower).flatMap hex).length := by
    rw [length_flatMap_hex, length_flatMap_hex, List.length_map, List.length_map, toDigits_inj hsize]
  obtain ⟨hbytes, htail⟩ := List.append_inj hrest hlen
  exact ⟨flatMap_hex_inj hbytes, List.tail_eq_of_cons_eq htail⟩

theorem colon_mem_labelText (label : List UInt8) : ':' ∈ labelText label := by
  simp [labelText]

/-- The text of a question gives back its labels in lower case and its last bytes. -/
theorem questionText_inj {ta tb : List UInt8} : ∀ {la lb : List (List UInt8)},
    la.flatMap labelText ++ ta.flatMap hex = lb.flatMap labelText ++ tb.flatMap hex →
      la.map (List.map lower) = lb.map (List.map lower) ∧ ta = tb
  | [], [], h => ⟨rfl, flatMap_hex_inj h⟩
  | [], b :: lb, h => by
    have hcolon : ':' ∈ ta.flatMap hex := by
      rw [List.flatMap_nil, List.nil_append] at h
      rw [h, List.flatMap_cons, List.append_assoc]
      exact List.mem_append_left _ (colon_mem_labelText b)
    exact absurd hcolon (colon_not_mem_hex ta)
  | a :: la, [], h => by
    have hcolon : ':' ∈ tb.flatMap hex := by
      rw [List.flatMap_nil, List.nil_append] at h
      rw [← h, List.flatMap_cons, List.append_assoc]
      exact List.mem_append_left _ (colon_mem_labelText a)
    exact absurd hcolon (colon_not_mem_hex tb)
  | a :: la, b :: lb, h => by
    rw [List.flatMap_cons, List.flatMap_cons, List.append_assoc, List.append_assoc] at h
    obtain ⟨hlabel, hrest⟩ := labelText_append_inj h
    obtain ⟨hlabels, htail⟩ := questionText_inj hrest
    rw [List.map_cons, List.map_cons, hlabel, hlabels]
    exact ⟨rfl, htail⟩

theorem labelText_lower {a b : List UInt8} (h : a.map lower = b.map lower) : labelText a = labelText b := by
  have hlen : a.length = b.length := by
    rw [← List.length_map lower, h, List.length_map]
  have ha := labelText_append a []
  have hb := labelText_append b []
  rw [List.append_nil] at ha hb
  rw [ha, hb, h, hlen]

theorem flatMap_labelText_lower : ∀ {la lb : List (List UInt8)},
    la.map (List.map lower) = lb.map (List.map lower) → la.flatMap labelText = lb.flatMap labelText
  | [], [], _ => rfl
  | [], _ :: _, h => by simp at h
  | _ :: _, [], h => by simp at h
  | a :: la, b :: lb, h => by
    rw [List.map_cons, List.map_cons, List.cons.injEq] at h
    rw [List.flatMap_cons, List.flatMap_cons, labelText_lower h.1, flatMap_labelText_lower h.2]

/-! ## The question -/

/-- The four bytes of type and class. -/
def typeClass (packet : Packet) (stop : Nat) : List UInt8 := (packet.drop (stop - 4)).take 4

/-- There is one name at an offset. -/
theorem Named.unique {packet : Packet} {o : Nat} {la : List (List UInt8)} (ha : Named packet o la) :
    ∀ {lb : List (List UInt8)}, Named packet o lb → la = lb := by
  induction ha with
  | root h =>
    intro lb hb
    cases hb with
    | root _ => rfl
    | label h' hs _ _ => rw [h] at h'; cases h'; exact absurd hs.1 (by decide)
    | pointer h' hs _ _ => rw [h] at h'; cases h'; exact absurd hs (by decide)
  | label h hs hb hr ih =>
    intro lb hlb
    cases hlb with
    | root h' => rw [h] at h'; cases h'; exact absurd hs.1 (by decide)
    | label h' _ _ hr' => rw [h] at h'; cases h'; rw [ih hr']
    | pointer h' hs' _ _ => rw [h] at h'; cases h'; omega
  | pointer h hs hl hr ih =>
    intro lb hlb
    cases hlb with
    | root h' => rw [h] at h'; cases h'; exact absurd hs (by decide)
    | label h' hs' _ _ => rw [h] at h'; cases h'; omega
    | pointer h' _ hl' hr' => rw [h] at h'; cases h'; rw [hl] at hl'; cases hl'; exact ih hr'

/-- A run of the loop reads the name at its offset and writes down its labels. -/
theorem Reads.named {packet : Packet} {c c' : Cursor} (h : Reads packet c c') :
    ∃ labels, Named packet c.offset labels ∧ c'.result = c.result ++ labels.flatMap labelText := by
  induction h with
  | stop hf h => exact ⟨[], .root h, by simp [Cursor.moved]⟩
  | pointer hf h hs hl hr ih =>
    obtain ⟨labels, hn, hres⟩ := ih
    exact ⟨labels, .pointer h hs hl hn, hres⟩
  | label hf h hs hb hl hr ih =>
    obtain ⟨labels, hn, hres⟩ := ih
    refine ⟨_, .label h hs hb hn, ?_⟩
    rw [hres, List.flatMap_cons, List.append_assoc]

/-- An accepted question is one name and four bytes, and its text is their text. -/
theorem question_named {packet : Packet} {text : List Char} {stop : Nat}
    (h : question packet = .ok (text, stop)) :
    ∃ labels, Named packet 12 labels ∧
      text = labels.flatMap labelText ++ (typeClass packet stop).flatMap hex := by
  obtain ⟨-, c, hr, hs, -, htext⟩ := question_ok h
  obtain ⟨labels, hn, hres⟩ := hr.named
  refine ⟨labels, hn, ?_⟩
  rw [htext, hres, typeClass, hs, Nat.add_sub_cancel]
  rfl

/-- The texts of two questions are the same just if their labels are, up to letter case,
and their types and classes. -/
theorem question_eq_iff {a b : Packet} {x y : List Char × Nat} (ha : question a = .ok x)
    (hb : question b = .ok y) {la lb : List (List UInt8)} (hla : Named a 12 la) (hlb : Named b 12 lb) :
    x.1 = y.1 ↔ SameLabels la lb ∧ typeClass a x.2 = typeClass b y.2 := by
  obtain ⟨la', hla', hx⟩ := question_named ha
  obtain ⟨lb', hlb', hy⟩ := question_named hb
  cases hla.unique hla'
  cases hlb.unique hlb'
  rw [hx, hy, ← map_lower_eq_iff]
  constructor
  · exact questionText_inj
  · intro h
    rw [flatMap_labelText_lower h.1, h.2]

end DnsMessage
end EasyTierHost
