import Mathlib.Data.List.Basic
import EasyTierHost.Abstractions.Address

/- Addresses from their bytes, and what their texts tell apart. `IPAddress.ToString`
   writes the four numbers of an IPv4 address with dots between them, so its text
   gives it back. Of an IPv6 address it writes the groups in hexadecimal, the longest
   run of zeros as `::` and, where the address embeds an IPv4 address, the last two
   groups as one; whatever it writes has a colon. -/
namespace EasyTierHost.IPAddress

/-! ## IPv6 -/

/-- The groups of sixteen bits. -/
def groups : List UInt8 → List Nat
  | a :: b :: rest => (a.toNat * 256 + b.toNat) :: groups rest
  | _ => []

/-- `FindCompressionRange`: the current run, and the longest so far as its start and end. -/
def compressionLoop : List Nat → Nat → Nat → Nat × Nat → Nat × Nat
  | [], _, _, best => best
  | n :: rest, i, run, best =>
    if n = 0 then
      compressionLoop rest (i + 1) (run + 1)
        (if best.2 - best.1 < run + 1 then (i - run, i + 1) else best)
    else compressionLoop rest (i + 1) 0 best

/-- A single zero is not compressed. -/
def compressionRange (numbers : List Nat) : Option (Nat × Nat) :=
  let best := compressionLoop numbers 0 0 (0, 0)
  if 1 < best.2 - best.1 then some best else none

def hexGroups (numbers : List Nat) : List Char :=
  [':'].intercalate (numbers.map (Nat.toDigits 16))

/-- `AppendSections`. -/
def sections (numbers : List Nat) : List Char :=
  match compressionRange numbers with
  | some (first, last) => hexGroups (numbers.take first) ++ ':' :: ':' :: hexGroups (numbers.drop last)
  | none => hexGroups numbers

/-- `ShouldHaveIpv4Embedded`. -/
def embedsV4 (numbers : List Nat) : Bool :=
  let g := fun i => numbers.getD i 0
  (g 0 == 0 && g 1 == 0 && g 2 == 0 && g 3 == 0 && g 6 != 0 &&
      ((g 4 == 0 && (g 5 == 0 || g 5 == 0xffff)) || (g 4 == 0xffff && g 5 == 0))) ||
    (g 4 == 0 && g 5 == 0x5efe)

/-- The text of an IPv6 address. -/
def textV6 (bytes : List UInt8) : List Char :=
  let numbers := groups bytes
  if embedsV4 numbers then
    let front := sections (numbers.take 6)
    let separator := if front.getLast? = some ':' then [] else [':']
    let number := fun i => bytes.getD i 0
    front ++ separator ++ (v4 (number 12) (number 13) (number 14) (number 15)).text.toList
  else sections numbers

/-- `new IPAddress(bytes)`, of four or sixteen bytes. -/
def ofBytes : List UInt8 → Option IPAddress
  | [a, b, c, d] => some (v4 a b c d)
  | bytes => if bytes.length = 16 then some (v6 (String.ofList (textV6 bytes))) else none

example : (ofBytes [32, 1, 13, 184, 0, 0, 0, 0, 0, 0, 0, 0, 0, 0, 0, 53]).map text = some "2001:db8::35" := by
  decide +kernel

theorem colon_mem_hexGroups : ∀ {numbers : List Nat}, 2 ≤ numbers.length → ':' ∈ hexGroups numbers
  | [], h => by simp at h
  | [_], h => by simp at h
  | a :: b :: rest, _ => by
    rw [hexGroups, List.map_cons, List.map_cons, List.intercalate_cons_cons]
    simp

theorem colon_mem_sections {numbers : List Nat} (h : 2 ≤ numbers.length) : ':' ∈ sections numbers := by
  rw [sections]
  split
  · simp
  · exact colon_mem_hexGroups h

theorem length_groups : ∀ {bytes : List UInt8} {n : Nat}, bytes.length = 2 * n → (groups bytes).length = n
  | [], n, h => by
    rw [List.length_nil] at h
    change 0 = n
    omega
  | [_], n, h => by
    simp only [List.length_singleton] at h
    omega
  | a :: b :: rest, n, h => by
    have hrest : rest.length = 2 * (n - 1) := by
      simp only [List.length_cons] at h
      omega
    have hlen := length_groups hrest
    simp only [List.length_cons] at h
    rw [groups, List.length_cons, hlen]
    omega

theorem colon_mem_textV6 {bytes : List UInt8} (h : bytes.length = 16) : ':' ∈ textV6 bytes := by
  have hlen : (groups bytes).length = 8 := length_groups h
  simp only [textV6]
  split
  · have hfront : ':' ∈ sections ((groups bytes).take 6) := by
      apply colon_mem_sections
      rw [List.length_take]
      omega
    simp [hfront]
  · apply colon_mem_sections
    omega

theorem exists_four {bytes : List UInt8} (h : bytes.length = 4) : ∃ a b c d, bytes = [a, b, c, d] := by
  obtain ⟨a, rest, rfl⟩ := List.exists_cons_of_length_eq_add_one h
  have hrest : rest.length = 3 := by
    rw [List.length_cons] at h
    omega
  obtain ⟨b, c, d, rfl⟩ := List.length_eq_three.1 hrest
  exact ⟨a, b, c, d, rfl⟩

theorem ofBytes_sixteen {bytes : List UInt8} (h : bytes.length = 16) :
    ofBytes bytes = some (v6 (String.ofList (textV6 bytes))) := by
  unfold ofBytes
  split
  · simp at h
  · rw [if_pos h]

/-! ## IPv4 -/

/-- The numbers of an IPv4 address. -/
def octets (a b c d : UInt8) : List (List Char) := [a, b, c, d].map (fun n => Nat.toDigits 10 n.toNat)

theorem text_v4_toList (a b c d : UInt8) :
    (v4 a b c d).text.toList = ['.'].intercalate (octets a b c d) := by
  have hnumber : ∀ n : UInt8, (toString n).toList = Nat.toDigits 10 n.toNat :=
    fun n => Nat.toList_repr
  simp [text, octets, hnumber]

theorem not_mem_digits {c : Char} (hc : c.isDigit = false) (n : Nat) : c ∉ Nat.toDigits 10 n := by
  intro hmem
  have hdigit := Nat.isDigit_of_mem_toDigits (by decide) (by decide) hmem
  rw [hc] at hdigit
  cases hdigit

theorem dot_not_mem_octets {a b c d : UInt8} {l : List Char} (h : l ∈ octets a b c d) : '.' ∉ l := by
  obtain ⟨n, -, rfl⟩ := List.mem_map.1 h
  exact not_mem_digits (by decide) n.toNat

theorem colon_not_mem_text_v4 (a b c d : UInt8) : ':' ∉ (v4 a b c d).text.toList := by
  have hdigits : ∀ n, ':' ∉ Nat.toDigits 10 n := not_mem_digits (by decide)
  rw [text_v4_toList]
  simp [octets, List.intercalate_cons_cons, hdigits]

theorem octet_inj {a b : UInt8} (h : Nat.toDigits 10 a.toNat = Nat.toDigits 10 b.toNat) : a = b := by
  apply UInt8.toNat_inj.1
  rw [← Nat.ofDigitChars_toDigits (b := 10) (n := a.toNat) (by decide) (by decide), h,
    Nat.ofDigitChars_toDigits (by decide) (by decide)]

/-- The text of an IPv4 address gives it back. -/
theorem text_v4_inj {a b c d a' b' c' d' : UInt8}
    (h : (v4 a b c d).text = (v4 a' b' c' d').text) : v4 a b c d = v4 a' b' c' d' := by
  have hchars := congrArg String.toList h
  rw [text_v4_toList, text_v4_toList] at hchars
  have hsplit := congrArg (List.splitOn '.') hchars
  rw [List.splitOn_intercalate '.' (fun _ => dot_not_mem_octets) (by simp [octets]),
    List.splitOn_intercalate '.' (fun _ => dot_not_mem_octets) (by simp [octets])] at hsplit
  simp only [octets, List.map_cons, List.map_nil, List.cons.injEq, and_true] at hsplit
  obtain ⟨ha, hb, hc, hd⟩ := hsplit
  rw [octet_inj ha, octet_inj hb, octet_inj hc, octet_inj hd]

/-! ## Reading a text back -/

theorem splitAtChar_of_not_mem {sep : Char} : ∀ {cs : List Char}, sep ∉ cs → splitAtChar sep cs = [cs]
  | [], _ => rfl
  | c :: cs, h => by
    rw [List.mem_cons, not_or] at h
    have ih := splitAtChar_of_not_mem h.2
    rw [splitAtChar, if_neg (Ne.symm h.1), ih]

theorem splitAtChar_append {sep : Char} (rest : List Char) : ∀ {cs : List Char}, sep ∉ cs →
    splitAtChar sep (cs ++ sep :: rest) = cs :: splitAtChar sep rest
  | [], _ => by rw [List.nil_append, splitAtChar, if_pos rfl]
  | c :: cs, h => by
    rw [List.mem_cons, not_or] at h
    have ih := splitAtChar_append rest h.2
    rw [List.cons_append, splitAtChar, if_neg (Ne.symm h.1), ih]

theorem splitAtChar_text (a b c d : UInt8) :
    splitAtChar '.' (v4 a b c d).text.toList = octets a b c d := by
  have hdot : ∀ n, '.' ∉ Nat.toDigits 10 n := not_mem_digits (by decide)
  rw [text_v4_toList]
  simp only [octets, List.map_cons, List.map_nil, List.intercalate_cons_cons,
    List.intercalate_singleton, List.append_assoc, List.singleton_append]
  rw [splitAtChar_append _ (hdot _), splitAtChar_append _ (hdot _), splitAtChar_append _ (hdot _),
    splitAtChar_of_not_mem (hdot _)]

theorem part_digits : ∀ n < 256, part (Nat.toDigits 10 n) = some n := by decide +kernel

theorem part_octet (n : UInt8) : part (Nat.toDigits 10 n.toNat) = some n.toNat :=
  part_digits n.toNat n.toNat_lt

theorem ofNumber_octets (a b c d : UInt8) :
    ofNumber (a.toNat * 2^24 + b.toNat * 2^16 + c.toNat * 2^8 + d.toNat) = v4 a b c d := by
  have ha := a.toNat_lt
  have hb := b.toNat_lt
  have hc := c.toNat_lt
  have hd := d.toNat_lt
  rw [ofNumber, v4.injEq]
  refine ⟨?_, ?_, ?_, ?_⟩
  · apply UInt8.toNat_inj.1
    rw [UInt8.toNat_ofNat']
    omega
  · apply UInt8.toNat_inj.1
    rw [UInt8.toNat_ofNat']
    omega
  · apply UInt8.toNat_inj.1
    rw [UInt8.toNat_ofNat']
    omega
  · apply UInt8.toNat_inj.1
    rw [UInt8.toNat_ofNat']
    omega

/-- The text of an IPv4 address is read as that address. -/
theorem tryParse_text (a b c d : UInt8) : tryParse (v4 a b c d).text = some (v4 a b c d) := by
  have hcolon : (v4 a b c d).text.toList.contains ':' = false := by
    simpa using colon_not_mem_text_v4 a b c d
  have hparts : (octets a b c d).mapM part = some [a.toNat, b.toNat, c.toNat, d.toNat] := by
    simp [octets, part_octet]
  rw [tryParse, hcolon, parseV4, splitAtChar_text, hparts]
  have hnumber := ofNumber_octets a b c d
  have hlt := fun n : UInt8 => n.toNat_lt
  simp only [Bool.false_eq_true, if_false, hlt, and_self, if_true, hnumber]

end EasyTierHost.IPAddress

namespace EasyTierHost

/-- `Enumerable.Distinct` lists nothing twice. -/
theorem nodup_eraseDups {α : Type} [BEq α] [LawfulBEq α] : ∀ l : List α, l.eraseDups.Nodup
  | [] => List.nodup_nil
  | s :: l => by
    have ih := nodup_eraseDups (l.filter (fun t => !t == s))
    rw [List.eraseDups_cons, List.nodup_cons]
    refine ⟨?_, ih⟩
    simp [List.mem_eraseDups]
termination_by l => l.length
decreasing_by
  have hle := List.length_filter_le (fun t => !t == s) l
  rw [List.length_cons]
  omega

end EasyTierHost
