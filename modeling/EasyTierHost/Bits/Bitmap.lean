import Mathlib.Data.List.Basic

/- Bitmaps in bytes: bit `i` is bit `i % 8` of byte `i / 8`. Reading, setting, and moving
   all bits up by some places, first by whole bytes in place and then by the bits left
   over with a carry from byte to byte. -/
namespace Bits

abbrev Byte := BitVec 8

/-- Bit `i`, if the bitmap reaches that far. -/
def getBit? (l : List Byte) (i : Nat) : Option Bool := (l[i / 8]?).map (fun b => b.getLsbD (i % 8))

/-- Bit `i`, and no bits beyond the end. -/
def bit (l : List Byte) (i : Nat) : Bool := (getBit? l i).getD false

def setBit (l : List Byte) (i : Nat) : List Byte := l.modify (i / 8) (fun b => b ||| 1#8 <<< (i % 8))

/-- All bytes `k` places up, from the last one down. -/
def moveBytes (l : List Byte) (k : Nat) : List Byte :=
  (List.range l.length).reverse.foldl (fun l i => l.set i (if k ≤ i then l.getD (i - k) 0 else 0)) l

/-- All bits `s` places up, with what the byte before carries over. -/
def moveBits (s : Nat) : Byte → List Byte → List Byte
  | _, [] => []
  | carry, b :: l => (b <<< s ||| carry) :: moveBits s (b >>> (8 - s)) l

theorem getBit?_eq_some {l : List Byte} {i : Nat} (h : i < 8 * l.length) : getBit? l i = some (bit l i) := by
  have hi : i / 8 < l.length := by omega
  rw [bit, getBit?, List.getElem?_eq_getElem hi]
  rfl

/-! ## Setting -/

@[simp] theorem length_setBit (l : List Byte) (i : Nat) : (setBit l i).length = l.length := List.length_modify ..

theorem getLsbD_one_shift (x : Byte) {i j : Nat} (hi : i < 8) (hj : j < 8) :
    (x ||| 1#8 <<< i).getLsbD j = (decide (j = i) || x.getLsbD j) := by
  rw [BitVec.getLsbD_or, BitVec.getLsbD_shiftLeft, BitVec.getLsbD_one, Bool.or_comm]
  congr 1
  by_cases h : j = i
  · subst h
    simp [hj]
  · by_cases hlt : j < i
    · simp [hlt, h]
    · have hne : ¬ j - i = 0 := by omega
      simp [h, hne]

theorem bit_setBit {l : List Byte} {i : Nat} (hi : i < 8 * l.length) (j : Nat) :
    bit (setBit l i) j = (decide (j = i) || bit l j) := by
  have hlen : i / 8 < l.length := by omega
  rw [bit, bit, getBit?, getBit?, setBit]
  by_cases hbyte : i / 8 = j / 8
  · rw [← hbyte, List.getElem?_modify_eq, List.getElem?_eq_getElem hlen]
    simp only [Option.map_some, Option.getD_some, Option.map_eq_map]
    rw [getLsbD_one_shift _ (Nat.mod_lt i (by omega)) (Nat.mod_lt j (by omega))]
    congr 1
    apply decide_eq_decide.mpr
    omega
  · have hne : ¬ j = i := by
      rintro rfl
      exact hbyte rfl
    rw [List.getElem?_modify_ne _ _ hbyte]
    simp [hne]

@[simp] theorem length_foldl_setBit (l : List Byte) (is : List Nat) : (is.foldl setBit l).length = l.length := by
  induction is generalizing l with
  | nil => rfl
  | cons i is ih => rw [List.foldl_cons, ih, length_setBit]

/-- After a run of settings the bits set are the ones from before and those in the run. -/
theorem bit_foldl_setBit : ∀ {is : List Nat} {l : List Byte}, (∀ i ∈ is, i < 8 * l.length) → ∀ j,
    bit (is.foldl setBit l) j = (decide (j ∈ is) || bit l j)
  | [], l, _, j => by simp
  | i :: is, l, h, j => by
    have hrest : ∀ k ∈ is, k < 8 * (setBit l i).length := by
      intro k hk
      rw [length_setBit]
      exact h k (List.mem_cons_of_mem i hk)
    rw [List.foldl_cons, bit_foldl_setBit hrest, bit_setBit (h i List.mem_cons_self), ← Bool.or_assoc]
    congr 1
    rw [Bool.or_comm, ← Bool.decide_or]
    exact decide_eq_decide.mpr List.mem_cons.symm

/-! ## Moving -/

@[simp] theorem length_moveBits (s : Nat) : ∀ (l : List Byte) (c : Byte), (moveBits s c l).length = l.length
  | [], _ => rfl
  | b :: l, _ => by rw [moveBits, List.length_cons, length_moveBits s l, List.length_cons]

theorem bit_cons_lt (b : Byte) (l : List Byte) {j : Nat} (hj : j < 8) : bit (b :: l) j = b.getLsbD j := by
  rw [bit, getBit?, Nat.div_eq_of_lt hj, Nat.mod_eq_of_lt hj]
  rfl

theorem bit_cons_ge (b : Byte) (l : List Byte) {j : Nat} (hj : 8 ≤ j) : bit (b :: l) j = bit l (j - 8) := by
  obtain ⟨k, rfl⟩ : ∃ k, j = k + 8 := ⟨j - 8, by omega⟩
  rw [Nat.add_sub_cancel, bit, bit, getBit?, getBit?, Nat.add_div_right k (by omega), Nat.add_mod_right,
    List.getElem?_cons_succ]

/-- The lowest bits come from the carry, the others from the bits below. -/
theorem bit_moveBits {s : Nat} (hs : s < 8) : ∀ (l : List Byte) (c : Byte) (j : Nat), (∀ k, s ≤ k → c.getLsbD k = false) →
    j < 8 * l.length → bit (moveBits s c l) j = if j < s then c.getLsbD j else bit l (j - s)
  | [], _, j, _, hj => absurd hj (by simp)
  | b :: l, c, j, hc, hj => by
    rw [List.length_cons] at hj
    rw [moveBits]
    by_cases hj8 : j < 8
    · rw [bit_cons_lt _ _ hj8, BitVec.getLsbD_or, BitVec.getLsbD_shiftLeft]
      by_cases hjs : j < s
      · rw [if_pos hjs]
        simp [hjs]
      · rw [if_neg hjs, bit_cons_lt b l (by omega), hc j (by omega)]
        simp [hj8, hjs]
    · have hcarry : ∀ k, s ≤ k → (b >>> (8 - s)).getLsbD k = false := by
        intro k hk
        rw [BitVec.getLsbD_ushiftRight]
        exact BitVec.getLsbD_of_ge b (8 - s + k) (by omega)
      rw [bit_cons_ge _ _ (by omega), bit_moveBits hs l _ (j - 8) hcarry (by omega), if_neg (show ¬ j < s by omega)]
      by_cases hjs : j - 8 < s
      · rw [if_pos hjs, BitVec.getLsbD_ushiftRight, bit_cons_lt b l (by omega)]
        congr 1
        omega
      · rw [if_neg hjs, bit_cons_ge b l (by omega)]
        congr 1
        omega

/-- The loop from the last byte down, when only the bytes below `n` are left to move. -/
theorem moveBytes_loop (k : Nat) (l₀ : List Byte) : ∀ (n : Nat) (l : List Byte), l.length = l₀.length → n ≤ l₀.length →
    (∀ i, i < n → l[i]? = l₀[i]?) →
    (∀ i, n ≤ i → i < l₀.length → l[i]? = some (if k ≤ i then l₀.getD (i - k) 0 else 0)) →
    ∀ i, i < l₀.length →
      ((List.range n).reverse.foldl (fun l i => l.set i (if k ≤ i then l.getD (i - k) 0 else 0)) l)[i]? =
        some (if k ≤ i then l₀.getD (i - k) 0 else 0)
  | 0, _, _, _, _, hdone => fun i hi => hdone i (Nat.zero_le i) hi
  | n + 1, l, hlen, hn, hleft, hdone => by
    rw [List.range_succ, List.reverse_append, List.reverse_singleton, List.singleton_append, List.foldl_cons]
    have hget : l.getD (n - k) 0 = l₀.getD (n - k) 0 := by
      rw [List.getD_eq_getElem?_getD, List.getD_eq_getElem?_getD, hleft (n - k) (by omega)]
    refine moveBytes_loop k l₀ n _ (by rw [List.length_set, hlen]) (by omega) ?_ ?_
    · intro i hi
      rw [List.getElem?_set_ne (by omega)]
      exact hleft i (by omega)
    · intro i hni hi
      by_cases hin : i = n
      · subst hin
        rw [List.getElem?_set_self (by omega), hget]
      · rw [List.getElem?_set_ne (by omega)]
        exact hdone i (by omega) hi

@[simp] theorem length_moveBytes (l : List Byte) (k : Nat) : (moveBytes l k).length = l.length := by
  have hloop : ∀ (is : List Nat) (l : List Byte),
      (is.foldl (fun l i => l.set i (if k ≤ i then l.getD (i - k) 0 else 0)) l).length = l.length := by
    intro is
    induction is with
    | nil => exact fun _ => rfl
    | cons i is ih =>
      intro l
      rw [List.foldl_cons, ih, List.length_set]
  exact hloop _ l

theorem bit_moveBytes {l : List Byte} (k : Nat) {j : Nat} (hj : j < 8 * l.length) :
    bit (moveBytes l k) j = if j < 8 * k then false else bit l (j - 8 * k) := by
  have hbyte := moveBytes_loop k l l.length l rfl (Nat.le_refl _) (fun _ _ => rfl)
    (fun i h h' => absurd h' (Nat.not_lt.mpr h)) (j / 8) (by omega)
  rw [bit, getBit?, moveBytes, hbyte]
  by_cases hjk : j < 8 * k
  · rw [if_pos hjk, if_neg (by omega)]
    simp
  · rw [if_neg hjk, if_pos (by omega), bit, getBit?, List.getD_eq_getElem?_getD]
    have hdiv : (j - 8 * k) / 8 = j / 8 - k := by omega
    have hmod : (j - 8 * k) % 8 = j % 8 := by omega
    have hlt : j / 8 - k < l.length := by omega
    rw [hdiv, hmod, List.getElem?_eq_getElem hlt]
    rfl

theorem bit_replicate (n i : Nat) : bit (List.replicate n 0) i = false := by
  rw [bit, getBit?, List.getElem?_replicate]
  by_cases h : i / 8 < n
  · rw [if_pos h]
    simp
  · rw [if_neg h]
    rfl

end Bits
