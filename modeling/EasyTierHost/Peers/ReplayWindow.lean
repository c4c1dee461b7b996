import EasyTierHost.Bits.Bitmap
import EasyTierHost.Effects.Gate

/- The replay window of one epoch (peers/secure_datagram.rs). Bit `i` of its 256 bits is
   for the number `i` below the highest one; a `usize` has 64 bits. Over any requests it
   lets through a number that was not let through before and is not 256 or more below
   another one, and no other. -/
namespace EasyTierHost.Peers
open Bits Effects

structure ReplayWindow256 where
  max_seq : Nat
  bitmap : List Byte
  valid : Bool
  size : bitmap.length = 32
deriving DecidableEq

namespace ReplayWindow256

def default : ReplayWindow256 := ⟨0, List.replicate 32 0, false, List.length_replicate⟩

instance : Inhabited ReplayWindow256 := ⟨default⟩

def clear (_ : ReplayWindow256) : ReplayWindow256 := default

def test_bit (w : ReplayWindow256) (idx : Nat) : Bool := bit w.bitmap idx

def set_bit (w : ReplayWindow256) (idx : Nat) : ReplayWindow256 :=
  ⟨w.max_seq, setBit w.bitmap idx, w.valid, by rw [length_setBit, w.size]⟩

def shifted (l : List Byte) (shift : Nat) : List Byte :=
  if shift = 0 then l
  else if 256 ≤ shift then List.replicate l.length 0
  else
    let l := if 0 < shift / 8 then moveBytes l (shift / 8) else l
    if 0 < shift % 8 then moveBits (shift % 8) 0 l else l

theorem length_shifted (l : List Byte) (shift : Nat) : (shifted l shift).length = l.length := by
  rw [shifted]
  split_ifs <;> simp

def shift_right (w : ReplayWindow256) (shift : Nat) : ReplayWindow256 :=
  ⟨w.max_seq, shifted w.bitmap shift, w.valid, by rw [length_shifted, w.size]⟩

def accept (w : ReplayWindow256) (seq : Nat) : Bool × ReplayWindow256 :=
  if ¬ w.valid then (true, { w with valid := true, max_seq := seq }.set_bit 0)
  else if w.max_seq < seq then (true, { w.shift_right (seq - w.max_seq) with max_seq := seq }.set_bit 0)
  else if 256 ≤ w.max_seq - seq then (false, w)
  else if w.test_bit (w.max_seq - seq) then (false, w)
  else (true, w.set_bit (w.max_seq - seq))

def can_accept (w : ReplayWindow256) (seq : Nat) : Bool :=
  if ¬ w.valid ∨ w.max_seq < seq then true
  else decide (w.max_seq - seq < 256) && !w.test_bit (w.max_seq - seq)

/-! ## Bits -/

@[simp] theorem test_bit_default (i : Nat) : default.test_bit i = false := bit_replicate 32 i

theorem test_bit_set_bit (w : ReplayWindow256) {i : Nat} (hi : i < 256) (j : Nat) :
    (w.set_bit i).test_bit j = (decide (j = i) || w.test_bit j) := by
  have hlen := w.size
  exact bit_setBit (by omega) j

theorem bit_shifted {l : List Byte} (hl : l.length = 32) (shift : Nat) {j : Nat} (hj : j < 256) :
    bit (shifted l shift) j = if j < shift then false else bit l (j - shift) := by
  rw [shifted]
  by_cases h0 : shift = 0
  · subst h0
    simp
  rw [if_neg h0]
  by_cases hall : 256 ≤ shift
  · rw [if_pos hall, if_pos (by omega), bit_replicate]
  rw [if_neg hall]
  have hbytes : ∀ j, j < 256 → bit (if 0 < shift / 8 then moveBytes l (shift / 8) else l) j =
      if j < 8 * (shift / 8) then false else bit l (j - 8 * (shift / 8)) := by
    intro j hj
    by_cases hb : 0 < shift / 8
    · rw [if_pos hb]
      exact bit_moveBytes _ (by omega)
    · have hz : shift / 8 = 0 := by omega
      rw [hz]
      simp
  have hlen : (if 0 < shift / 8 then moveBytes l (shift / 8) else l).length = 32 := by
    split_ifs
    · rw [length_moveBytes, hl]
    · exact hl
  show bit (if 0 < shift % 8 then moveBits (shift % 8) 0 _ else _) j = _
  by_cases hb : 0 < shift % 8
  · rw [if_pos hb, bit_moveBits (Nat.mod_lt shift (by omega)) _ _ _ (fun k _ => by simp) (by omega)]
    by_cases hjs : j < shift % 8
    · rw [if_pos hjs, if_pos (by omega)]
      simp
    · rw [if_neg hjs, hbytes _ (by omega)]
      by_cases hj' : j < shift
      · rw [if_pos hj', if_pos (by omega)]
      · rw [if_neg hj', if_neg (by omega)]
        congr 1
        omega
  · rw [if_neg hb, hbytes j hj]
    have hmod : 8 * (shift / 8) = shift := by omega
    rw [hmod]

/-! ## What a request changes -/

theorem accept_eq_can_accept (w : ReplayWindow256) (seq : Nat) : (w.accept seq).1 = w.can_accept seq := by
  rw [accept, can_accept]
  by_cases hv : w.valid
  · by_cases hlt : w.max_seq < seq
    · simp [hv, hlt]
    · by_cases hfar : 256 ≤ w.max_seq - seq
      · have hnear : ¬ w.max_seq - seq < 256 := by omega
        simp [hv, hlt, hfar, hnear]
      · have hnear : w.max_seq - seq < 256 := by omega
        simp only [hv, hlt, hfar, hnear, not_true, if_false, or_self, decide_true, Bool.true_and]
        cases w.test_bit (w.max_seq - seq) <;> rfl
  · simp [hv]

/-- A number that is refused: the window is past it, or has its bit. -/
theorem can_accept_eq_false {w : ReplayWindow256} {seq : Nat} : w.can_accept seq = false ↔
    w.valid = true ∧ seq ≤ w.max_seq ∧ (w.max_seq - seq < 256 → w.test_bit (w.max_seq - seq) = true) := by
  rw [can_accept]
  by_cases hv : w.valid
  · by_cases hlt : w.max_seq < seq
    · have hgt : ¬ seq ≤ w.max_seq := Nat.not_le.mpr hlt
      simp [hlt, hgt]
    · simp [hv, hlt, Nat.not_lt.mp hlt]
  · simp [hv]

theorem accept_of_refused {w : ReplayWindow256} {seq : Nat} (h : w.can_accept seq = false) : (w.accept seq).2 = w := by
  obtain ⟨hv, hle, hbit⟩ := can_accept_eq_false.mp h
  rw [accept, if_neg (not_not.mpr hv), if_neg (Nat.not_lt.mpr hle)]
  by_cases hfar : 256 ≤ w.max_seq - seq
  · rw [if_pos hfar]
  · rw [if_neg hfar, if_pos (hbit (by omega))]

/-- What a number that goes through does to the window. -/
theorem accept_of_accepted {w : ReplayWindow256} {seq : Nat} (h : w.can_accept seq = true) :
    (w.accept seq).2.valid = true ∧ seq ≤ (w.accept seq).2.max_seq ∧
      (w.accept seq).2.max_seq = (if w.valid then max w.max_seq seq else seq) ∧
      ∀ m, m ≤ (w.accept seq).2.max_seq → (w.accept seq).2.max_seq - m < 256 →
        (w.accept seq).2.test_bit ((w.accept seq).2.max_seq - m) = (decide (m = seq) ||
          if w.valid then decide (m ≤ w.max_seq) && w.test_bit (w.max_seq - m) else w.test_bit (seq - m)) := by
  rw [accept]
  by_cases hv : w.valid
  · rw [if_neg (not_not.mpr hv), if_pos hv]
    by_cases hlt : w.max_seq < seq
    · rw [if_pos hlt]
      refine ⟨hv, Nat.le_refl _, (Nat.max_eq_right (Nat.le_of_lt hlt)).symm, ?_⟩
      intro m hm hnear
      rw [test_bit_set_bit _ (by omega)]
      change m ≤ seq at hm
      change seq - m < 256 at hnear
      show (decide (seq - m = 0) || bit (shifted w.bitmap (seq - w.max_seq)) (seq - m)) = _
      rw [bit_shifted w.size _ hnear, if_pos hv]
      congr 1
      · apply decide_eq_decide.mpr
        omega
      · by_cases hmax : m ≤ w.max_seq
        · have hdelta : seq - m - (seq - w.max_seq) = w.max_seq - m := by omega
          rw [if_neg (by omega), hdelta]
          simp [hmax, test_bit]
        · rw [if_pos (by omega)]
          simp [hmax]
    · rw [if_neg hlt]
      have hnot : ¬ w.can_accept seq = false := by simp [h]
      rw [can_accept_eq_false] at hnot
      have hnear : ¬ 256 ≤ w.max_seq - seq := by
        intro hfar
        exact hnot ⟨hv, Nat.not_lt.mp hlt, fun hn => absurd hn (by omega)⟩
      have hbit : ¬ w.test_bit (w.max_seq - seq) = true := by
        intro hb
        exact hnot ⟨hv, Nat.not_lt.mp hlt, fun _ => hb⟩
      rw [if_neg hnear, if_neg hbit]
      refine ⟨hv, Nat.not_lt.mp hlt, (Nat.max_eq_left (Nat.not_lt.mp hlt)).symm, ?_⟩
      intro m hm hnear'
      change m ≤ w.max_seq at hm
      show (w.set_bit (w.max_seq - seq)).test_bit (w.max_seq - m) = _
      rw [test_bit_set_bit _ (by omega), if_pos hv]
      congr 1
      · apply decide_eq_decide.mpr
        omega
      · simp [hm]
  · rw [if_pos hv, if_neg hv]
    refine ⟨rfl, Nat.le_refl _, rfl, ?_⟩
    intro m hm hnear
    rw [test_bit_set_bit _ (by omega), if_neg hv]
    change m ≤ seq at hm
    congr 1
    apply decide_eq_decide.mpr
    show seq - m = 0 ↔ m = seq
    omega

theorem refused_after {w : ReplayWindow256} {seq : Nat} (h : (w.accept seq).1 = true) :
    (w.accept seq).2.can_accept seq = false := by
  rw [accept_eq_can_accept] at h
  obtain ⟨hv, hle, -, hbits⟩ := accept_of_accepted h
  refine can_accept_eq_false.mpr ⟨hv, hle, fun hnear => ?_⟩
  rw [hbits seq hle hnear]
  simp

theorem refused_stays {w : ReplayWindow256} {m : Nat} (seq : Nat) (h : w.can_accept m = false) :
    (w.accept seq).2.can_accept m = false := by
  cases hseq : w.can_accept seq with
  | false => rwa [accept_of_refused hseq]
  | true =>
    obtain ⟨hv, hle, hbit⟩ := can_accept_eq_false.mp h
    obtain ⟨hv', -, hmax, hbits⟩ := accept_of_accepted hseq
    rw [if_pos hv] at hmax
    have hle' : m ≤ (w.accept seq).2.max_seq := by omega
    refine can_accept_eq_false.mpr ⟨hv', hle', fun hnear => ?_⟩
    rw [hbits m hle' hnear, if_pos hv, hbit (by omega)]
    simp [hle]

/-! ## Over any requests -/

/-- The window of a history: the numbers that were let through. -/
structure Records (w : ReplayWindow256) (h : List Nat) : Prop where
  fresh : w.valid = false → h = [] ∧ ∀ i, w.test_bit i = false
  highest : w.valid = true → w.max_seq ∈ h ∧ ∀ m ∈ h, m ≤ w.max_seq
  bits : w.valid = true → ∀ m, m ≤ w.max_seq → w.max_seq - m < 256 → w.test_bit (w.max_seq - m) = decide (m ∈ h)

theorem records_default : Records default [] where
  fresh := fun _ => ⟨rfl, test_bit_default⟩
  highest := fun h => by cases h
  bits := fun h => by cases h

namespace Records
variable {w : ReplayWindow256} {h : List Nat}

theorem can_accept_iff (r : Records w h) (seq : Nat) :
    w.can_accept seq = true ↔ seq ∉ h ∧ ∀ m ∈ h, m < seq + 256 := by
  by_cases hv : w.valid = true
  · obtain ⟨hmem, hmax⟩ := r.highest hv
    rw [← Bool.not_eq_false, can_accept_eq_false]
    by_cases hle : seq ≤ w.max_seq
    · by_cases hnear : w.max_seq - seq < 256
      · have hbits := r.bits hv seq hle hnear
        have hnew : ∀ m ∈ h, m < seq + 256 := by
          intro m hm
          have hm' := hmax m hm
          omega
        simp only [hv, hle, hnear, hbits, true_and, forall_const, decide_eq_true_eq]
        exact ⟨fun hn => ⟨hn, hnew⟩, And.left⟩
      · have hold : ¬ ∀ m ∈ h, m < seq + 256 := by
          intro hall
          have hm := hall _ hmem
          omega
        simp [hv, hle, hnear, hold]
    · have hnot : seq ∉ h := fun hm => hle (hmax seq hm)
      have hnew : ∀ m ∈ h, m < seq + 256 := by
        intro m hm
        have hm' := hmax m hm
        omega
      simp only [hle, false_and, and_false, not_false_iff, true_iff]
      exact ⟨hnot, hnew⟩
  · rw [Bool.not_eq_true] at hv
    obtain ⟨rfl, -⟩ := r.fresh hv
    simp [can_accept, hv]

theorem accept (r : Records w h) (seq : Nat) :
    Records (w.accept seq).2 (h ++ if (w.accept seq).1 then [seq] else []) := by
  rw [accept_eq_can_accept]
  cases hseq : w.can_accept seq with
  | false =>
    rw [accept_of_refused hseq, if_neg (by simp), List.append_nil]
    exact r
  | true =>
    obtain ⟨hv', hle, hmax, hbits⟩ := accept_of_accepted hseq
    rw [if_pos rfl]
    refine ⟨fun hnv => absurd hv' (by simp [hnv]), fun _ => ?_, fun _ m hm hnear => ?_⟩
    · by_cases hv : w.valid = true
      · obtain ⟨hmem, hall⟩ := r.highest hv
        rw [if_pos hv] at hmax
        refine ⟨?_, ?_⟩
        · rw [hmax, List.mem_append, List.mem_singleton]
          by_cases hlt : w.max_seq < seq
          · exact .inr (Nat.max_eq_right (Nat.le_of_lt hlt))
          · rw [Nat.max_eq_left (Nat.not_lt.mp hlt)]
            exact .inl hmem
        · intro m hm
          rw [List.mem_append, List.mem_singleton] at hm
          rcases hm with hm | rfl
          · have hm' := hall m hm
            omega
          · exact hle
      · rw [if_neg hv] at hmax
        rw [Bool.not_eq_true] at hv
        obtain ⟨rfl, -⟩ := r.fresh hv
        rw [hmax]
        simp
    · have hmem : decide (m ∈ h ++ [seq]) = (decide (m = seq) || decide (m ∈ h)) := by
        simp [Bool.or_comm]
      rw [hbits m hm hnear, hmem]
      congr 1
      by_cases hv : w.valid = true
      · obtain ⟨hmem, hall⟩ := r.highest hv
        rw [if_pos hv] at hmax ⊢
        by_cases hmw : m ≤ w.max_seq
        · rw [r.bits hv m hmw (by omega)]
          simp [hmw]
        · have hnot : m ∉ h := fun hmh => hmw (hall m hmh)
          simp [hmw, hnot]
      · rw [if_neg hv]
        rw [Bool.not_eq_true] at hv
        obtain ⟨rfl, hzero⟩ := r.fresh hv
        simp [hzero]

end Records

/-- One request of a run. -/
def request (w : ReplayWindow256) (seq : Nat) : Option Nat × ReplayWindow256 :=
  (if (w.accept seq).1 then some seq else none, (w.accept seq).2)

theorem records_of_run (seqs : List Nat) : ∀ {w : ReplayWindow256} {h : List Nat}, Records w h →
    Records (reached request w seqs) (h ++ passed request w seqs) := by
  induction seqs with
  | nil =>
    intro w h r
    rw [passed, List.append_nil]
    exact r
  | cons seq seqs ih =>
    intro w h r
    have hstep := ih (r.accept seq)
    rw [List.append_assoc] at hstep
    have htoList : (request w seq).1.toList = if (w.accept seq).1 then [seq] else [] := by
      rw [request]
      split_ifs <;> rfl
    rw [passed, htoList]
    exact hstep

theorem bars : Bars (fun _ => True) (fun _ _ => True) request (fun w m => w.can_accept m = false) where
  inv_step := fun _ _ _ _ => trivial
  passes := fun w seq m _ _ h => by
    rw [request] at h
    by_cases hacc : (w.accept seq).1 = true
    · rw [if_pos hacc, Option.some.injEq] at h
      subst h
      refine ⟨?_, refused_after hacc⟩
      rw [accept_eq_can_accept] at hacc
      simp [hacc]
    · rw [if_neg hacc] at h
      cases h
  keeps := fun _ seq _ _ _ h => refused_stays seq h

/-- After any requests a number goes through just when it is new and not 256 or more below
another one. -/
theorem accept_of_run (seqs : List Nat) (seq : Nat) :
    (passed request default seqs).Nodup ∧
      (((reached request default seqs).accept seq).1 = true ↔
        seq ∉ passed request default seqs ∧ ∀ m ∈ passed request default seqs, m < seq + 256) ∧
      (reached request default seqs).can_accept seq = ((reached request default seqs).accept seq).1 := by
  have hrec := records_of_run seqs records_default
  rw [List.nil_append] at hrec
  have halong : ∀ (seqs : List Nat) (w : ReplayWindow256), Along (fun _ _ => True) request w seqs := by
    intro seqs
    induction seqs with
    | nil => exact fun _ => trivial
    | cons seq seqs ih => exact fun w => ⟨trivial, ih _⟩
  refine ⟨bars.nodup seqs default trivial (halong seqs default), ?_, (accept_eq_can_accept _ seq).symm⟩
  rw [accept_eq_can_accept]
  exact hrec.can_accept_iff seq

end ReplayWindow256
end EasyTierHost.Peers
