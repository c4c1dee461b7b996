import EasyTierHost.Bits.Bitmap
import Mathlib.Algebra.Order.Ring.Nat

/- Numbers as a fixed count of bytes, highest byte first. -/
namespace Bits

def toBytes : Nat → Nat → List Byte
  | 0, _ => []
  | k + 1, v => toBytes k (v / 256) ++ [BitVec.ofNat 8 v]

def ofBytes (l : List Byte) : Nat := l.foldl (fun n b => 256 * n + b.toNat) 0

@[simp] theorem length_toBytes : ∀ k v : Nat, (toBytes k v).length = k
  | 0, _ => rfl
  | k + 1, v => by rw [toBytes, List.length_append, length_toBytes k, List.length_singleton]

theorem ofBytes_concat (l : List Byte) (b : Byte) : ofBytes (l ++ [b]) = 256 * ofBytes l + b.toNat := by
  rw [ofBytes, List.foldl_append]
  rfl

theorem ofBytes_toBytes : ∀ k v : Nat, ofBytes (toBytes k v) = v % 256 ^ k
  | 0, v => by rw [toBytes, pow_zero, Nat.mod_one, ofBytes, List.foldl_nil]
  | k + 1, v => by
    have hpow : 256 ^ (k + 1) = 256 * 256 ^ k := Nat.pow_succ'
    rw [toBytes, ofBytes_concat, ofBytes_toBytes k, BitVec.toNat_ofNat, hpow, Nat.mod_mul]
    omega

/-- Numbers that fit are told apart by their bytes. -/
theorem toBytes_inj {k v v' : Nat} (hv : v < 256 ^ k) (hv' : v' < 256 ^ k) (h : toBytes k v = toBytes k v') : v = v' := by
  have hval := congrArg ofBytes h
  rwa [ofBytes_toBytes, ofBytes_toBytes, Nat.mod_eq_of_lt hv, Nat.mod_eq_of_lt hv'] at hval

end Bits
