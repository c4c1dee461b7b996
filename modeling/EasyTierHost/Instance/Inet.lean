import Mathlib.Algebra.Group.Nat.Defs

/- The addresses of the DHCP loop. The crate `cidr` is not here: what Core asks of it is
   the parameter `InetLib`, with what Core relies on as its laws. `maskedInets` computes
   networks from the bits of an address, and is one such crate. -/
namespace EasyTierHost

/-- `std::net::Ipv4Addr`, as the number its order compares. -/
abbrev Ipv4Addr := UInt32

/-- `cidr::Ipv4Cidr`: a network. -/
structure Ipv4Cidr where
  address : Ipv4Addr
  networkLength : Nat
  bound : networkLength ≤ 32
  deriving DecidableEq, Repr

/-- `cidr::Ipv4Inet`: an address together with the length of its network. -/
structure Ipv4Inet where
  address : Ipv4Addr
  networkLength : Nat
  bound : networkLength ≤ 32
  deriving DecidableEq, Repr

theorem Ipv4Inet.bound_24 : 24 ≤ 32 := by decide

/-- The crate `cidr`: the network of an address, its ends and what lies in it, the addresses
`iter` goes through, and the checked constructor. -/
structure InetLib where
  network : Ipv4Inet → Ipv4Cidr
  firstAddress : Ipv4Inet → Ipv4Addr
  lastAddress : Ipv4Inet → Ipv4Addr
  contains : Ipv4Cidr → Ipv4Addr → Bool
  iter : Ipv4Cidr → List Ipv4Inet
  new : Ipv4Addr → Nat → Except String Ipv4Inet
  contains_iff : ∀ inet a,
    contains (network inet) a = true ↔ firstAddress inet ≤ a ∧ a ≤ lastAddress inet
  network_eq : ∀ inet other, other.networkLength = inet.networkLength →
    contains (network inet) other.address = true → network other = network inet
  new_ok : ∀ a length (h : length ≤ 32), new a length = .ok ⟨a, length, h⟩

/-! ## Networks by their bits -/

/-- An address with its host bits cleared, `length` bits being left. -/
def Ipv4Addr.masked (length : Nat) (a : Ipv4Addr) : Ipv4Addr :=
  UInt32.ofNat (a.toNat / 2 ^ (32 - length) * 2 ^ (32 - length))

namespace Ipv4Cidr

/-- The last address of a network has all its host bits set. -/
def last (net : Ipv4Cidr) : Ipv4Addr :=
  UInt32.ofNat (net.address.toNat + (2 ^ (32 - net.networkLength) - 1))

def hosts (net : Ipv4Cidr) : List Ipv4Inet :=
  (List.range (2 ^ (32 - net.networkLength))).map (fun k =>
    ⟨UInt32.ofNat (net.address.toNat + k), net.networkLength, net.bound⟩)

end Ipv4Cidr

namespace Ipv4Inet

def masked (inet : Ipv4Inet) : Ipv4Cidr :=
  ⟨Ipv4Addr.masked inet.networkLength inet.address, inet.networkLength, inet.bound⟩

def checked (address : Ipv4Addr) (networkLength : Nat) : Except String Ipv4Inet :=
  if h : networkLength ≤ 32 then .ok ⟨address, networkLength, h⟩
  else .error "invalid length for network"

theorem mask_lt (length : Nat) (a : Ipv4Addr) :
    a.toNat / 2 ^ (32 - length) * 2 ^ (32 - length) < 2 ^ 32 := by
  have hle := Nat.div_mul_le_self a.toNat (2 ^ (32 - length))
  have hlt := a.toNat_lt
  omega

theorem masked_toNat (length : Nat) (a : Ipv4Addr) :
    (Ipv4Addr.masked length a).toNat = a.toNat / 2 ^ (32 - length) * 2 ^ (32 - length) := by
  rw [Ipv4Addr.masked, UInt32.toNat_ofNat', Nat.mod_eq_of_lt (mask_lt length a)]

/-- The last address of a network does not leave the address space. -/
theorem last_toNat (inet : Ipv4Inet) : inet.masked.last.toNat
    = inet.address.toNat / 2 ^ (32 - inet.networkLength) * 2 ^ (32 - inet.networkLength)
      + (2 ^ (32 - inet.networkLength) - 1) := by
  have hpos : 0 < 2 ^ (32 - inet.networkLength) := Nat.two_pow_pos _
  have hdvd : 2 ^ (32 - inet.networkLength) * 2 ^ inet.networkLength = 2 ^ 32 := by
    rw [← Nat.pow_add]
    congr 1
    have hbound := inet.bound
    omega
  have hquot : inet.address.toNat / 2 ^ (32 - inet.networkLength) < 2 ^ inet.networkLength := by
    rw [Nat.div_lt_iff_lt_mul hpos, Nat.mul_comm, hdvd]
    exact inet.address.toNat_lt
  -- the network is one of `2 ^ networkLength` blocks
  have hblock : (inet.address.toNat / 2 ^ (32 - inet.networkLength) + 1)
      * 2 ^ (32 - inet.networkLength) ≤ 2 ^ 32 := by
    rw [← hdvd, Nat.mul_comm (2 ^ (32 - inet.networkLength)) (2 ^ inet.networkLength)]
    exact Nat.mul_le_mul_right _ hquot
  rw [Nat.add_mul, Nat.one_mul] at hblock
  show (UInt32.ofNat ((Ipv4Addr.masked inet.networkLength inet.address).toNat
    + (2 ^ (32 - inet.networkLength) - 1))).toNat = _
  rw [masked_toNat, UInt32.toNat_ofNat', Nat.mod_eq_of_lt (by omega)]

/-- Between the ends of a network the bits above the host bits are the network's. -/
theorem masked_of_between {inet : Ipv4Inet} {a : Ipv4Addr} (hlo : inet.masked.address ≤ a)
    (hhi : a ≤ inet.masked.last) : Ipv4Addr.masked inet.networkLength a = inet.masked.address := by
  have hpos : 0 < 2 ^ (32 - inet.networkLength) := Nat.two_pow_pos _
  have hlo' : inet.address.toNat / 2 ^ (32 - inet.networkLength) * 2 ^ (32 - inet.networkLength)
      ≤ a.toNat := by
    rw [← masked_toNat]
    exact UInt32.le_iff_toNat_le.mp hlo
  have hhi' := UInt32.le_iff_toNat_le.mp hhi
  rw [last_toNat] at hhi'
  have hquot : a.toNat / 2 ^ (32 - inet.networkLength)
      = inet.address.toNat / 2 ^ (32 - inet.networkLength) := by
    apply Nat.div_eq_of_lt_le hlo'
    rw [Nat.add_mul, Nat.one_mul]
    omega
  show UInt32.ofNat _ = UInt32.ofNat _
  rw [hquot]

end Ipv4Inet

def maskedInets : InetLib where
  network := Ipv4Inet.masked
  firstAddress inet := inet.masked.address
  lastAddress inet := inet.masked.last
  contains net a := decide (net.address ≤ a ∧ a ≤ net.last)
  iter := Ipv4Cidr.hosts
  new := Ipv4Inet.checked
  contains_iff := by
    intro inet a
    exact decide_eq_true_iff
  network_eq := by
    intro inet other hlen hin
    obtain ⟨hlo, hhi⟩ := of_decide_eq_true hin
    have haddr := Ipv4Inet.masked_of_between hlo hhi
    simp only [Ipv4Inet.masked, hlen] at haddr ⊢
    rw [haddr]
  new_ok := by
    intro a length h
    exact dif_pos h

end EasyTierHost
