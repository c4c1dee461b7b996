import Mathlib.Algebra.Group.Nat.Defs
import Mathlib.Tactic.Common

/- IPv4 addresses as the Host sees them: the address type, the text forms
   `System.Net.IPAddress` reads and prints, and the overlay address plan of
   Models.cs. Text is kept because the source compares text: a route's
   destination is the printed address followed by "/32", and the snapshot's
   gateway is compared with an address by printing the address.

   `IPAddress.Parse` reads an IPv4 address in every form inet_aton does (one to
   four parts, each decimal, octal or hexadecimal). An IPv6 address is kept as
   its text: the Host asks such an address for its family and nothing else. -/
namespace EasyTierHost

/-- `System.Net.IPAddress`. -/
inductive IPAddress where
  | v4 (a b c d : UInt8)
  | v6 (text : String)
  deriving DecidableEq, Repr

namespace IPAddress

/-- `AddressFamily == InterNetwork`. -/
def isV4 : IPAddress → Bool
  | v4 _ _ _ _ => true
  | v6 _ => false

/-- `IPAddress.ToString`. -/
def text : IPAddress → String
  | v4 a b c d => toString a ++ "." ++ toString b ++ "." ++ toString c ++ "." ++ toString d
  | v6 t => t

/-- `IPAddress.IsLoopback`. -/
def isLoopback : IPAddress → Bool
  | v4 a _ _ _ => a == 127
  | v6 t => t == "::1"

/-! ## Reading an address -/

/-- The value of a digit in a base up to 16. -/
def digit (base : Nat) (c : Char) : Option Nat :=
  let v := if '0' ≤ c ∧ c ≤ '9' then c.toNat - '0'.toNat
    else if 'a' ≤ c ∧ c ≤ 'f' then c.toNat - 'a'.toNat + 10
    else if 'A' ≤ c ∧ c ≤ 'F' then c.toNat - 'A'.toNat + 10
    else base
  if v < base then some v else none

/-- The value of a digit string, most significant digit first. -/
def digits (base : Nat) : Nat → List Char → Option Nat
  | acc, [] => some acc
  | acc, c :: cs => (digit base c).bind (fun d => digits base (acc * base + d) cs)

/-- One part: `0x` introduces hexadecimal, a further leading `0` octal. -/
def part : List Char → Option Nat
  | [] => none
  | ['0', 'x'] => none
  | ['0', 'X'] => none
  | '0' :: 'x' :: cs => digits 16 0 cs
  | '0' :: 'X' :: cs => digits 16 0 cs
  | '0' :: cs => digits 8 0 cs
  | cs => digits 10 0 cs

/-- Split at every occurrence of `sep`. -/
def splitAtChar (sep : Char) : List Char → List (List Char)
  | [] => [[]]
  | c :: cs =>
    if c = sep then [] :: splitAtChar sep cs
    else match splitAtChar sep cs with
      | [] => [[c]]
      | p :: ps => (c :: p) :: ps

def ofNumber (n : Nat) : IPAddress :=
  v4 (UInt8.ofNat (n / 2^24)) (UInt8.ofNat (n / 2^16)) (UInt8.ofNat (n / 2^8)) (UInt8.ofNat n)

/-- The leading parts are one octet each; the last one fills what is left. -/
def parseV4 (cs : List Char) : Option IPAddress :=
  match (splitAtChar '.' cs).mapM part with
  | some [n] => if n < 2^32 then some (ofNumber n) else none
  | some [a, n] => if a < 2^8 ∧ n < 2^24 then some (ofNumber (a * 2^24 + n)) else none
  | some [a, b, n] =>
    if a < 2^8 ∧ b < 2^8 ∧ n < 2^16 then some (ofNumber (a * 2^24 + b * 2^16 + n)) else none
  | some [a, b, c, n] =>
    if a < 2^8 ∧ b < 2^8 ∧ c < 2^8 ∧ n < 2^8 then
      some (ofNumber (a * 2^24 + b * 2^16 + c * 2^8 + n))
    else none
  | _ => none

/-- One group of an IPv6 address: up to four hexadecimal digits. -/
def isGroup (cs : List Char) : Bool :=
  cs.length ≤ 4 && (digits 16 0 cs).isSome

/-- Eight groups, or fewer around one `::`; the last two may be an IPv4 address. -/
def isV6 (cs : List Char) : Bool :=
  let groups := splitAtChar ':' cs
  let filled := groups.filter (!·.isEmpty)
  let tail := groups.getLastD []
  let dotted := tail.contains '.' && (parseV4 tail).isSome
  let width := if dotted then filled.length + 1 else filled.length
  let gaps := (groups.drop 1).dropLast.countP (·.isEmpty)
  -- an empty group at either end is half of a `::`
  let ends := fun (g : List (List Char)) => !(g.headD []).isEmpty || ((g.drop 1).headD ['0']).isEmpty
  (if dotted then filled.dropLast else filled).all isGroup && 3 ≤ groups.length &&
    (gaps = 0 && filled.length = groups.length && width = 8 ||
      gaps = 1 && width ≤ 7 && ends groups && ends groups.reverse)

/-- `IPAddress.TryParse`. -/
def tryParse (s : String) : Option IPAddress :=
  if s.toList.contains ':' then
    if isV6 s.toList then some (v6 s) else none
  else parseV4 s.toList

example : tryParse "192.168.1.1" = some (v4 192 168 1 1) := by decide
example : tryParse "0x7f.1" = some (v4 127 0 0 1) := by decide
example : tryParse "fe80::1" = some (v6 "fe80::1") := by decide

end IPAddress

/-! ## The overlay address plan -/

namespace OverlayAddressPlan

def cidr : String := "10.10.0.0/16"
def gateway : String := "10.10.0.1"

/-- `OverlayAddressPlan.Number`, for an IPv4 address. -/
def number : IPAddress → Option Nat
  | .v4 a b c d => some (a.toNat * 2^24 + b.toNat * 2^16 + c.toNat * 2^8 + d.toNat)
  | .v6 _ => none

def isOverlay (ip : IPAddress) : Bool :=
  match number ip with
  | some n => n / 2^16 == 0x0a0a
  | none => false

/-- The DHCP pool 10.10.0.11 .. 10.10.255.254. -/
def isClient (ip : IPAddress) : Bool :=
  match number ip with
  | some n => isOverlay ip && 0x0a0a000b ≤ n && n ≤ 0x0a0afffe
  | none => false

end OverlayAddressPlan

/-- The address test `RoutePlanner.Protect` and the profile validator share: an
IPv4 unicast address outside the overlay and not loopback. -/
def isPhysicalUnicast : IPAddress → Bool
  | .v4 a b c d =>
    !OverlayAddressPlan.isOverlay (.v4 a b c d) && !IPAddress.isLoopback (.v4 a b c d) &&
      0 < a && a < 224
  | .v6 _ => false

end EasyTierHost
