import EasyTierHost.Abstractions.Models

/- `System.Text.Json.JsonElement`, as far as the Host reads the output of system
   commands with it: the document is taken as read, and an element of the wrong kind,
   a number out of range or a missing property throws. -/
namespace EasyTierHost

/-- `JsonElement`; a number is a whole one. -/
inductive Json where
  | null
  | boolean (b : Bool)
  | number (n : Int)
  | string (s : String)
  | array (items : List Json)
  | object (fields : List (String × Json))

namespace Json

/-- What an element of another kind throws. -/
def wrongKind : Err := .invalidOperation "The requested operation requires another element kind"

def enumerateArray : Json → Except Err (List Json)
  | array items => .ok items
  | _ => .error wrongKind

/-- `element[i]`. -/
def item (i : Nat) : Json → Except Err Json
  | array items =>
    match items[i]? with
    | some x => .ok x
    | none => .error (.other "IndexOutOfRangeException")
  | _ => .error wrongKind

/-- `GetProperty`: of fields with one name the last one counts. -/
def getProperty (name : String) : Json → Except Err Json
  | object fields =>
    match fields.reverse.lookup name with
    | some x => .ok x
    | none => .error (.other "KeyNotFoundException")
  | _ => .error wrongKind

def getByte : Json → Except Err UInt8
  | number n => if 0 ≤ n ∧ n < 256 then .ok (UInt8.ofNat n.toNat) else .error .format
  | _ => .error wrongKind

def getInt32 : Json → Except Err Int
  | number n => if -2147483648 ≤ n ∧ n ≤ 2147483647 then .ok n else .error .format
  | _ => .error wrongKind

/-- `GetString`, of which null is one value. -/
def getString : Json → Except Err (Option String)
  | string s => .ok (some s)
  | null => .ok none
  | _ => .error wrongKind

/-- `TryGetProperty`. -/
def tryGetProperty (name : String) : Json → Except Err (Option Json)
  | object fields => .ok (fields.reverse.lookup name)
  | _ => .error wrongKind

def getBoolean : Json → Except Err Bool
  | boolean b => .ok b
  | _ => .error wrongKind

/-! ## Reading back -/

theorem mapM_map_ok {α β : Type} {f : Json → Except Err β} {g : α → Json} {h : α → β}
    (hf : ∀ a, f (g a) = .ok (h a)) : ∀ l : List α, (l.map g).mapM f = .ok (l.map h)
  | [] => rfl
  | a :: l => by
    have hl := mapM_map_ok hf l
    rw [List.map_cons, List.mapM_cons, hf, hl]
    rfl

theorem getByte_number (b : UInt8) : getByte (.number b.toNat) = .ok b := by
  have hlt : b.toNat < 256 := b.toNat_lt
  have hrange : (0 : Int) ≤ b.toNat ∧ (b.toNat : Int) < 256 := by omega
  rw [getByte, if_pos hrange, Int.toNat_natCast, UInt8.ofNat_toNat]

end Json

end EasyTierHost
