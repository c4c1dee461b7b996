import Mathlib.Tactic.Common

/- DNS messages, after DnsMessage.cs: reading the question of a packet, matching a
   response with its query and making up a failure. A packet is the list of its
   bytes. Every access to a byte is checked, and an access outside the packet is
   an exception of its own, `outOfRange`, apart from the `IOException`s the
   source throws.

   `Question` follows compression pointers wherever they point. Its loop is
   bounded by its own hop counter; the set of visited offsets is kept as the
   source keeps it. -/
namespace EasyTierHost
namespace DnsMessage

abbrev Packet := List UInt8

/-- `IOException` with its message, or an index outside the packet. -/
inductive Fault where
  | io (message : String)
  | outOfRange
  deriving DecidableEq, Repr

def byteAt (packet : Packet) (i : Nat) : Except Fault UInt8 :=
  match packet[i]? with
  | some b => .ok b
  | none => .error .outOfRange

/-- `packet.Slice(start, count)`, and a loop that reads as many bytes. -/
def slice (packet : Packet) (start count : Nat) : Except Fault (List UInt8) :=
  if start + count ≤ packet.length then .ok ((packet.drop start).take count)
  else .error .outOfRange

/-- `BinaryPrimitives.ReadUInt16BigEndian`. -/
def readUInt16 (packet : Packet) (i : Nat) : Except Fault Nat := do
  let high ← byteAt packet i
  let low ← byteAt packet (i + 1)
  pure (high.toNat * 256 + low.toNat)

/-! ## The question -/

/-- `b.ToString("X2")`. -/
def hex (b : UInt8) : List Char :=
  let digit := fun n => "0123456789ABCDEF".toList.getD n '0'
  [digit (b.toNat / 16), digit (b.toNat % 16)]

/-- Letters are compared in lower case. -/
def lower (b : UInt8) : UInt8 := if 0x41 ≤ b ∧ b ≤ 0x5a then b + 32 else b

/-- What is appended for one label. -/
def labelText (label : List UInt8) : List Char :=
  (toString label.length).toList ++ ':' :: (label.flatMap (fun b => hex (lower b)) ++ ['/'])

/-- The variables of the loop. `consumed` is -1 in the source until the first
pointer is read. -/
structure Cursor where
  offset : Nat := 12
  consumed : Option Nat := none
  hops : Nat := 0
  length : Nat := 0
  result : List Char := []
  visited : List Nat := []
  deriving DecidableEq, Repr

/-- How a turn of the loop ends. -/
inductive Turn where
  | stop (c : Cursor)
  | again (c : Cursor)
  deriving DecidableEq, Repr

/-- The target of a pointer. -/
def target (size low : UInt8) : Nat := (size &&& 0x3f).toNat * 256 + low.toNat

def Turn.ofPointer (packet : Packet) (c : Cursor) (size : UInt8) : Except Fault Turn := do
  if packet.length ≤ c.offset then throw (.io "Truncated DNS pointer")
  let low ← byteAt packet c.offset
  pure (.again { c with consumed := some (c.consumed.getD (c.offset + 1)), offset := target size low })

def Turn.ofLabel (packet : Packet) (c : Cursor) (size : UInt8) : Except Fault Turn := do
  if 63 < size.toNat ∨ packet.length < c.offset + size.toNat ∨ 254 < c.length + (size.toNat + 1) then
    throw (.io "Invalid DNS label")
  let label ← slice packet c.offset size.toNat
  pure (.again { c with
    offset := c.offset + size.toNat
    length := c.length + (size.toNat + 1)
    result := c.result ++ labelText label })

/-- One turn of the loop. -/
def turn (packet : Packet) (c : Cursor) : Except Fault Turn := do
  if packet.length ≤ c.offset ∨ c.offset ∈ c.visited ∨ 128 < c.hops + 1 then
    throw (.io "Invalid DNS name pointer")
  let size ← byteAt packet c.offset
  let c := { c with
    offset := c.offset + 1
    visited := c.offset :: c.visited
    hops := c.hops + 1 }
  if size = 0 then pure (.stop c)
  else if size &&& 0xc0 = 0xc0 then Turn.ofPointer packet c size
  else Turn.ofLabel packet c size

/-- The cursor behind the size byte it stood on. -/
def Cursor.moved (c : Cursor) : Cursor :=
  { c with offset := c.offset + 1, visited := c.offset :: c.visited, hops := c.hops + 1 }

/-- The loop may read a byte here: it is in the packet, it was not read before
and there are hops left. -/
structure Cursor.Fresh (packet : Packet) (c : Cursor) : Prop where
  within : c.offset < packet.length
  unvisited : c.offset ∉ c.visited
  hops : c.hops < 128

/-- All a turn can do. -/
inductive Turns (packet : Packet) (c : Cursor) : Except Fault Turn → Prop where
  | fault (message : String) : Turns packet c (.error (.io message))
  | stop (hf : c.Fresh packet) (h : packet[c.offset]? = some 0) :
    Turns packet c (.ok (.stop c.moved))
  | pointer (hf : c.Fresh packet) {size low : UInt8} (h : packet[c.offset]? = some size)
    (hs : 192 ≤ size.toNat) (hl : packet[c.offset + 1]? = some low) :
    Turns packet c (.ok (.again { c.moved with
      consumed := some (c.consumed.getD (c.offset + 2)), offset := target size low }))
  | label (hf : c.Fresh packet) {size : UInt8} (h : packet[c.offset]? = some size)
    (hs : 0 < size.toNat ∧ size.toNat ≤ 63) (hb : c.offset + 1 + size.toNat ≤ packet.length)
    (hl : c.length + (size.toNat + 1) ≤ 254) :
    Turns packet c (.ok (.again { c.moved with
      offset := c.offset + 1 + size.toNat
      length := c.length + (size.toNat + 1)
      result := c.result ++ labelText ((packet.drop (c.offset + 1)).take size.toNat) }))

theorem byteAt_ok {packet : Packet} {i : Nat} (h : i < packet.length) :
    ∃ b, packet[i]? = some b ∧ byteAt packet i = .ok b :=
  ⟨packet[i], by simp, by simp [byteAt, h]⟩

theorem pointer_iff : ∀ size : UInt8, size &&& 0xc0 = 0xc0 ↔ 192 ≤ size.toNat := by
  have h : ∀ n : Fin 256, UInt8.ofFin n &&& 0xc0 = 0xc0 ↔ 192 ≤ n.val := by decide +kernel
  exact fun size => h size.toFin

theorem turn_turns (packet : Packet) (c : Cursor) : Turns packet c (turn packet c) := by
  unfold turn
  split
  next => exact .fault _
  next hguard =>
    have hf : c.Fresh packet := ⟨by omega, by tauto, by omega⟩
    obtain ⟨size, hsize, hread⟩ := byteAt_ok hf.within
    rw [hread]
    show Turns packet c (if size = 0 then .ok (.stop c.moved)
      else if size &&& 0xc0 = 0xc0 then Turn.ofPointer packet c.moved size
      else Turn.ofLabel packet c.moved size)
    split
    next hzero => exact .stop hf (by rw [hsize, hzero])
    split
    next hpointer =>
      unfold Turn.ofPointer
      split
      next => exact .fault _
      next hin =>
        obtain ⟨low, hlow, hreadLow⟩ := byteAt_ok (Nat.lt_of_not_le hin)
        rw [hreadLow]
        exact .pointer hf hsize ((pointer_iff size).mp hpointer) hlow
    next hzero hpointer =>
      unfold Turn.ofLabel
      split
      next => exact .fault _
      next hin =>
        simp only [not_or, Nat.not_lt] at hin
        have hpos : 0 < size.toNat := by
          have : size.toNat ≠ 0 := fun h => hzero (UInt8.toNat_inj.mp h)
          omega
        have hslice : slice packet c.moved.offset size.toNat =
            .ok ((packet.drop (c.offset + 1)).take size.toNat) := if_pos hin.2.1
        rw [hslice]
        exact .label hf hsize ⟨hpos, hin.1⟩ hin.2.1 hin.2.2

/-- A turn that goes on has used up a hop. -/
theorem turn_again_hops {packet : Packet} {c c' : Cursor} (h : turn packet c = .ok (.again c')) :
    128 - c'.hops < 128 - c.hops := by
  have ht := turn_turns packet c
  rw [h] at ht
  cases ht with
  | pointer hf _ _ _ =>
    have := hf.hops
    show 128 - (c.hops + 1) < 128 - c.hops
    omega
  | label hf _ _ _ _ =>
    have := hf.hops
    show 128 - (c.hops + 1) < 128 - c.hops
    omega

/-- The loop over the name. -/
def nameLoop (packet : Packet) (c : Cursor) : Except Fault Cursor :=
  match _h : turn packet c with
  | .error e => .error e
  | .ok (.stop c') => .ok c'
  | .ok (.again c') => nameLoop packet c'
termination_by 128 - c.hops
decreasing_by exact turn_again_hops _h

/-- The type and class of the question, read behind its name. -/
def questionTail (packet : Packet) (c : Cursor) : Except Fault (List Char × Nat) :=
  let stop := c.consumed.getD c.offset + 4
  if packet.length < stop then .error (.io "Truncated DNS question")
  else (slice packet (stop - 4) 4).map (fun tail => (c.result ++ tail.flatMap hex, stop))

/-- `DnsMessage.Question`: the text and the offset behind the question. -/
def question (packet : Packet) : Except Fault (List Char × Nat) :=
  if packet.length < 12 then .error (.io "Expected one DNS question")
  else (readUInt16 packet 4).bind (fun count =>
    if count ≠ 1 then .error (.io "Expected one DNS question")
    else (nameLoop packet {}).bind (questionTail packet))

/-! ## Responses -/

/-- `a && b`: the second is not evaluated if the first is false. -/
def both (a b : Except Fault Bool) : Except Fault Bool :=
  a.bind (fun x => if x then b else .ok false)

/-- A test of two bytes. -/
def testBytes (test : UInt8 → UInt8 → Bool) (a b : Except Fault UInt8) : Except Fault Bool :=
  a.bind (fun x => b.map (test x))

/-- The tests of `IsResponseTo`, in its order. -/
def responseTest (query response : Packet) : Except Fault Bool :=
  both (.ok (12 ≤ response.length)) <|
  both (testBytes (· == ·) (byteAt response 0) (byteAt query 0)) <|
  both (testBytes (· == ·) (byteAt response 1) (byteAt query 1)) <|
  both ((byteAt response 2).map (fun b => b &&& 0x80 != 0)) <|
  both (testBytes (fun q r => q &&& 0x78 == r &&& 0x78) (byteAt query 2) (byteAt response 2)) <|
  (question query).bind (fun q => (question response).map (fun r => q.1 == r.1))

/-- `DnsMessage.IsResponseTo`. An `IOException` means no. -/
def isResponseTo (query response : Packet) : Except Fault Bool :=
  match responseTest query response with
  | .ok b => .ok b
  | .error (.io _) => .ok false
  | .error .outOfRange => .error .outOfRange

/-- `DnsMessage.Failure`: the question with the response bit, a server failure and
no records. -/
def failure (query : Packet) : Except Fault Packet :=
  (question query).bind (fun q =>
    (slice query 0 q.2).bind (fun result =>
      (byteAt query 2).bind (fun flags =>
        -- `Array.Clear(result, 6, 6)`
        if result.length < 12 then .error .outOfRange
        else .ok (((result.set 2 ((flags &&& 0x79) ||| 0x80)).set 3 0x82).take 6 ++
          List.replicate 6 0 ++ result.drop 12))))

end DnsMessage
end EasyTierHost
