import EasyTierHost.Core.DnsQuestion

/- The answer section (`HasAddressAnswer` of DnsMessage.cs). The scan walks over the
   resource records behind the question, each with an owner name of its own, and stops
   at the first address. Next to it stands the grammar of a record: `OwnerName` is an
   owner name and the offset behind it, `ResourceRecord` a record and the offset behind
   it, `RecordsTo` a sequence of records. Pointers in an owner name are not followed;
   they only have to lead back. -/
namespace EasyTierHost
namespace DnsMessage

/-! ## The scan -/

/-- The inner loop: the offset behind an owner name, or none for `return false`. -/
def skipName (response : Packet) (offset : Nat) : Except Fault (Option Nat) :=
  if response.length ≤ offset then .ok none
  else
    match byteAt response offset with
    | .error e => .error e
    | .ok label =>
      if label = 0 then .ok (some (offset + 1))
      else if label &&& 0xc0 = 0xc0 then
        if response.length ≤ offset + 1 then .ok none
        else (byteAt response (offset + 1)).map (fun low =>
          if offset ≤ target label low then none else some (offset + 2))
      else if 63 < label.toNat ∨ response.length ≤ offset + 1 + label.toNat then .ok none
      else skipName response (offset + 1 + label.toNat)
termination_by response.length - offset
decreasing_by omega

/-- An address of the Internet class. -/
def isAddress (type cls size : Nat) : Bool :=
  cls == 1 && ((type == 1 && size == 4) || (type == 28 && size == 16))

/-- The outer loop, with the records that are left. -/
def scanRecords (response : Packet) : Nat → Nat → Except Fault Bool
  | 0, _ => .ok false
  | count + 1, offset =>
    (skipName response offset).bind (fun behind =>
      match behind with
      | none => .ok false
      | some offset =>
        if response.length < offset + 10 then .ok false
        else
          (readUInt16 response offset).bind (fun type =>
            (readUInt16 response (offset + 2)).bind (fun cls =>
              (readUInt16 response (offset + 8)).bind (fun size =>
                if response.length < offset + 10 + size then .ok false
                else if isAddress type cls size then .ok true
                else scanRecords response count (offset + 10 + size)))))

/-- `DnsMessage.HasAddressAnswer`. An `IOException` means no. -/
def hasAddressAnswer (response : Packet) : Except Fault Bool :=
  match (question response).bind (fun q =>
      (readUInt16 response 6).bind (fun count =>
        if 128 < count then .ok false else scanRecords response count q.2)) with
  | .ok b => .ok b
  | .error (.io _) => .ok false
  | .error .outOfRange => .error .outOfRange

/-! ## The grammar of records -/

/-- A big-endian word of the packet. -/
def Word (packet : Packet) (i n : Nat) : Prop :=
  ∃ high low, packet[i]? = some high ∧ packet[i + 1]? = some low ∧ n = high.toNat * 256 + low.toNat

/-- An owner name and the offset behind it: labels, then the root or a pointer that leads
in front of itself. -/
inductive OwnerName (packet : Packet) : Nat → Nat → Prop where
  | root {o : Nat} (h : packet[o]? = some 0) : OwnerName packet o (o + 1)
  | pointer {o : Nat} {size low : UInt8} (h : packet[o]? = some size) (hs : 192 ≤ size.toNat)
    (hl : packet[o + 1]? = some low) (hback : target size low < o) : OwnerName packet o (o + 2)
  | label {o e : Nat} {size : UInt8} (h : packet[o]? = some size)
    (hs : 0 < size.toNat ∧ size.toNat ≤ 63) (hr : OwnerName packet (o + 1 + size.toNat) e) :
    OwnerName packet o e

/-- A resource record and the offset behind it. -/
structure ResourceRecord (packet : Packet) (o type cls size next : Nat) : Prop where
  inside : next ≤ packet.length
  owner : ∃ e, OwnerName packet o e ∧ Word packet e type ∧ Word packet (e + 2) cls ∧
    Word packet (e + 8) size ∧ next = e + 10 + size

/-- Behind a number of records. -/
inductive RecordsTo (packet : Packet) : Nat → Nat → Nat → Prop where
  | none {o : Nat} : RecordsTo packet o 0 o
  | some {o n e type cls size next : Nat} (h : ResourceRecord packet o type cls size next)
    (hr : RecordsTo packet next n e) : RecordsTo packet o (n + 1) e

/-- One of the first `count` records from an offset on is of class IN and has type A and four
bytes of data, or type AAAA and sixteen. -/
def AddressAmong (packet : Packet) (count o : Nat) : Prop :=
  ∃ n < count, ∃ e type cls size next, RecordsTo packet o n e ∧
    ResourceRecord packet e type cls size next ∧
      cls = 1 ∧ ((type = 1 ∧ size = 4) ∨ (type = 28 ∧ size = 16))

theorem isAddress_iff {type cls size : Nat} :
    isAddress type cls size = true ↔ cls = 1 ∧ ((type = 1 ∧ size = 4) ∨ (type = 28 ∧ size = 16)) := by
  simp [isAddress]

/-! ## Words and names -/

theorem Word.unique {packet : Packet} {i n m : Nat} (hn : Word packet i n) (hm : Word packet i m) :
    n = m := by
  obtain ⟨high, low, hh, hl, rfl⟩ := hn
  obtain ⟨high', low', hh', hl', rfl⟩ := hm
  rw [hh] at hh'
  rw [hl] at hl'
  cases hh'
  cases hl'
  rfl

theorem readUInt16_word {packet : Packet} {i : Nat} (h : i + 2 ≤ packet.length) :
    ∃ n, readUInt16 packet i = .ok n ∧ Word packet i n := by
  obtain ⟨high, hg, hh⟩ := @byteAt_ok packet i (by omega)
  obtain ⟨low, hg', hl⟩ := @byteAt_ok packet (i + 1) (by omega)
  exact ⟨high.toNat * 256 + low.toNat, by rw [readUInt16, hh, hl]; rfl, high, low, hg, hg', rfl⟩

theorem OwnerName.inside {packet : Packet} {o e : Nat} (h : OwnerName packet o e) :
    o < packet.length := by
  cases h with
  | root h => exact (List.getElem?_eq_some_iff.mp h).1
  | pointer h _ _ _ => exact (List.getElem?_eq_some_iff.mp h).1
  | label h _ _ => exact (List.getElem?_eq_some_iff.mp h).1

theorem OwnerName.of_root {packet : Packet} {o e : Nat} (h : OwnerName packet o e) (ho : packet[o]? = some 0) :
    e = o + 1 := by
  cases h with
  | root _ => rfl
  | pointer hp hs _ _ => rw [ho] at hp; cases hp; exact absurd hs (by decide)
  | label hp hs _ => rw [ho] at hp; cases hp; exact absurd hs.1 (by decide)

/-- An owner name from a pointer on. -/
theorem OwnerName.of_pointer {packet : Packet} {o e : Nat} {size : UInt8} (h : OwnerName packet o e)
    (ho : packet[o]? = some size) (hs : 192 ≤ size.toNat) :
    e = o + 2 ∧ ∃ low, packet[o + 1]? = some low ∧ target size low < o := by
  cases h with
  | root hp => rw [ho] at hp; cases hp; exact absurd hs (by decide)
  | pointer hp _ hl hback => rw [ho] at hp; cases hp; exact ⟨rfl, _, hl, hback⟩
  | label hp hs' _ => rw [ho] at hp; cases hp; omega

/-- An owner name from a label on. -/
theorem OwnerName.of_label {packet : Packet} {o e : Nat} {size : UInt8} (h : OwnerName packet o e)
    (ho : packet[o]? = some size) (hpos : 0 < size.toNat) (hs : ¬192 ≤ size.toNat) :
    size.toNat ≤ 63 ∧ OwnerName packet (o + 1 + size.toNat) e := by
  cases h with
  | root hp => rw [ho] at hp; cases hp; exact absurd hpos (by decide)
  | pointer hp hs' _ _ => rw [ho] at hp; cases hp; exact absurd hs' hs
  | label hp hs' hr => rw [ho] at hp; cases hp; exact ⟨hs'.2, hr⟩

/-- There is one end of an owner name. -/
theorem OwnerName.unique {packet : Packet} {o e : Nat} (h : OwnerName packet o e) :
    ∀ {e' : Nat}, OwnerName packet o e' → e = e' := by
  induction h with
  | root h =>
    intro e' h'
    exact (h'.of_root h).symm
  | pointer h hs _ _ =>
    intro e' h'
    exact (h'.of_pointer h hs).1.symm
  | label h hs _ ih =>
    intro e' h'
    exact ih (h'.of_label h hs.1 (by omega)).2

theorem getElem?_of_byteAt {packet : Packet} {i : Nat} {b : UInt8} (h : byteAt packet i = .ok b) :
    packet[i]? = some b := by
  unfold byteAt at h
  cases hg : packet[i]? with
  | none => rw [hg] at h; cases h
  | some b' => rw [hg] at h; cases h; rfl

theorem size_pos {size : UInt8} (h : size ≠ 0) : 0 < size.toNat := by
  apply Nat.pos_of_ne_zero
  intro hz
  exact h (UInt8.toNat_inj.mp hz)

/-- What the inner loop does with any offset. -/
theorem skipName_spec (response : Packet) (o : Nat) :
    (∃ e, skipName response o = .ok (some e) ∧ OwnerName response o e) ∨
      (skipName response o = .ok none ∧ ∀ e, ¬OwnerName response o e) := by
  fun_induction skipName response o with
  | case1 o hout =>
    right
    refine ⟨rfl, fun e h => ?_⟩
    have := h.inside
    omega
  | case2 o hin e herr =>
    obtain ⟨b, -, hb⟩ := @byteAt_ok response o (by omega)
    rw [hb] at herr
    cases herr
  | case3 o hin hread => exact .inl ⟨o + 1, rfl, .root (getElem?_of_byteAt hread)⟩
  | case4 o hin label hread hzero hpointer hout =>
    right
    refine ⟨rfl, fun e h => ?_⟩
    obtain ⟨-, low, hl, -⟩ := h.of_pointer (getElem?_of_byteAt hread) ((pointer_iff label).mp hpointer)
    have := (List.getElem?_eq_some_iff.mp hl).1
    omega
  | case5 o hin label hread hzero hpointer hin' =>
    have hlabel := getElem?_of_byteAt hread
    have hs := (pointer_iff label).mp hpointer
    obtain ⟨low, hg, hl⟩ := @byteAt_ok response (o + 1) (by omega)
    rw [hl]
    by_cases hback : o ≤ target label low
    · right
      refine ⟨congrArg Except.ok (if_pos hback), fun e h => ?_⟩
      obtain ⟨-, low', hl', hback'⟩ := h.of_pointer hlabel hs
      rw [hg] at hl'
      cases hl'
      omega
    · left
      exact ⟨o + 2, congrArg Except.ok (if_neg hback), .pointer hlabel hs hg (by omega)⟩
  | case6 o hin label hread hzero hpointer hout =>
    right
    refine ⟨rfl, fun e h => ?_⟩
    rw [pointer_iff] at hpointer
    obtain ⟨hle, hr⟩ := h.of_label (getElem?_of_byteAt hread) (size_pos hzero) hpointer
    have := hr.inside
    omega
  | case7 o hin label hread hzero hpointer hfits ih =>
    have hlabel := getElem?_of_byteAt hread
    have hpos := size_pos hzero
    rw [pointer_iff] at hpointer
    rcases ih with ⟨e, he, hown⟩ | ⟨he, hnone⟩
    · exact .inl ⟨e, he, .label hlabel ⟨hpos, by omega⟩ hown⟩
    · exact .inr ⟨he, fun e h => hnone e (h.of_label hlabel hpos hpointer).2⟩

/-! ## Records -/

theorem ResourceRecord.unique {packet : Packet} {o t c s n t' c' s' n' : Nat}
    (h : ResourceRecord packet o t c s n) (h' : ResourceRecord packet o t' c' s' n') :
    t = t' ∧ c = c' ∧ s = s' ∧ n = n' := by
  obtain ⟨e, hown, ht, hc, hs, hn⟩ := h.owner
  obtain ⟨e', hown', ht', hc', hs', hn'⟩ := h'.owner
  cases hown.unique hown'
  refine ⟨ht.unique ht', hc.unique hc', hs.unique hs', ?_⟩
  rw [hn, hn', hs.unique hs']

/-- There is an address among records when the first is one, or when there is one among
the others. -/
theorem addressAmong_cons {packet : Packet} {o type cls size next : Nat}
    (h : ResourceRecord packet o type cls size next) (count : Nat) :
    AddressAmong packet (count + 1) o ↔ isAddress type cls size = true ∨ AddressAmong packet count next := by
  rw [isAddress_iff]
  constructor
  · intro hgiven
    obtain ⟨n, hn, e, t, c, s, x, hto, hrec, haddr⟩ := hgiven
    cases hto with
    | none =>
      obtain ⟨rfl, rfl, rfl, rfl⟩ := h.unique hrec
      exact .inl haddr
    | some h' hto =>
      obtain ⟨rfl, rfl, rfl, rfl⟩ := h.unique h'
      exact .inr ⟨_, by omega, e, t, c, s, x, hto, hrec, haddr⟩
  · intro hcase
    rcases hcase with haddr | ⟨n, hn, e, t, c, s, x, hto, hrec, haddr⟩
    · exact ⟨0, by omega, o, type, cls, size, next, .none, h, haddr⟩
    · exact ⟨n + 1, by omega, e, t, c, s, x, .some h hto, hrec, haddr⟩

/-- There is none where the first record is malformed. -/
theorem not_addressAmong {packet : Packet} {o : Nat}
    (h : ∀ type cls size next, ¬ResourceRecord packet o type cls size next) (count : Nat) :
    ¬AddressAmong packet count o := by
  intro hgiven
  obtain ⟨n, -, e, t, c, s, x, hto, hrec, -⟩ := hgiven
  cases hto with
  | none => exact h t c s x hrec
  | some h' _ => exact h _ _ _ _ h'

theorem scanRecords_spec (response : Packet) : ∀ count o : Nat,
    ∃ b, scanRecords response count o = .ok b ∧ (b = true ↔ AddressAmong response count o)
  | 0, o => by
    refine ⟨false, rfl, ?_⟩
    simp [AddressAmong]
  | count + 1, o => by
    rcases skipName_spec response o with ⟨e, hskip, hown⟩ | ⟨hskip, hnone⟩
    · by_cases hfixed : response.length < e + 10
      · refine ⟨false, ?_, ?_⟩
        · simp [scanRecords, hskip, Except.bind, hfixed]
        · have hbad : ∀ type cls size next, ¬ResourceRecord response o type cls size next := by
            intro type cls size next h
            obtain ⟨e', hown', -, -, -, hn⟩ := h.owner
            cases hown.unique hown'
            have := h.inside
            omega
          simp [not_addressAmong hbad]
      · obtain ⟨type, htype, hwt⟩ := @readUInt16_word response e (by omega)
        obtain ⟨cls, hcls, hwc⟩ := @readUInt16_word response (e + 2) (by omega)
        obtain ⟨size, hsize, hws⟩ := @readUInt16_word response (e + 8) (by omega)
        by_cases hdata : response.length < e + 10 + size
        · refine ⟨false, ?_, ?_⟩
          · simp [scanRecords, hskip, Except.bind, hfixed, htype, hcls, hsize, hdata]
          · have hbad : ∀ type cls size next, ¬ResourceRecord response o type cls size next := by
              intro type' cls' size' next h
              obtain ⟨e', hown', -, -, hs', hn⟩ := h.owner
              cases hown.unique hown'
              cases hws.unique hs'
              have := h.inside
              omega
            simp [not_addressAmong hbad]
        · have hrec : ResourceRecord response o type cls size (e + 10 + size) :=
            ⟨by omega, e, hown, hwt, hwc, hws, rfl⟩
          have hstep : scanRecords response (count + 1) o =
              if isAddress type cls size then .ok true else scanRecords response count (e + 10 + size) := by
            simp [scanRecords, hskip, Except.bind, hfixed, htype, hcls, hsize, hdata]
          rw [hstep, addressAmong_cons hrec]
          cases haddr : isAddress type cls size with
          | true => exact ⟨true, rfl, by simp⟩
          | false =>
            obtain ⟨b, hb, hiff⟩ := scanRecords_spec response count (e + 10 + size)
            exact ⟨b, hb, by simp [hiff]⟩
    · refine ⟨false, ?_, ?_⟩
      · simp [scanRecords, hskip, Except.bind]
      · have hbad : ∀ type cls size next, ¬ResourceRecord response o type cls size next := by
          intro type cls size next h
          obtain ⟨e, hown, -⟩ := h.owner
          exact hnone e hown
        simp [not_addressAmong hbad]

/-- The scan comes to an answer on any bytes, and finds an address exactly where the
grammar has one among the records it announces. -/
theorem hasAddressAnswer_iff (response : Packet) :
    (∃ b, hasAddressAnswer response = .ok b) ∧
      (hasAddressAnswer response = .ok true ↔
        ∃ text stop count, question response = .ok (text, stop) ∧ Word response 6 count ∧
          count ≤ 128 ∧ AddressAmong response count stop) := by
  cases hq : question response with
  | error e =>
    obtain ⟨m, rfl⟩ := question_fault hq
    simp [hasAddressAnswer, hq, Except.bind]
  | ok q =>
    obtain ⟨hge, hle⟩ := question_stop hq
    obtain ⟨count, hcount, hword⟩ := @readUInt16_word response 6 (by omega)
    have hiff : (∃ text stop n, Except.ok q = (.ok (text, stop) : Except Fault _) ∧ Word response 6 n ∧
        n ≤ 128 ∧ AddressAmong response n stop) ↔ count ≤ 128 ∧ AddressAmong response count q.2 := by
      constructor
      · intro hgiven
        obtain ⟨text, stop, n, he, hn, hle, ham⟩ := hgiven
        cases he
        cases hword.unique hn
        exact ⟨hle, ham⟩
      · intro h
        exact ⟨q.1, q.2, count, rfl, hword, h⟩
    rw [hiff]
    by_cases hmany : 128 < count
    · have hno : hasAddressAnswer response = .ok false := by
        simp [hasAddressAnswer, hq, Except.bind, hcount, hmany]
      rw [hno]
      refine ⟨⟨false, rfl⟩, ?_⟩
      simp
      omega
    · obtain ⟨b, hb, hspec⟩ := scanRecords_spec response count q.2
      have heq : hasAddressAnswer response = .ok b := by
        simp [hasAddressAnswer, hq, Except.bind, hcount, hmany, hb]
      rw [heq]
      refine ⟨⟨b, rfl⟩, ?_⟩
      rw [Except.ok.injEq, hspec]
      constructor
      · exact fun h => ⟨by omega, h⟩
      · exact fun h => h.2

/-- The answer 192.0.2.1 for the name a, whose record points back to the question. -/
example : hasAddressAnswer [5, 6, 0x81, 0x80, 0, 1, 0, 1, 0, 0, 0, 0, 1, 0x61, 0, 0, 1, 0, 1,
    0xc0, 12, 0, 1, 0, 1, 0, 0, 0, 60, 0, 4, 192, 0, 2, 1] = .ok true := by
  decide +kernel

end DnsMessage
end EasyTierHost
