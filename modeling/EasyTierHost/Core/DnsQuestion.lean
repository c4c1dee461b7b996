import EasyTierHost.Core.DnsMessage
import Mathlib.Algebra.GroupWithZero.Nat
import Mathlib.Logic.Relation

/- What the question parser does with any bytes. A name is described apart from
   the parser: `Next` is where reading goes from a size byte, `Named` a name with
   its labels, pointers followed, and `Spelled` a name without pointers and where
   it ends. -/
namespace EasyTierHost
namespace DnsMessage
open Relation

/-! ## Names -/

/-- From a size byte to the next one. -/
inductive Next (packet : Packet) : Nat → Nat → Prop where
  | label {o : Nat} {size : UInt8} (h : packet[o]? = some size)
    (hs : 0 < size.toNat ∧ size.toNat ≤ 63) (hb : o + 1 + size.toNat ≤ packet.length) :
    Next packet o (o + 1 + size.toNat)
  | pointer {o : Nat} {size low : UInt8} (h : packet[o]? = some size) (hs : 192 ≤ size.toNat)
    (hl : packet[o + 1]? = some low) : Next packet o (target size low)

/-- The labels of the name at an offset, pointers followed. -/
inductive Named (packet : Packet) : Nat → List (List UInt8) → Prop where
  | root {o : Nat} (h : packet[o]? = some 0) : Named packet o []
  | label {o : Nat} {size : UInt8} {labels : List (List UInt8)} (h : packet[o]? = some size)
    (hs : 0 < size.toNat ∧ size.toNat ≤ 63) (hb : o + 1 + size.toNat ≤ packet.length)
    (hr : Named packet (o + 1 + size.toNat) labels) :
    Named packet o ((packet.drop (o + 1)).take size.toNat :: labels)
  | pointer {o : Nat} {size low : UInt8} {labels : List (List UInt8)}
    (h : packet[o]? = some size) (hs : 192 ≤ size.toNat) (hl : packet[o + 1]? = some low)
    (hr : Named packet (target size low) labels) : Named packet o labels

/-- A name without pointers, and the offset behind it. -/
inductive Spelled (packet : Packet) : Nat → List (List UInt8) → Nat → Prop where
  | root {o : Nat} (h : packet[o]? = some 0) : Spelled packet o [] (o + 1)
  | label {o e : Nat} {size : UInt8} {labels : List (List UInt8)} (h : packet[o]? = some size)
    (hs : 0 < size.toNat ∧ size.toNat ≤ 63) (hb : o + 1 + size.toNat ≤ packet.length)
    (hr : Spelled packet (o + 1 + size.toNat) labels e) :
    Spelled packet o ((packet.drop (o + 1)).take size.toNat :: labels) e

/-- The octets of a name on the wire, its labels with their sizes and the root. -/
def octets (labels : List (List UInt8)) : Nat := (labels.map (fun l => l.length + 1)).sum + 1

theorem octets_label {packet : Packet} {o : Nat} {size : UInt8} (labels : List (List UInt8))
    (hb : o + 1 + size.toNat ≤ packet.length) :
    octets ((packet.drop (o + 1)).take size.toNat :: labels) = octets labels + (size.toNat + 1) := by
  have hlen : ((packet.drop (o + 1)).take size.toNat).length = size.toNat := by
    rw [List.length_take, List.length_drop]
    omega
  simp only [octets, List.map_cons, List.sum_cons, hlen]
  omega

/-- A size byte leads to one place at most. -/
theorem Next.unique {packet : Packet} {o a b : Nat} (ha : Next packet o a) (hb : Next packet o b) :
    a = b := by
  cases ha with
  | label h hs _ =>
    cases hb with
    | label h' _ _ => rw [h] at h'; cases h'; rfl
    | pointer h' hs' _ => rw [h] at h'; cases h'; omega
  | pointer h hs hl =>
    cases hb with
    | label h' hs' _ => rw [h] at h'; cases h'; omega
    | pointer h' _ hl' => rw [h] at h'; cases h'; rw [hl] at hl'; cases hl'; rfl

/-! ## Turns and runs of the loop -/

theorem nameLoop_eq (packet : Packet) (c : Cursor) :
    nameLoop packet c = match turn packet c with
      | .error e => .error e
      | .ok (.stop c') => .ok c'
      | .ok (.again c') => nameLoop packet c' := by
  rw [nameLoop]
  split <;> simp_all

/-- The loop never fails but by an `IOException`. -/
theorem nameLoop_fault {packet : Packet} {c : Cursor} {e : Fault} (h : nameLoop packet c = .error e) :
    ∃ m, e = .io m := by
  fun_induction nameLoop packet c with
  | case1 c e' ht =>
    have hturn := turn_turns packet c
    rw [ht] at hturn
    cases h
    cases hturn with
    | fault m => exact ⟨m, rfl⟩
  | case2 c c' ht => cases h
  | case3 c c' ht ih => exact ih h

/-- A run of the loop that reaches the end of the name. -/
inductive Reads (packet : Packet) : Cursor → Cursor → Prop where
  | stop {c : Cursor} (hf : c.Fresh packet) (h : packet[c.offset]? = some 0) :
    Reads packet c c.moved
  | pointer {c c' : Cursor} (hf : c.Fresh packet) {size low : UInt8}
    (h : packet[c.offset]? = some size) (hs : 192 ≤ size.toNat)
    (hl : packet[c.offset + 1]? = some low)
    (hr : Reads packet { c.moved with
      consumed := some (c.consumed.getD (c.offset + 2)), offset := target size low } c') :
    Reads packet c c'
  | label {c c' : Cursor} (hf : c.Fresh packet) {size : UInt8} (h : packet[c.offset]? = some size)
    (hs : 0 < size.toNat ∧ size.toNat ≤ 63) (hb : c.offset + 1 + size.toNat ≤ packet.length)
    (hl : c.length + (size.toNat + 1) ≤ 254)
    (hr : Reads packet { c.moved with
      offset := c.offset + 1 + size.toNat
      length := c.length + (size.toNat + 1)
      result := c.result ++ labelText ((packet.drop (c.offset + 1)).take size.toNat) } c') :
    Reads packet c c'

theorem reads_of_nameLoop {packet : Packet} {c c' : Cursor} (h : nameLoop packet c = .ok c') :
    Reads packet c c' := by
  fun_induction nameLoop packet c with
  | case1 c e ht => cases h
  | case2 c d ht =>
    have hturn := turn_turns packet c
    rw [ht] at hturn
    cases h
    cases hturn with
    | stop hf h0 => exact .stop hf h0
  | case3 c d ht ih =>
    have hturn := turn_turns packet c
    rw [ht] at hturn
    have hr := ih h
    cases hturn with
    | pointer hf hsize hs hl => exact .pointer hf hsize hs hl hr
    | label hf hsize hs hb hl => exact .label hf hsize hs hb hl hr

/-- Once a pointer was read the end of the question is fixed, and before that the
cursor is at offset 12 or behind it. -/
theorem Reads.stop_ge {packet : Packet} {c c' : Cursor} (h : Reads packet c c')
    (hc : c.consumed = none → 12 ≤ c.offset) (hn : ∀ n, c.consumed = some n → 14 ≤ n) :
    13 ≤ c'.consumed.getD c'.offset := by
  induction h with
  | @stop c hf h =>
    show 13 ≤ c.consumed.getD (c.offset + 1)
    cases hcon : c.consumed with
    | none =>
      have := hc hcon
      simp only [Option.getD_none]
      omega
    | some n =>
      have := hn n hcon
      simp only [Option.getD_some]
      omega
  | @pointer c c' hf size low h hs hl hr ih =>
    apply ih
    · intro hnone
      cases hnone
    · intro n he
      cases he
      cases hcon : c.consumed with
      | none =>
        have := hc hcon
        simp only [Option.getD_none]
        omega
      | some n => exact hn n hcon
  | @label c c' hf size h hs hb hl hr ih =>
    apply ih
    · intro hnone
      have := hc hnone
      show 12 ≤ c.offset + 1 + size.toNat
      omega
    · exact hn

/-- The loop counts the octets of the name. -/
theorem Reads.length_eq {packet : Packet} {c c' : Cursor} (h : Reads packet c c') :
    ∀ {labels : List (List UInt8)}, Named packet c.offset labels →
      c'.length + 1 = c.length + octets labels := by
  induction h with
  | @stop c hf h =>
    intro labels hn
    cases hn with
    | root _ => rfl
    | label h' hs _ _ => rw [h] at h'; cases h'; exact absurd hs.1 (by decide)
    | pointer h' hs _ _ => rw [h] at h'; cases h'; exact absurd hs (by decide)
  | @pointer c c' hf size low h hs hl hr ih =>
    intro labels hn
    cases hn with
    | root h' => rw [h] at h'; cases h'; exact absurd hs (by decide)
    | label h' hs' _ _ => rw [h] at h'; cases h'; omega
    | pointer h' _ hl' hr' =>
      rw [h] at h'
      cases h'
      rw [hl] at hl'
      cases hl'
      exact ih hr'
  | @label c c' hf size h hs hb hl hr ih =>
    intro labels hn
    cases hn with
    | root h' => rw [h] at h'; cases h'; exact absurd hs.1 (by decide)
    | label h' _ _ hr' =>
      rw [h] at h'
      cases h'
      have hrest := ih hr'
      rw [octets_label _ hb]
      have hlen : c'.length + 1 = c.length + (size.toNat + 1) + octets _ := hrest
      omega
    | pointer h' hs' _ _ => rw [h] at h'; cases h'; omega

theorem Reads.length_le {packet : Packet} {c c' : Cursor} (h : Reads packet c c')
    (hc : c.length ≤ 254) : c'.length ≤ 254 := by
  induction h with
  | stop _ _ => exact hc
  | pointer _ _ _ _ _ ih => exact ih hc
  | label _ _ _ _ hl _ ih => exact ih hl

/-- Reading from here comes to an end. -/
inductive Halts (packet : Packet) : Nat → Prop where
  | root {o : Nat} (h : packet[o]? = some 0) : Halts packet o
  | step {o o' : Nat} (h : Next packet o o') (hr : Halts packet o') : Halts packet o

theorem Reads.halts {packet : Packet} {c c' : Cursor} (h : Reads packet c c') :
    Halts packet c.offset := by
  induction h with
  | stop _ h => exact .root h
  | pointer _ h hs hl _ ih => exact .step (.pointer h hs hl) ih
  | label _ h hs hb _ _ ih => exact .step (.label h hs hb) ih

/-- Nothing that comes to an end leads into a cycle. -/
theorem Halts.acyclic {packet : Packet} {o : Nat} (h : Halts packet o) :
    ∀ {p : Nat}, ReflTransGen (Next packet) o p → ¬TransGen (Next packet) p p := by
  induction h with
  | @root o h =>
    have hnone : ∀ q, ¬Next packet o q := by
      intro q hq
      cases hq with
      | label h' hs _ => rw [h] at h'; cases h'; exact absurd hs.1 (by decide)
      | pointer h' hs _ => rw [h] at h'; cases h'; exact absurd hs (by decide)
    intro p hp hcycle
    rcases hp.cases_head with rfl | ⟨q, hq, -⟩
    · obtain ⟨q, hq, -⟩ := TransGen.head'_iff.mp hcycle
      exact hnone q hq
    · exact hnone q hq
  | @step o o' h hr ih =>
    intro p hp hcycle
    rcases hp.cases_head with rfl | ⟨q, hq, hqp⟩
    · -- the cycle through `o` passes through `o'`
      obtain ⟨q, hq, hqo⟩ := TransGen.head'_iff.mp hcycle
      cases hq.unique h
      exact ih .refl (TransGen.tail' hqo h)
    · cases hq.unique h
      exact ih hqp hcycle

/-! ## Names without pointers -/

theorem byteAt_eq {packet : Packet} {i : Nat} {b : UInt8} (h : packet[i]? = some b) :
    byteAt packet i = .ok b := by
  rw [byteAt, h]

theorem turn_fresh {packet : Packet} {c : Cursor} (hf : c.Fresh packet) {size : UInt8}
    (h : packet[c.offset]? = some size) :
    turn packet c = (if size = 0 then .ok (.stop c.moved)
      else if size &&& 0xc0 = 0xc0 then Turn.ofPointer packet c.moved size
      else Turn.ofLabel packet c.moved size) := by
  have hguard : ¬(packet.length ≤ c.offset ∨ c.offset ∈ c.visited ∨ 128 < c.hops + 1) := by
    have h₁ := hf.within
    have h₂ := hf.unvisited
    have h₃ := hf.hops
    intro hcase
    rcases hcase with h | h | h
    · omega
    · exact h₂ h
    · omega
  unfold turn
  rw [if_neg hguard, byteAt_eq h]
  rfl

theorem nameLoop_stop {packet : Packet} {c : Cursor} (hf : c.Fresh packet)
    (h : packet[c.offset]? = some 0) : nameLoop packet c = .ok c.moved := by
  rw [nameLoop_eq, turn_fresh hf h, if_pos rfl]

theorem nameLoop_label {packet : Packet} {c : Cursor} (hf : c.Fresh packet) {size : UInt8}
    (h : packet[c.offset]? = some size) (hs : 0 < size.toNat ∧ size.toNat ≤ 63)
    (hb : c.offset + 1 + size.toNat ≤ packet.length) (hl : c.length + (size.toNat + 1) ≤ 254) :
    nameLoop packet c = nameLoop packet { c.moved with
      offset := c.offset + 1 + size.toNat
      length := c.length + (size.toNat + 1)
      result := c.result ++ labelText ((packet.drop (c.offset + 1)).take size.toNat) } := by
  have hzero : size ≠ 0 := by
    intro he
    subst he
    exact absurd hs.1 (by decide)
  have hpointer : ¬size &&& 0xc0 = 0xc0 := by
    rw [pointer_iff]
    omega
  have hguard : ¬(63 < size.toNat ∨ packet.length < c.moved.offset + size.toNat ∨
      254 < c.moved.length + (size.toNat + 1)) := by
    show ¬(63 < size.toNat ∨ packet.length < c.offset + 1 + size.toNat ∨
      254 < c.length + (size.toNat + 1))
    omega
  have hslice : slice packet c.moved.offset size.toNat =
      .ok ((packet.drop (c.offset + 1)).take size.toNat) := if_pos hb
  rw [nameLoop_eq, turn_fresh hf h, if_neg hzero, if_neg hpointer, Turn.ofLabel, if_neg hguard, hslice]
  rfl

/-- A name without pointers that is not too long is read to its end. -/
theorem nameLoop_spelled {packet : Packet} {labels : List (List UInt8)} {o e : Nat}
    (h : Spelled packet o labels e) : ∀ {c : Cursor}, c.offset = o → (∀ v ∈ c.visited, v < o) →
      c.hops + labels.length < 128 → c.length + octets labels ≤ 255 →
      ∃ c', nameLoop packet c = .ok c' ∧ c'.offset = e ∧ c'.consumed = c.consumed ∧
        c'.result = c.result ++ labels.flatMap labelText := by
  have hfresh : ∀ {c : Cursor} {o : Nat} {b : UInt8}, c.offset = o → packet[o]? = some b →
      (∀ v ∈ c.visited, v < o) → c.hops < 128 → c.Fresh packet := by
    intro c o b ho hb hv hh
    refine ⟨?_, ?_, hh⟩
    · rw [ho]
      exact (List.getElem?_eq_some_iff.mp hb).1
    · intro hm
      exact absurd (hv _ hm) (by omega)
  induction h with
  | @root o h =>
    intro c ho hv hh _
    have hf := hfresh ho h hv (by simpa using hh)
    refine ⟨c.moved, nameLoop_stop hf (ho ▸ h), by simp [Cursor.moved, ho], rfl, by simp [Cursor.moved]⟩
  | @label o e size labels h hs hb hr ih =>
    intro c ho hv hh hlen
    rw [List.length_cons] at hh
    rw [octets_label _ hb] at hlen
    have hpos : 1 ≤ octets labels := by
      unfold octets
      omega
    have hf := hfresh ho h hv (by omega)
    subst ho
    have hstep := nameLoop_label hf h hs hb (by omega)
    obtain ⟨c', hc', hoff, hcon, hres⟩ := @ih { c.moved with
      offset := c.offset + 1 + size.toNat
      length := c.length + (size.toNat + 1)
      result := c.result ++ labelText ((packet.drop (c.offset + 1)).take size.toNat) } rfl
      (by
        intro v hm
        rcases List.mem_cons.mp hm with rfl | hm
        · omega
        · have := hv v hm
          omega)
      (by show c.hops + 1 + labels.length < 128; omega)
      (by show c.length + (size.toNat + 1) + octets labels ≤ 255; omega)
    refine ⟨c', hstep.trans hc', hoff, hcon, ?_⟩
    rw [hres, List.flatMap_cons, List.append_assoc]

/-- Labels have at least one octet, so there are at most 127 of them. -/
theorem Spelled.length_lt {packet : Packet} {labels : List (List UInt8)} {o e : Nat}
    (h : Spelled packet o labels e) : 2 * labels.length < octets labels := by
  induction h with
  | root _ => decide
  | label h hs hb hr ih =>
    rw [octets_label _ hb, List.length_cons]
    omega

/-! ## The question -/

/-- What it takes to get to the name. -/
structure Headed (packet : Packet) : Prop where
  length : 12 ≤ packet.length
  count : readUInt16 packet 4 = .ok 1

theorem readUInt16_ok {packet : Packet} (h : 12 ≤ packet.length) :
    ∃ n, readUInt16 packet 4 = .ok n := by
  obtain ⟨a, -, ha⟩ := @byteAt_ok packet 4 (by omega)
  obtain ⟨b, -, hb⟩ := @byteAt_ok packet 5 (by omega)
  exact ⟨a.toNat * 256 + b.toNat, by rw [readUInt16, ha, hb]; rfl⟩

theorem question_headed {packet : Packet} (h : Headed packet) :
    question packet = (nameLoop packet {}).bind (questionTail packet) := by
  have hlen : ¬packet.length < 12 := by have := h.length; omega
  rw [question, if_neg hlen, h.count]
  rfl

theorem question_unheaded {packet : Packet} (h : ¬Headed packet) :
    question packet = .error (.io "Expected one DNS question") := by
  unfold question
  by_cases hlen : packet.length < 12
  · rw [if_pos hlen]
  · obtain ⟨n, hn⟩ := readUInt16_ok (Nat.le_of_not_lt hlen)
    have hne : n ≠ 1 := by
      intro he
      subst he
      exact h ⟨Nat.le_of_not_lt hlen, hn⟩
    rw [if_neg hlen, hn]
    exact if_pos hne

theorem questionTail_ok {packet : Packet} {c : Cursor}
    (h : c.consumed.getD c.offset + 4 ≤ packet.length) :
    questionTail packet c = .ok (c.result ++
      ((packet.drop (c.consumed.getD c.offset)).take 4).flatMap hex, c.consumed.getD c.offset + 4) := by
  have hstop : ¬packet.length < c.consumed.getD c.offset + 4 := by omega
  have hslice : slice packet (c.consumed.getD c.offset + 4 - 4) 4 =
      .ok ((packet.drop (c.consumed.getD c.offset)).take 4) := by
    rw [Nat.add_sub_cancel]
    exact if_pos h
  simp only [questionTail, if_neg hstop, hslice]
  rfl

/-- A question is the name the loop read and four more bytes. -/
theorem question_ok {packet : Packet} {text : List Char} {stop : Nat}
    (h : question packet = .ok (text, stop)) :
    Headed packet ∧ ∃ c, Reads packet {} c ∧ stop = c.consumed.getD c.offset + 4 ∧
      stop ≤ packet.length ∧
      text = c.result ++ ((packet.drop (c.consumed.getD c.offset)).take 4).flatMap hex := by
  by_cases hh : Headed packet
  · rw [question_headed hh] at h
    cases hl : nameLoop packet {} with
    | error e => rw [hl] at h; cases h
    | ok c =>
      rw [hl] at h
      have htail : questionTail packet c = .ok (text, stop) := h
      by_cases hs : c.consumed.getD c.offset + 4 ≤ packet.length
      · rw [questionTail_ok hs] at htail
        cases htail
        exact ⟨hh, c, reads_of_nameLoop hl, rfl, hs, rfl⟩
      · rw [questionTail, if_pos (by omega)] at htail
        cases htail
  · rw [question_unheaded hh] at h
    cases h

/-- The parser never fails but by an `IOException`. -/
theorem question_fault {packet : Packet} {e : Fault} (h : question packet = .error e) :
    ∃ m, e = .io m := by
  by_cases hh : Headed packet
  · rw [question_headed hh] at h
    cases hl : nameLoop packet {} with
    | error e' =>
      rw [hl] at h
      cases h
      exact nameLoop_fault hl
    | ok c =>
      rw [hl] at h
      have htail : questionTail packet c = .error e := h
      by_cases hs : c.consumed.getD c.offset + 4 ≤ packet.length
      · rw [questionTail_ok hs] at htail
        cases htail
      · rw [questionTail, if_pos (by omega)] at htail
        cases htail
        exact ⟨_, rfl⟩
  · rw [question_unheaded hh] at h
    cases h
    exact ⟨_, rfl⟩

theorem question_stop {packet : Packet} {text : List Char} {stop : Nat}
    (h : question packet = .ok (text, stop)) : 17 ≤ stop ∧ stop ≤ packet.length := by
  obtain ⟨-, c, hr, hs, hle, -⟩ := question_ok h
  have hge := hr.stop_ge (fun _ => Nat.le_refl 12) (fun n hn => by cases hn)
  omega

theorem question_spelled {packet : Packet} (hh : Headed packet) {labels : List (List UInt8)} {e : Nat}
    (hs : Spelled packet 12 labels e) (hlen : octets labels ≤ 255) (hend : e + 4 ≤ packet.length) :
    question packet = .ok (labels.flatMap labelText ++ ((packet.drop e).take 4).flatMap hex, e + 4) := by
  have hcount := hs.length_lt
  have hhops : ({} : Cursor).hops + labels.length < 128 := by
    show 0 + labels.length < 128
    omega
  have hoctets : ({} : Cursor).length + octets labels ≤ 255 := by
    show 0 + octets labels ≤ 255
    omega
  obtain ⟨c, hc, hoff, hcon, hres⟩ := nameLoop_spelled hs rfl (by simp) hhops hoctets
  have hstop : c.consumed.getD c.offset = e := by rw [hcon, hoff]; rfl
  rw [question_headed hh, hc]
  show questionTail packet c = _
  rw [questionTail_ok (by rw [hstop]; exact hend), hstop, hres]
  rfl

/-- The parser on any bytes: it fails with an `IOException` or returns an end
inside the packet; it takes every well-formed name without pointers, and no name
that is too long or runs in a circle. -/
theorem question_hostile (packet : Packet) :
    ((∃ message, question packet = .error (.io message)) ∨
      ∃ text stop, question packet = .ok (text, stop) ∧ 17 ≤ stop ∧ stop ≤ packet.length) ∧
    (∀ labels e, 12 ≤ packet.length → readUInt16 packet 4 = .ok 1 → Spelled packet 12 labels e →
      octets labels ≤ 255 → e + 4 ≤ packet.length →
      ∃ text, question packet = .ok (text, e + 4)) ∧
    (∀ labels, Named packet 12 labels → 255 < octets labels →
      ∃ message, question packet = .error (.io message)) ∧
    (∀ o, ReflTransGen (Next packet) 12 o → TransGen (Next packet) o o →
      ∃ message, question packet = .error (.io message)) := by
  have hfails : (∀ text stop, question packet ≠ .ok (text, stop)) →
      ∃ message, question packet = .error (.io message) := by
    intro hnot
    cases hq : question packet with
    | ok r => exact absurd hq (hnot r.1 r.2)
    | error e =>
      obtain ⟨m, rfl⟩ := question_fault hq
      exact ⟨m, rfl⟩
  refine ⟨?_, ?_, ?_, ?_⟩
  · cases hq : question packet with
    | error e =>
      obtain ⟨m, rfl⟩ := question_fault hq
      exact .inl ⟨m, rfl⟩
    | ok r => exact .inr ⟨r.1, r.2, rfl, question_stop hq⟩
  · intro labels e hlen hcount hs hoct hend
    exact ⟨_, question_spelled ⟨hlen, hcount⟩ hs hoct hend⟩
  · intro labels hn hlong
    apply hfails
    intro text stop hq
    obtain ⟨-, c, hr, -, -⟩ := question_ok hq
    have heq : c.length + 1 = 0 + octets labels := hr.length_eq hn
    have hle : c.length ≤ 254 := hr.length_le (Nat.zero_le _)
    omega
  · intro o hpath hcycle
    apply hfails
    intro text stop hq
    obtain ⟨-, c, hr, -, -⟩ := question_ok hq
    exact hr.halts.acyclic hpath hcycle

/-! ## Bytes that do not matter -/

/-- Packets of one length with the same bytes from an offset on. -/
structure Agree (n : Nat) (p q : Packet) : Prop where
  length : p.length = q.length
  bytes : ∀ i, n ≤ i → p[i]? = q[i]?

section agree
variable {n : Nat} {p q : Packet}

theorem Agree.mono {m : Nat} (h : Agree n p q) (hm : n ≤ m) : Agree m p q :=
  ⟨h.length, fun i hi => h.bytes i (by omega)⟩

theorem Agree.drop (h : Agree n p q) {k : Nat} (hk : n ≤ k) : p.drop k = q.drop k := by
  apply List.ext_getElem?
  intro i
  rw [List.getElem?_drop, List.getElem?_drop, h.bytes (k + i) (by omega)]

theorem Agree.byteAt (h : Agree n p q) {i : Nat} (hi : n ≤ i) :
    DnsMessage.byteAt p i = DnsMessage.byteAt q i := by
  rw [DnsMessage.byteAt, DnsMessage.byteAt, h.bytes i hi]

theorem Agree.slice (h : Agree n p q) {i : Nat} (hi : n ≤ i) (count : Nat) :
    DnsMessage.slice p i count = DnsMessage.slice q i count := by
  rw [DnsMessage.slice, DnsMessage.slice, h.length, h.drop hi]

/-- A turn reads nothing in front of its cursor. -/
theorem Agree.turn {c : Cursor} (h : Agree n p q) (hc : n ≤ c.offset) :
    DnsMessage.turn p c = DnsMessage.turn q c := by
  have hnext : n ≤ c.offset + 1 := by omega
  simp only [DnsMessage.turn, Turn.ofPointer, Turn.ofLabel, h.length, h.byteAt hc, h.byteAt hnext,
    h.slice hnext]

/-- Nor does the loop on a name without pointers. -/
theorem Agree.nameLoop {o e : Nat} {labels : List (List UInt8)} (hs : Spelled p o labels e) :
    ∀ {c : Cursor}, c.offset = o → Agree o p q → DnsMessage.nameLoop p c = DnsMessage.nameLoop q c := by
  induction hs with
  | @root o h =>
    intro c ho hag
    rw [nameLoop_eq, nameLoop_eq q, hag.turn (Nat.le_of_eq ho.symm)]
    have hturn := turn_turns q c
    cases ht : DnsMessage.turn q c with
    | error e => rfl
    | ok t =>
      rw [ht] at hturn
      rw [hag.bytes o (Nat.le_refl o), ← ho] at h
      cases hturn with
      | stop _ _ => rfl
      | pointer _ h' hs' _ => rw [h] at h'; cases h'; exact absurd hs' (by decide)
      | label _ h' hs' _ _ => rw [h] at h'; cases h'; exact absurd hs'.1 (by decide)
  | @label o e size labels h hs hb hr ih =>
    intro c ho hag
    rw [nameLoop_eq, nameLoop_eq q, hag.turn (Nat.le_of_eq ho.symm)]
    have hturn := turn_turns q c
    cases ht : DnsMessage.turn q c with
    | error e => rfl
    | ok t =>
      rw [ht] at hturn
      rw [hag.bytes o (Nat.le_refl o), ← ho] at h
      cases hturn with
      | stop _ _ => rfl
      | pointer _ h' hs' _ => rw [h] at h'; cases h'; omega
      | label _ h' _ _ _ =>
        rw [h] at h'
        cases h'
        exact ih (by rw [ho]) (hag.mono (by omega))

/-- The question of a packet whose name has no pointers does not hang on the
identifier. -/
theorem Agree.question (h : Agree 2 p q) {e : Nat} {labels : List (List UInt8)}
    (hs : Spelled p 12 labels e) : DnsMessage.question p = DnsMessage.question q := by
  have hloop := Agree.nameLoop hs (c := {}) rfl (h.mono (by decide))
  have hcount : readUInt16 p 4 = readUInt16 q 4 := by
    rw [readUInt16, readUInt16, h.byteAt (by decide), h.byteAt (by decide)]
  have htail : ∀ c, Reads q {} c → questionTail p c = questionTail q c := by
    intro c hr
    have hge := hr.stop_ge (fun _ => Nat.le_refl 12) (fun n hn => by cases hn)
    simp only [questionTail, h.length]
    rw [h.slice (by omega)]
  rw [DnsMessage.question, DnsMessage.question, h.length, hcount, hloop]
  cases hl : DnsMessage.nameLoop q {} with
  | error e => rfl
  | ok c =>
    have := htail c (reads_of_nameLoop hl)
    simp only [Except.bind, this]

end agree

end DnsMessage
end EasyTierHost
