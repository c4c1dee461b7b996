import EasyTierHost.Core.DnsCanonical
import EasyTierHost.Gateway.DnsForwarderService

/- Which responses match a query, and whether what the forwarder returns does. The
   question of a packet is a name, which may be read from bytes anywhere in the
   packet, and four bytes behind it. The forwarder overwrites header bytes and cuts
   packets off; the name stays as long as it is read from other bytes (`NameByte`). -/
namespace EasyTierHost
namespace DnsMessage

/-! ## What a matching response is -/

/-- The text of an accepted question stands for its labels, up to letter case, and for its
type and class, and a response is matched by the same. -/
theorem question_canonical :
    (∀ a x, question a = .ok x → ∃ la, Named a 12 la ∧ ∀ lb, Named a 12 lb → lb = la) ∧
    (∀ a b x y la lb, question a = .ok x → question b = .ok y → Named a 12 la → Named b 12 lb →
      (x.1 = y.1 ↔ SameLabels la lb ∧ typeClass a x.2 = typeClass b y.2)) ∧
    (∀ query response, 12 ≤ query.length →
      (∃ t, isResponseTo query response = .ok t) ∧
      (isResponseTo query response = .ok true ↔
        ∃ x y q r la lb, question query = .ok x ∧ question response = .ok y ∧
          response[0]? = query[0]? ∧ response[1]? = query[1]? ∧
          query[2]? = some q ∧ response[2]? = some r ∧ r &&& 0x80 ≠ 0 ∧ q &&& 0x78 = r &&& 0x78 ∧
          Named query 12 la ∧ Named response 12 lb ∧ SameLabels la lb ∧
          typeClass query x.2 = typeClass response y.2)) := by
  refine ⟨?_, ?_, ?_⟩
  · intro a x ha
    obtain ⟨la, hla, -⟩ := question_named ha
    exact ⟨la, hla, fun lb hlb => hlb.unique hla⟩
  · intro a b x y la lb ha hb hla hlb
    exact question_eq_iff ha hb hla hlb
  · intro query response hq
    refine ⟨DnsForwarderService.isResponseTo_total hq, ?_⟩
    rw [DnsForwarderService.isResponseTo_iff hq]
    constructor
    · intro h
      obtain ⟨x, y, hx, hy, hxy⟩ := h.question
      obtain ⟨q, r, hqr, hr, hop⟩ := h.opcode
      obtain ⟨r', hr', hflag⟩ := h.flag
      rw [hr] at hr'
      cases hr'
      obtain ⟨la, hla, -⟩ := question_named hx
      obtain ⟨lb, hlb, -⟩ := question_named hy
      obtain ⟨hlabels, htail⟩ := (question_eq_iff hx hy hla hlb).mp hxy
      exact ⟨x, y, q, r, la, lb, hx, hy, h.id.1, h.id.2, hqr, hr, hflag, hop, hla, hlb, hlabels, htail⟩
    · intro hgiven
      obtain ⟨x, y, q, r, la, lb, hx, hy, h0, h1, hqr, hr, hflag, hop, hla, hlb, hlabels, htail⟩ := hgiven
      have hlen := question_stop hy
      exact ⟨by omega, ⟨h0, h1⟩, ⟨r, hr, hflag⟩, ⟨q, r, hqr, hr, hop⟩, x, y, hx, hy,
        (question_eq_iff hx hy hla hlb).mpr ⟨hlabels, htail⟩⟩

/-! ## The bytes of a name -/

/-- The bytes that the name at an offset is read from. -/
inductive NameByte (packet : Packet) : Nat → Nat → Prop where
  | size {o : Nat} : NameByte packet o o
  | low {o : Nat} {size : UInt8} (h : packet[o]? = some size) (hs : 192 ≤ size.toNat) :
    NameByte packet o (o + 1)
  | letter {o i : Nat} {size : UInt8} (h : packet[o]? = some size)
    (hs : 0 < size.toNat ∧ size.toNat ≤ 63) (hi : o < i ∧ i ≤ o + size.toNat) : NameByte packet o i
  | next {o o' i : Nat} (h : Next packet o o') (hr : NameByte packet o' i) : NameByte packet o i

theorem nameLoop_pointer {packet : Packet} {c : Cursor} (hf : c.Fresh packet) {size low : UInt8}
    (h : packet[c.offset]? = some size) (hs : 192 ≤ size.toNat) (hl : packet[c.offset + 1]? = some low) :
    nameLoop packet c = nameLoop packet { c.moved with
      consumed := some (c.consumed.getD (c.offset + 2)), offset := target size low } := by
  have hzero : size ≠ 0 := by
    intro he
    subst he
    exact absurd hs (by decide)
  have hin : ¬packet.length ≤ c.moved.offset := by
    have := (List.getElem?_eq_some_iff.mp hl).1
    show ¬packet.length ≤ c.offset + 1
    omega
  have hread : byteAt packet c.moved.offset = .ok low := byteAt_eq hl
  rw [nameLoop_eq, turn_fresh hf h, if_neg hzero, if_pos ((pointer_iff size).mpr hs), Turn.ofPointer,
    if_neg hin, hread]
  rfl

theorem nameLoop_of_reads {packet : Packet} {c c' : Cursor} (h : Reads packet c c') :
    nameLoop packet c = .ok c' := by
  induction h with
  | stop hf h => exact nameLoop_stop hf h
  | pointer hf h hs hl hr ih => exact (nameLoop_pointer hf h hs hl).trans ih
  | label hf h hs hb hl hr ih => exact (nameLoop_label hf h hs hb hl).trans ih

section frame
variable {p q : Packet}

theorem slice_congr {o n : Nat} (h : ∀ i, o ≤ i → i < o + n → q[i]? = p[i]?) :
    (q.drop o).take n = (p.drop o).take n := by
  apply List.ext_getElem?
  intro i
  rw [List.getElem?_take, List.getElem?_take]
  by_cases hi : i < n
  · rw [if_pos hi, if_pos hi, List.getElem?_drop, List.getElem?_drop, h (o + i) (by omega) (by omega)]
  · rw [if_neg hi, if_neg hi]

/-- A packet with the same bytes where a name is read has the same name. -/
theorem Reads.frame {c c' : Cursor} (h : Reads p c c') :
    (∀ i, NameByte p c.offset i → q[i]? = p[i]?) → Reads q c c' := by
  have hfresh : ∀ {c : Cursor} {b : UInt8}, c.Fresh p → q[c.offset]? = some b → c.Fresh q :=
    fun hf hb => ⟨(List.getElem?_eq_some_iff.mp hb).1, hf.unvisited, hf.hops⟩
  induction h with
  | @stop c hf h =>
    intro hsame
    have hq : q[c.offset]? = some 0 := by rw [hsame _ .size, h]
    exact .stop (hfresh hf hq) hq
  | @pointer c c' hf size low h hs hl hr ih =>
    intro hsame
    have hq : q[c.offset]? = some size := by rw [hsame _ .size, h]
    have hql : q[c.offset + 1]? = some low := by rw [hsame _ (.low h hs), hl]
    exact .pointer (hfresh hf hq) hq hs hql (ih (fun i hi => hsame i (.next (.pointer h hs hl) hi)))
  | @label c c' hf size h hs hb hl hr ih =>
    intro hsame
    have hq : q[c.offset]? = some size := by rw [hsame _ .size, h]
    have hletters : ∀ i, c.offset + 1 ≤ i → i < c.offset + 1 + size.toNat → q[i]? = p[i]? :=
      fun i hlo hhi => hsame i (.letter h hs (by omega))
    have hlast : q[c.offset + size.toNat]? = p[c.offset + size.toNat]? :=
      hletters _ (by omega) (by omega)
    have hbq : c.offset + 1 + size.toNat ≤ q.length := by
      obtain ⟨b, hpb, -⟩ := @byteAt_ok p (c.offset + size.toNat) (by omega)
      rw [hpb] at hlast
      have := (List.getElem?_eq_some_iff.mp hlast).1
      omega
    have hrest := ih (fun i hi => hsame i (.next (.label h hs hb) hi))
    rw [← slice_congr hletters] at hrest
    exact .label (hfresh hf hq) hq hs hbq hl hrest

/-- And with the same count and the same bytes behind the name, the same question. -/
theorem question_frame {x : List Char × Nat} (h : question p = .ok x) (hlen : x.2 ≤ q.length)
    (hname : ∀ i, NameByte p 12 i → q[i]? = p[i]?) (hcount : q[4]? = p[4]? ∧ q[5]? = p[5]?)
    (htail : ∀ i, x.2 - 4 ≤ i → i < x.2 → q[i]? = p[i]?) : question q = .ok x := by
  obtain ⟨hge, -⟩ := question_stop h
  obtain ⟨hh, c, hr, hs, hle, htext⟩ := question_ok h
  have hqh : Headed q := by
    refine ⟨by omega, ?_⟩
    have hread : readUInt16 q 4 = readUInt16 p 4 := by
      rw [readUInt16, readUInt16, byteAt, byteAt, byteAt, byteAt, hcount.1, hcount.2]
    rw [hread]
    exact hh.count
  have hbytes : (q.drop (c.consumed.getD c.offset)).take 4 = (p.drop (c.consumed.getD c.offset)).take 4 :=
    slice_congr (fun i hlo hhi => htail i (by omega) (by omega))
  rw [question_headed hqh, nameLoop_of_reads (hr.frame hname)]
  show questionTail q c = _
  rw [questionTail_ok (by omega), hbytes, ← htext, ← hs]

end frame

/-! ## When a changed byte shows -/

/-- A packet that has lost bytes, and whose header has new bytes that are zero or are no
size of a label where one was. -/
structure Spoiled (p q : Packet) : Prop where
  header : ∀ i < 12, ∀ v, q[i]? = some v → p[i]? = some v ∨ v = 0 ∨
    (128 ≤ v.toNat ∧ ∀ u, p[i]? = some u → u.toNat ≤ 63 → v.toNat < 192)
  body : ∀ i, 12 ≤ i → ∀ v, q[i]? = some v → p[i]? = some v

theorem NameByte.root {packet : Packet} {o i : Nat} (h : NameByte packet o i)
    (hz : packet[o]? = some 0) : i = o := by
  cases h with
  | size => rfl
  | low h hs => rw [hz] at h; cases h; exact absurd hs (by decide)
  | letter h hs _ => rw [hz] at h; cases h; exact absurd hs.1 (by decide)
  | next h _ =>
    cases h with
    | label h hs _ => rw [hz] at h; cases h; exact absurd hs.1 (by decide)
    | pointer h hs _ => rw [hz] at h; cases h; exact absurd hs (by decide)

theorem NameByte.label {packet : Packet} {o i : Nat} {size : UInt8} (h : NameByte packet o i)
    (ho : packet[o]? = some size) (hs : 0 < size.toNat ∧ size.toNat ≤ 63)
    (hb : o + 1 + size.toNat ≤ packet.length) :
    (o ≤ i ∧ i ≤ o + size.toNat) ∨ NameByte packet (o + 1 + size.toNat) i := by
  cases h with
  | size => exact .inl ⟨Nat.le_refl o, by omega⟩
  | low h hs' => rw [ho] at h; cases h; omega
  | letter h _ hi => rw [ho] at h; cases h; exact .inl ⟨by omega, hi.2⟩
  | next h hr =>
    have he := h.unique (.label ho hs hb)
    rw [he] at hr
    exact .inr hr

theorem NameByte.pointer {packet : Packet} {o i : Nat} {size low : UInt8} (h : NameByte packet o i)
    (ho : packet[o]? = some size) (hs : 192 ≤ size.toNat) (hl : packet[o + 1]? = some low) :
    i = o ∨ i = o + 1 ∨ NameByte packet (target size low) i := by
  cases h with
  | size => exact .inl rfl
  | low _ _ => exact .inr (.inl rfl)
  | letter h hs' _ => rw [ho] at h; cases h; omega
  | next h hr =>
    have he := h.unique (.pointer ho hs hl)
    rw [he] at hr
    exact .inr (.inr hr)

/-- The bytes of a name are in the packet. -/
theorem Named.byte {packet : Packet} {o : Nat} {labels : List (List UInt8)} (h : Named packet o labels) :
    ∀ {i : Nat}, NameByte packet o i → ∃ b, packet[i]? = some b := by
  induction h with
  | root h =>
    intro i hi
    rw [hi.root h]
    exact ⟨0, h⟩
  | label h hs hb hr ih =>
    intro i hi
    rcases hi.label h hs hb with ⟨_, hhi⟩ | hi
    · obtain ⟨b, hgot, -⟩ := @byteAt_ok packet i (by omega)
      exact ⟨b, hgot⟩
    · exact ih hi
  | pointer h hs hl hr ih =>
    intro i hi
    rcases hi.pointer h hs hl with rfl | rfl | hi
    · exact ⟨_, h⟩
    · exact ⟨_, hl⟩
    · exact ih hi

/-- A new byte of the header is no letter of the same label. -/
theorem Spoiled.letter {p q : Packet} (hsp : Spoiled p q) {i : Nat} {u v : UInt8} (hu : p[i]? = some u)
    (hv : q[i]? = some v) (hlower : lower u = lower v) : q[i]? = p[i]? := by
  by_cases hi : i < 12
  · have hnat := congrArg UInt8.toNat hlower
    rw [lower_toNat, lower_toNat] at hnat
    rcases hsp.header i hi v hv with h | rfl | ⟨hbig, -⟩
    · rw [hv, h]
    · have hzero : (0 : UInt8).toNat = 0 := rfl
      have huv : u.toNat = (0 : UInt8).toNat := by
        split at hnat <;> split at hnat <;> omega
      rw [hu, hv, UInt8.toNat_inj.mp huv]
    · have huv : u.toNat = v.toNat := by
        have := v.toNat_lt
        split at hnat <;> split at hnat <;> omega
      rw [hu, hv, UInt8.toNat_inj.mp huv]
  · rw [hv, hsp.body i (by omega) v hv]

/-- A byte that a label or the end of a name starts with stays, or it is the end now. -/
theorem Spoiled.size {p q : Packet} (hsp : Spoiled p q) {i : Nat} {u v : UInt8} (hu : p[i]? = some u)
    (hv : q[i]? = some v) (hle : u.toNat ≤ 63) (hrange : v.toNat ≤ 63 ∨ 192 ≤ v.toNat) : v = 0 ∨ v = u := by
  by_cases hi : i < 12
  · rcases hsp.header i hi v hv with h | h | ⟨hbig, hlt⟩
    · rw [hu] at h
      cases h
      exact .inr rfl
    · exact .inl h
    · have := hlt u hu hle
      omega
  · have h := hsp.body i (by omega) v hv
    rw [hu] at h
    cases h
    exact .inr rfl

/-- Labels in one place that are read alike have the same bytes. -/
theorem Spoiled.letters {p q : Packet} (hsp : Spoiled p q) {start count : Nat} (hp : start + count ≤ p.length)
    (hq : start + count ≤ q.length)
    (heq : ((p.drop start).take count).map lower = ((q.drop start).take count).map lower) {i : Nat}
    (hlo : start ≤ i) (hhi : i < start + count) : q[i]? = p[i]? := by
  obtain ⟨u, hu, -⟩ := @byteAt_ok p i (by omega)
  obtain ⟨v, hv, -⟩ := @byteAt_ok q i (by omega)
  have hat := congrArg (fun l => l[i - start]?) heq
  simp only [List.getElem?_map, List.getElem?_take, List.getElem?_drop] at hat
  rw [if_pos (by omega), if_pos (by omega), show start + (i - start) = i by omega, hu, hv] at hat
  exact hsp.letter hu hv (Option.some.inj hat)

/-- A name that is still read alike, and has no pointers in the header, is read from
bytes that are still there. -/
theorem Spoiled.named {p q : Packet} (hsp : Spoiled p q) {o : Nat} {la : List (List UInt8)}
    (ha : Named p o la) :
    (∀ o', Relation.ReflTransGen (Next p) o o' → ∀ size, p[o']? = some size → 192 ≤ size.toNat → 12 ≤ o') →
    ∀ {lb : List (List UInt8)}, Named q o lb → la.map (List.map lower) = lb.map (List.map lower) →
      ∀ i, NameByte p o i → q[i]? = p[i]? := by
  induction ha with
  | @root o h =>
    intro _ lb hb _ i hi
    rw [hi.root h, h]
    cases hb with
    | root h' => exact h'
    | label h' hs' _ _ =>
      rcases hsp.size h h' (by decide) (by omega) with rfl | rfl
      · exact absurd hs'.1 (by decide)
      · exact absurd hs'.1 (by decide)
    | pointer h' hs' _ _ =>
      rcases hsp.size h h' (by decide) (by omega) with rfl | rfl
      · exact absurd hs' (by decide)
      · exact absurd hs' (by decide)
  | @label o size la h hs hb hr ih =>
    intro hfar lb hlb heq i hi
    cases hlb with
    | root _ => simp at heq
    | pointer h' hs' _ _ =>
      rcases hsp.size h h' hs.2 (by omega) with rfl | rfl
      · exact absurd hs' (by decide)
      · omega
    | @label _ size' lb h' hs' hb' hr' =>
      have hsame : size' = size := by
        rcases hsp.size h h' hs.2 (by omega) with rfl | hv
        · exact absurd hs'.1 (by decide)
        · exact hv
      subst hsame
      rw [List.map_cons, List.map_cons, List.cons.injEq] at heq
      rcases hi.label h hs hb with ⟨hlo, hhi⟩ | hi
      · by_cases hio : i = o
        · rw [hio, h, h']
        · exact hsp.letters hb hb' heq.1 (by omega) (by omega)
      · exact ih (fun o' ho' => hfar o' (.head (.label h hs hb) ho')) hr' heq.2 i hi
  | @pointer o size low la h hs hl hr ih =>
    intro hfar lb hlb heq i hi
    have ho := hfar o .refl size h hs
    cases hlb with
    | root h' =>
      rw [hsp.body o ho _ h'] at h
      cases h
      exact absurd hs (by decide)
    | label h' hs' _ _ =>
      rw [hsp.body o ho _ h'] at h
      cases h
      omega
    | pointer h' hs' hl' hr' =>
      have hp := hsp.body o ho _ h'
      have hpl := hsp.body (o + 1) (by omega) _ hl'
      rw [h] at hp
      cases hp
      rw [hl] at hpl
      cases hpl
      rcases hi.pointer h hs hl with rfl | rfl | hi
      · rw [h, h']
      · rw [hl, hl']
      · exact ih (fun o' ho' => hfar o' (.head (.pointer h hs hl) ho')) hr' heq i hi

/-! ## The failure answer -/

/-- The flags of a failure. -/
def failureFlags (flags : UInt8) : UInt8 := (flags &&& 0x79) ||| 0x80

theorem failureFlags_bits : ∀ flags : UInt8, failureFlags flags &&& 0x80 ≠ 0 ∧
    flags &&& 0x78 = failureFlags flags &&& 0x78 ∧ 128 ≤ (failureFlags flags).toNat ∧
    (flags.toNat ≤ 63 → (failureFlags flags).toNat < 192) := by
  have h : ∀ n : Fin 256, failureFlags (UInt8.ofFin n) &&& 0x80 ≠ 0 ∧
      UInt8.ofFin n &&& 0x78 = failureFlags (UInt8.ofFin n) &&& 0x78 ∧
      128 ≤ (failureFlags (UInt8.ofFin n)).toNat ∧
      (n.val ≤ 63 → (failureFlags (UInt8.ofFin n)).toNat < 192) := by decide +kernel
  exact fun flags => h flags.toFin

/-- The bytes of a failure. -/
def failureByte (query : Packet) (flags : UInt8) (stop i : Nat) : Option UInt8 :=
  if stop ≤ i then none
  else if i = 2 then some (failureFlags flags)
  else if i = 3 then some 0x82
  else if 6 ≤ i ∧ i < 12 then some 0
  else query[i]?

theorem failure_bytes {query : Packet} {x : List Char × Nat} (hx : question query = .ok x) {flags : UInt8}
    (hflags : query[2]? = some flags) :
    ∃ r, failure query = .ok r ∧ r.length = x.2 ∧ ∀ i, r[i]? = failureByte query flags x.2 i := by
  obtain ⟨hge, hle⟩ := question_stop hx
  have hslice := DnsForwarderService.slice_zero hle
  have hlen : ¬(query.take x.2).length < 12 := by
    rw [List.length_take]
    omega
  refine ⟨(((query.take x.2).set 2 (failureFlags flags)).set 3 0x82).take 6 ++
    List.replicate 6 0 ++ (query.take x.2).drop 12, ?_, ?_, ?_⟩
  · rw [DnsMessage.failure, hx]
    simp only [Except.bind, hslice, byteAt_eq hflags]
    rw [if_neg hlen]
    rfl
  · simp only [List.length_append, List.length_take, List.length_set, List.length_replicate, List.length_drop]
    omega
  · intro i
    have hfront : ∀ {i : Nat}, i < 6 →
        (((query.take x.2).set 2 (failureFlags flags)).set 3 0x82)[i]? = failureByte query flags x.2 i := by
      intro i hi
      rw [failureByte, if_neg (by omega)]
      by_cases h3 : i = 3
      · rw [h3, List.getElem?_set_self (by rw [List.length_set, List.length_take]; omega)]
        rfl
      · rw [List.getElem?_set_ne (Ne.symm h3)]
        by_cases h2 : i = 2
        · rw [h2, List.getElem?_set_self (by rw [List.length_take]; omega)]
          rfl
        · rw [List.getElem?_set_ne (Ne.symm h2), if_neg h2, if_neg h3, if_neg (by omega),
            List.getElem?_take, if_pos (by omega)]
    have hsix : ((((query.take x.2).set 2 (failureFlags flags)).set 3 0x82).take 6).length = 6 := by
      rw [List.length_take, List.length_set, List.length_set, List.length_take]
      omega
    by_cases hhead : i < 12
    · rw [List.getElem?_append_left (by rw [List.length_append, hsix, List.length_replicate]; omega)]
      by_cases hi : i < 6
      · rw [List.getElem?_append_left (by omega), List.getElem?_take, if_pos hi]
        exact hfront hi
      · rw [List.getElem?_append_right (by omega), hsix, List.getElem?_replicate, if_pos (by omega), failureByte,
          if_neg (by omega), if_neg (by omega), if_neg (by omega), if_pos (by omega)]
    · rw [List.getElem?_append_right (by rw [List.length_append, hsix, List.length_replicate]; omega),
        List.length_append, hsix, List.length_replicate, List.getElem?_drop,
        show 12 + (i - (6 + 6)) = i by omega, List.getElem?_take, failureByte]
      by_cases hstop : x.2 ≤ i
      · rw [if_neg (by omega), if_pos hstop]
      · rw [if_pos (by omega), if_neg hstop, if_neg (by omega), if_neg (by omega), if_neg (by omega)]

theorem failure_of_question {query r : Packet} {x : List Char × Nat} (hx : question query = .ok x)
    (hr : failure query = .ok r) :
    ∃ flags, query[2]? = some flags ∧ r.length = x.2 ∧ ∀ i, r[i]? = failureByte query flags x.2 i := by
  obtain ⟨hge, hle⟩ := question_stop hx
  obtain ⟨flags, hflags, -⟩ := @byteAt_ok query 2 (by omega)
  obtain ⟨r', hr', hlen, hbytes⟩ := failure_bytes hx hflags
  rw [hr] at hr'
  cases hr'
  exact ⟨flags, hflags, hlen, hbytes⟩

/-- A byte of the query that a failure keeps. -/
structure FailureKeeps (query : Packet) (stop i : Nat) : Prop where
  inside : i < stop
  flags : i ≠ 2
  code : i = 3 → query[3]? = some 0x82
  counts : 6 ≤ i → i < 12 → query[i]? = some 0

theorem FailureKeeps.byte {query : Packet} {stop i : Nat} (h : FailureKeeps query stop i) (flags : UInt8) :
    failureByte query flags stop i = query[i]? := by
  rw [failureByte, if_neg (by have := h.inside; omega), if_neg h.flags]
  by_cases h3 : i = 3
  · rw [if_pos h3, h3, h.code h3]
  · rw [if_neg h3]
    by_cases hcount : 6 ≤ i ∧ i < 12
    · rw [if_pos hcount, h.counts hcount.1 hcount.2]
    · rw [if_neg hcount]

/-- A failure that keeps every byte of the name is a response. -/
theorem failure_responds {query r : Packet} {x : List Char × Nat} (hx : question query = .ok x)
    (hr : failure query = .ok r) (hkeep : ∀ i, NameByte query 12 i → FailureKeeps query x.2 i) :
    isResponseTo query r = .ok true := by
  obtain ⟨hge, hle⟩ := question_stop hx
  obtain ⟨flags, hflags, hlen, hbytes⟩ := failure_of_question hx hr
  have hlow : ∀ i, i < 12 → i ≠ 2 → i ≠ 3 → i < 6 → r[i]? = query[i]? := by
    intro i hi h2 h3 h6
    rw [hbytes, failureByte, if_neg (by omega), if_neg h2, if_neg h3, if_neg (by omega)]
  have hr2 : r[2]? = some (failureFlags flags) := by
    rw [hbytes, failureByte, if_neg (by omega), if_pos rfl]
  have hquestion : question r = .ok x := by
    apply question_frame hx (by omega)
    · intro i hi
      rw [hbytes, (hkeep i hi).byte flags]
    · exact ⟨hlow 4 (by decide) (by decide) (by decide) (by decide),
        hlow 5 (by decide) (by decide) (by decide) (by decide)⟩
    · intro i hlo hhi
      rw [hbytes, failureByte, if_neg (by omega), if_neg (by omega), if_neg (by omega), if_neg (by omega)]
  obtain ⟨hbit, hop, -, -⟩ := failureFlags_bits flags
  rw [DnsForwarderService.isResponseTo_iff (by omega)]
  exact ⟨by omega, ⟨hlow 0 (by decide) (by decide) (by decide) (by decide),
    hlow 1 (by decide) (by decide) (by decide) (by decide)⟩, ⟨_, hr2, hbit⟩,
    ⟨flags, _, hflags, hr2, hop⟩, x, x, hx, hquestion, rfl⟩

/-- No pointer of the name is read from the header. -/
def PointersBehindHeader (query : Packet) : Prop :=
  ∀ o, Relation.ReflTransGen (Next query) 12 o → ∀ size, query[o]? = some size → 192 ≤ size.toNat → 12 ≤ o

/-- And it is none otherwise. -/
theorem failure_keeps {query r : Packet} {x : List Char × Nat} (hx : question query = .ok x)
    (hflag : ∀ b, query[2]? = some b → b &&& 0x80 = 0) (hr : failure query = .ok r)
    (hfar : PointersBehindHeader query) (h : isResponseTo query r = .ok true) :
    ∀ i, NameByte query 12 i → FailureKeeps query x.2 i := by
  obtain ⟨hge, hle⟩ := question_stop hx
  obtain ⟨flags, hflags, hlen, hbytes⟩ := failure_of_question hx hr
  obtain ⟨hbit, -, hbig, hsmall⟩ := failureFlags_bits flags
  have hspoiled : Spoiled query r := by
    constructor
    · intro i hi v hv
      rw [hbytes, failureByte, if_neg (by omega)] at hv
      split at hv
      next h2 =>
        cases hv
        refine .inr (.inr ⟨hbig, fun u hu hle => hsmall ?_⟩)
        rw [h2, hflags] at hu
        cases hu
        exact hle
      next h2 =>
        split at hv
        next => cases hv; exact .inr (.inr ⟨by decide, fun _ _ _ => by decide⟩)
        next =>
          split at hv
          next => cases hv; exact .inr (.inl rfl)
          next => exact .inl hv
    · intro i hi v hv
      rw [hbytes, failureByte] at hv
      split at hv
      next => cases hv
      next => rwa [if_neg (by omega), if_neg (by omega), if_neg (by omega)] at hv
  obtain ⟨x', y, hx', hy, hxy⟩ := ((DnsForwarderService.isResponseTo_iff (by omega)).mp h).question
  rw [hx] at hx'
  cases hx'
  obtain ⟨la, hla, -⟩ := question_named hx
  obtain ⟨lb, hlb, -⟩ := question_named hy
  have hlabels := ((question_eq_iff hx hy hla hlb).mp hxy).1
  have hsame := hspoiled.named hla hfar hlb (map_lower_eq_iff.mpr hlabels)
  intro i hi
  obtain ⟨u, hu⟩ := hla.byte hi
  have hi' := hsame i hi
  rw [hbytes, hu] at hi'
  have hin : i < x.2 := by
    by_contra hout
    rw [failureByte, if_pos (by omega)] at hi'
    cases hi'
  rw [failureByte, if_neg (by omega)] at hi'
  refine ⟨hin, ?_, ?_, ?_⟩
  · intro h2
    rw [if_pos h2] at hi'
    cases hi'
    rw [h2] at hu
    exact hbit (hflag _ hu)
  · intro h3
    rw [if_neg (by omega), if_pos h3] at hi'
    rw [← h3, hu, hi']
  · intro hlo hhi
    rw [if_neg (by omega), if_neg (by omega), if_pos ⟨hlo, hhi⟩] at hi'
    rw [hu, hi']

end DnsMessage

/-! ## The answer of the forwarder -/

namespace DnsForwarderService
open DnsMessage

/-- The bytes of the identifier that a name is read from are drawn as they were. -/
def IdKept (a' b' : UInt8) (query packet : Packet) : Prop :=
  ∀ i < 2, NameByte packet 12 i → (stamp a' b' query)[i]? = query[i]?

/-- The names are read from bytes that stay: those of the query and of the reply from
none of the identifier that is changed, and without a reply that of the query from none
that the failure changes or cuts off. -/
structure NamesKept (upstreams : List Upstream) (a' b' : UInt8) (query : Packet) : Prop where
  reply : ∀ before upstream after reply, upstreams = before ++ upstream :: after →
    Answers (stamp a' b' query) upstream reply →
    (∀ v ∈ before, ∀ r, ¬Answers (stamp a' b' query) v r) →
    IdKept a' b' query query ∧ IdKept a' b' query reply
  failure : (∀ v ∈ upstreams, ∀ r, ¬Answers (stamp a' b' query) v r) →
    ∀ x, question query = .ok x → ∀ i, NameByte query 12 i → FailureKeeps query x.2 i

theorem validate_flag {query : Packet} (h : validate query = .ok ()) :
    ∀ b, query[2]? = some b → b &&& 0x80 = 0 := by
  intro b hb
  obtain ⟨hlen, -⟩ := validate_ok h
  obtain ⟨count, hcount⟩ := readUInt16_ok hlen
  rw [validate, if_neg (by omega), byteAt_eq hb, hcount] at h
  simp only [Except.bind] at h
  split at h
  next => cases h
  next hok =>
    rw [not_or, not_ne_iff] at hok
    exact hok.1

/-- A reply under the client's identifier is a response to the client's query when no
name is read from the identifier. -/
theorem responds_restored {query reply : Packet} {a b a' b' : UInt8}
    (ha : query[0]? = some a) (hb : query[1]? = some b) (h : Responds (stamp a' b' query) reply)
    (hq : IdKept a' b' query query) (hr : IdKept a' b' query reply)
    {x : List Char × Nat} (hx : question query = .ok x) : Responds query (stamp a b reply) := by
  obtain ⟨hxge, hxle⟩ := question_stop hx
  have hfx : question (stamp a' b' query) = .ok x := by
    apply question_frame hx (by rw [stamp_length]; exact hxle)
    · intro i hi
      by_cases hi2 : i < 2
      · exact hq i hi2 hi
      · exact stamp_rest a' b' query (by omega)
    · exact ⟨stamp_rest a' b' query (by decide), stamp_rest a' b' query (by decide)⟩
    · exact fun i hlo _ => stamp_rest a' b' query (by omega)
  obtain ⟨u, v, hu, hv, huv⟩ := h.question
  rw [hfx] at hu
  cases hu
  obtain ⟨hvge, hvle⟩ := question_stop hv
  obtain ⟨h0, h1⟩ := stamp_id a b h.length
  have hrv : question (stamp a b reply) = .ok v := by
    apply question_frame hv (by rw [stamp_length]; exact hvle)
    · intro i hi
      by_cases hi2 : i < 2
      · -- the reply has the identifier of the forwarded query
        have hkept := hr i hi2 hi
        cases Nat.lt_or_ge i 1 with
        | inl hzero =>
          cases Nat.lt_one_iff.mp hzero
          rw [h0, h.id.1, hkept, ha]
        | inr hone =>
          cases Nat.le_antisymm (Nat.le_of_lt_succ hi2) hone
          rw [h1, h.id.2, hkept, hb]
      · exact stamp_rest a b reply (by omega)
    · exact ⟨stamp_rest a b reply (by decide), stamp_rest a b reply (by decide)⟩
    · exact fun i hlo _ => stamp_rest a b reply (by omega)
  obtain ⟨flag, hflag, hbit⟩ := h.flag
  obtain ⟨s, t, hs, ht, hop⟩ := h.opcode
  refine ⟨?_, ⟨?_, ?_⟩, ⟨flag, ?_, hbit⟩, ⟨s, t, ?_, ?_, hop⟩, x, v, hx, hrv, huv⟩
  · rw [stamp_length]
    exact h.length
  · rw [h0, ha]
  · rw [h1, hb]
  · rw [stamp_rest a b reply (by decide), hflag]
  · rw [← stamp_rest a' b' query (by decide), hs]
  · rw [stamp_rest a b reply (by decide), ht]

/-- What the forwarder returns is a response to the query when the names are read from
bytes that stay. For the failure answer this is exact, as long as the name has no
pointers in the header. -/
theorem resolve_response_valid (upstreams : List Upstream) (a' b' : UInt8) (query : Packet)
    (hv : validate query = .ok ()) :
    ∃ result, resolve upstreams a' b' query = .ok result ∧
      (NamesKept upstreams a' b' query → isResponseTo query result = .ok true) ∧
      ((∀ v ∈ upstreams, ∀ r, ¬Answers (stamp a' b' query) v r) → PointersBehindHeader query →
        (isResponseTo query result = .ok true ↔ NamesKept upstreams a' b' query)) := by
  obtain ⟨hlen, ⟨x, hx⟩, a, b, ha, hb, ⟨before, upstream, after, reply, he, hans, hbefore, hr⟩ | ⟨hnone, hr⟩⟩ :=
    resolve_cases upstreams a' b' hv
  · have hf : 12 ≤ (stamp a' b' query).length := by rw [stamp_length]; exact hlen
    refine ⟨stamp a b reply, hr, ?_, ?_⟩
    · intro hkept
      obtain ⟨hq, hreply⟩ := hkept.reply before upstream after reply he hans hbefore
      have hresp := (isResponseTo_iff hf).mp hans.matched
      exact (isResponseTo_iff hlen).mpr (responds_restored ha hb hresp hq hreply hx)
    · intro hnone
      exact absurd hans (hnone upstream (by rw [he]; simp) reply)
  · obtain ⟨r, hfail⟩ := failure_ok hx
    refine ⟨r, hr.trans hfail, ?_, ?_⟩
    · intro hkept
      exact failure_responds hx hfail (hkept.failure hnone x hx)
    · intro _ hfar
      constructor
      · intro hok
        refine ⟨?_, ?_⟩
        · intro before upstream after reply he hans
          exact absurd hans (hnone upstream (by rw [he]; simp) reply)
        · intro _ y hy
          rw [hx] at hy
          cases hy
          exact failure_keeps hx (validate_flag hv) hfail hfar hok
      · intro hkept
        exact failure_responds hx hfail (hkept.failure hnone x hx)

theorem resolve_response_valid_www :
    validate wwwQuery = .ok () ∧ ∃ result, resolve [] 5 6 wwwQuery = .ok result ∧
      isResponseTo wwwQuery result = .ok true := by
  have hv : validate wwwQuery = .ok () := by decide +kernel
  obtain ⟨result, hr, hkept, -⟩ := resolve_response_valid [] 5 6 wwwQuery hv
  refine ⟨hv, result, hr, hkept ⟨by simp, ?_⟩⟩
  intro _ x hx i hi
  obtain ⟨hge, -⟩ := question_stop hx
  have hbytes : 12 ≤ i ∧ i ≤ 16 := by
    cases hi.label (rfl : wwwQuery[12]? = some 3) (by decide) (by decide) with
    | inl h =>
      exact ⟨h.1, Nat.le_trans h.2 (by decide)⟩
    | inr h =>
      cases h.root rfl
      decide
  exact ⟨by omega, by omega, by omega, by omega⟩

/-- A query for `www` whose name stands behind the question. -/
def forwardQuery : Packet :=
  [0, 7, 1, 0, 0, 1, 0, 0, 0, 0, 0, 0, 0xc0, 18, 0, 1, 0, 1, 3, 0x77, 0x77, 0x77, 0]

/-- It is accepted, and the failure answer has lost the name. -/
theorem forward_failure_unmatched :
    validate forwardQuery = .ok () ∧ ∃ result, resolve [] 5 6 forwardQuery = .ok result ∧
      isResponseTo forwardQuery result = .ok false :=
  ⟨by decide +kernel, forwardQuery.take 18 |>.set 2 0x81 |>.set 3 0x82, by decide +kernel, by decide +kernel⟩

end DnsForwarderService
end EasyTierHost
