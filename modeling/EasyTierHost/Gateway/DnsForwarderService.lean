import EasyTierHost.Core.DnsQuestion

/- Forwarding a DNS query, after DnsForwarderService.cs. The query is sent under a
   random identifier to one upstream after the other, each over a socket of its
   own with a time limit of its own. An upstream is what it does with a packet:
   it answers with any bytes, or the exchange ends in an exception that
   `ResolveAsync` catches. -/
namespace EasyTierHost
namespace DnsForwarderService
open DnsMessage

/-- How an exchange with an upstream ends. -/
inductive Exchange where
  | reply (response : Packet)
  | socketException
  | ioException
  | timeout
  deriving DecidableEq, Repr

/-- `DnsMessage.ExchangeAsync` with one upstream. -/
abbrev Upstream := Packet → Exchange

/-- The two identifier bytes of a packet, replaced. -/
def stamp (a b : UInt8) (packet : Packet) : Packet := (packet.set 0 a).set 1 b

/-- The test of a response's code: neither a server failure nor a refusal. -/
def usable (response : Packet) : Except Fault Bool :=
  (byteAt response 3).map (fun b => !(b &&& 15 == 2 || b &&& 15 == 5))

/-- The test of a reply to the forwarded query. -/
def accepts (forwarded response : Packet) : Except Fault Bool :=
  both (isResponseTo forwarded response) (usable response)

/-- The loop over the upstreams. -/
def tryUpstreams (query forwarded : Packet) : List Upstream → Except Fault Packet
  | [] => failure query
  | upstream :: rest =>
    match upstream forwarded with
    | .reply response =>
      match accepts forwarded response with
      | .ok true =>
        (byteAt query 0).bind (fun a => (byteAt query 1).map (fun b => stamp a b response))
      | .ok false => tryUpstreams query forwarded rest
      -- an `IOException` is caught like one of the exchange
      | .error (.io _) => tryUpstreams query forwarded rest
      | .error .outOfRange => .error .outOfRange
    | _ => tryUpstreams query forwarded rest

/-- The checks a query has to pass. -/
def validate (query : Packet) : Except Fault Unit :=
  if query.length < 12 then .error (.io "Invalid DNS query")
  else (byteAt query 2).bind (fun flags =>
    (readUInt16 query 4).bind (fun count =>
      if flags &&& 0x80 ≠ 0 ∨ count ≠ 1 then .error (.io "Invalid DNS query")
      else (question query).map (fun _ => ())))

/-- `ResolveAsync`, with the random identifier it draws. -/
def resolve (upstreams : List Upstream) (a b : UInt8) (query : Packet) : Except Fault Packet :=
  (validate query).bind (fun _ => tryUpstreams query (stamp a b query) upstreams)

/-! ## Bytes and identifiers -/

theorem stamp_length (a b : UInt8) (packet : Packet) : (stamp a b packet).length = packet.length := by
  simp [stamp]

/-- A stamp changes the identifier. -/
theorem stamp_id (a b : UInt8) {packet : Packet} (h : 12 ≤ packet.length) :
    (stamp a b packet)[0]? = some a ∧ (stamp a b packet)[1]? = some b := by
  constructor
  · simp only [stamp]
    rw [List.getElem?_set_ne (by decide), List.getElem?_set_self (by omega)]
  · simp only [stamp]
    rw [List.getElem?_set_self (by rw [List.length_set]; omega)]

/-- And nothing else. -/
theorem stamp_rest (a b : UInt8) (packet : Packet) {i : Nat} (h : 2 ≤ i) :
    (stamp a b packet)[i]? = packet[i]? := by
  simp only [stamp]
  rw [List.getElem?_set_ne (by omega), List.getElem?_set_ne (by omega)]

theorem stamp_agree (a b : UInt8) (packet : Packet) : Agree 2 packet (stamp a b packet) :=
  ⟨(stamp_length a b packet).symm, fun _ hi => (stamp_rest a b packet hi).symm⟩

/-! ## Matching a response with its query -/

theorem both_true {a b : Except Fault Bool} : both a b = .ok true ↔ a = .ok true ∧ b = .ok true := by
  cases a with
  | error e => simp [both, Except.bind]
  | ok x => cases x <;> simp [both, Except.bind]

/-- No access outside a packet. -/
def Mild {α : Type} (x : Except Fault α) : Prop := x ≠ .error .outOfRange

theorem Mild.both {a b : Except Fault Bool} (ha : Mild a) (hb : a = .ok true → Mild b) :
    Mild (both a b) := by
  cases a with
  | error e =>
    intro h
    cases h
    exact ha rfl
  | ok x =>
    cases x with
    | false =>
      intro h
      cases h
    | true => exact hb rfl

theorem mild_ok {α : Type} (x : α) : Mild (.ok x : Except Fault α) := by
  intro h
  cases h

theorem mild_question (packet : Packet) : Mild (question packet) := by
  intro h
  obtain ⟨m, hm⟩ := question_fault h
  cases hm

theorem mild_sameQuestion (query response : Packet) :
    Mild ((question query).bind (fun q => (question response).map (fun r => q.1 == r.1))) := by
  cases hx : question query with
  | error e =>
    intro h
    cases h
    exact mild_question query hx
  | ok x =>
    cases hy : question response with
    | error e =>
      intro h
      cases h
      exact mild_question response hy
    | ok y => exact mild_ok _

/-- What `IsResponseTo` asks for. -/
structure Responds (query response : Packet) : Prop where
  length : 12 ≤ response.length
  id : response[0]? = query[0]? ∧ response[1]? = query[1]?
  flag : ∃ b, response[2]? = some b ∧ b &&& 0x80 ≠ 0
  opcode : ∃ a b, query[2]? = some a ∧ response[2]? = some b ∧ a &&& 0x78 = b &&& 0x78
  question : ∃ x y, DnsMessage.question query = .ok x ∧ DnsMessage.question response = .ok y ∧ x.1 = y.1

section responses
variable {query response : Packet}

theorem mild_responseTest (hq : 12 ≤ query.length) : Mild (responseTest query response) := by
  apply Mild.both (mild_ok _)
  intro hlen
  have hr : 12 ≤ response.length := by simpa using hlen
  obtain ⟨q0, -, hq0⟩ := @byteAt_ok query 0 (by omega)
  obtain ⟨q1, -, hq1⟩ := @byteAt_ok query 1 (by omega)
  obtain ⟨q2, -, hq2⟩ := @byteAt_ok query 2 (by omega)
  obtain ⟨r0, -, hr0⟩ := @byteAt_ok response 0 (by omega)
  obtain ⟨r1, -, hr1⟩ := @byteAt_ok response 1 (by omega)
  obtain ⟨r2, -, hr2⟩ := @byteAt_ok response 2 (by omega)
  rw [hq0, hq1, hq2, hr0, hr1, hr2]
  apply Mild.both (mild_ok _)
  intro _
  apply Mild.both (mild_ok _)
  intro _
  apply Mild.both (mild_ok _)
  intro _
  apply Mild.both (mild_ok _)
  intro _
  exact mild_sameQuestion query response

theorem isResponseTo_total (hq : 12 ≤ query.length) : ∃ b, isResponseTo query response = .ok b := by
  have hmild := @mild_responseTest query response hq
  unfold isResponseTo
  split
  next b _ => exact ⟨b, rfl⟩
  next => exact ⟨false, rfl⟩
  next h => exact absurd h hmild

theorem sameQuestion_iff :
    (question query).bind (fun q => (question response).map (fun r => q.1 == r.1)) = .ok true ↔
      ∃ x y, question query = .ok x ∧ question response = .ok y ∧ x.1 = y.1 := by
  cases question query with
  | error e => simp [Except.bind]
  | ok x => cases question response <;> simp [Except.bind, Except.map]

theorem isResponseTo_iff (hq : 12 ≤ query.length) :
    isResponseTo query response = .ok true ↔ Responds query response := by
  have htest : isResponseTo query response = .ok true ↔ responseTest query response = .ok true := by
    unfold isResponseTo
    split <;> simp_all
  rw [htest, responseTest, both_true, both_true, both_true, both_true, both_true, sameQuestion_iff]
  obtain ⟨q0, hg0, hq0⟩ := @byteAt_ok query 0 (by omega)
  obtain ⟨q1, hg1, hq1⟩ := @byteAt_ok query 1 (by omega)
  obtain ⟨q2, hg2, hq2⟩ := @byteAt_ok query 2 (by omega)
  constructor
  · intro hgiven
    obtain ⟨hlen, h0, h1, hflag, hop, hquestion⟩ := hgiven
    have hr : 12 ≤ response.length := by simpa using hlen
    obtain ⟨r0, hs0, hr0⟩ := @byteAt_ok response 0 (by omega)
    obtain ⟨r1, hs1, hr1⟩ := @byteAt_ok response 1 (by omega)
    obtain ⟨r2, hs2, hr2⟩ := @byteAt_ok response 2 (by omega)
    simp only [hq0, hq1, hq2, hr0, hr1, hr2, testBytes, Except.bind, Except.map, Except.ok.injEq,
      beq_iff_eq, bne_iff_ne] at h0 h1 hflag hop
    exact ⟨hr, ⟨by rw [hs0, hg0, h0], by rw [hs1, hg1, h1]⟩, ⟨r2, hs2, hflag⟩,
      ⟨q2, r2, hg2, hs2, hop⟩, hquestion⟩
  · intro hgiven
    obtain ⟨hr, ⟨h0, h1⟩, ⟨r2, hs2, hflag⟩, ⟨a, b, ha, hb, hop⟩, hquestion⟩ := hgiven
    rw [hg0] at h0
    rw [hg1] at h1
    rw [hg2] at ha
    cases ha
    rw [hs2] at hb
    cases hb
    simp only [hq0, hq1, hq2, byteAt_eq h0, byteAt_eq h1, byteAt_eq hs2, testBytes, Except.bind,
      Except.map, Except.ok.injEq, beq_self_eq_true, beq_iff_eq, bne_iff_ne, decide_eq_true_eq]
    exact ⟨hr, trivial, trivial, hflag, hop, hquestion⟩

end responses

/-! ## The chosen reply -/

/-- The upstream answers the forwarded query, neither with a server failure nor
with a refusal. -/
structure Answers (forwarded : Packet) (upstream : Upstream) (reply : Packet) : Prop where
  sent : upstream forwarded = .reply reply
  matched : isResponseTo forwarded reply = .ok true
  code : ∃ b, reply[3]? = some b ∧ b &&& 15 ≠ 2 ∧ b &&& 15 ≠ 5

/-- The question of a packet, spelled without pointers. -/
def Uncompressed (packet : Packet) : Prop := ∃ labels e, Spelled packet 12 labels e

theorem usable_iff {response : Packet} :
    usable response = .ok true ↔ ∃ b, response[3]? = some b ∧ b &&& 15 ≠ 2 ∧ b &&& 15 ≠ 5 := by
  unfold usable byteAt
  cases response[3]? with
  | none => simp [Except.map]
  | some b => simp [Except.map]

theorem accepts_total {forwarded : Packet} (hf : 12 ≤ forwarded.length) (response : Packet) :
    ∃ b, accepts forwarded response = .ok b := by
  obtain ⟨b, hb⟩ := @isResponseTo_total forwarded response hf
  unfold accepts
  cases b with
  | false => exact ⟨false, by rw [hb]; rfl⟩
  | true =>
    have hlen := ((isResponseTo_iff hf).mp hb).length
    obtain ⟨b3, -, h3⟩ := @byteAt_ok response 3 (by omega)
    exact ⟨!(b3 &&& 15 == 2 || b3 &&& 15 == 5), by rw [hb, usable, h3]; rfl⟩

theorem validate_ok {query : Packet} (h : validate query = .ok ()) :
    12 ≤ query.length ∧ ∃ x, question query = .ok x := by
  unfold validate at h
  by_cases hlen : query.length < 12
  · rw [if_pos hlen] at h
    cases h
  · rw [if_neg hlen] at h
    obtain ⟨flags, -, hflags⟩ := @byteAt_ok query 2 (by omega)
    obtain ⟨count, hcount⟩ := readUInt16_ok (Nat.le_of_not_lt hlen)
    rw [hflags, hcount] at h
    simp only [Except.bind] at h
    split at h
    next => cases h
    next =>
      cases hq : question query with
      | error e => rw [hq] at h; cases h
      | ok x => exact ⟨by omega, x, rfl⟩

theorem slice_zero {packet : Packet} {count : Nat} (h : count ≤ packet.length) :
    slice packet 0 count = .ok (packet.take count) := by
  rw [slice, if_pos (by omega)]
  rfl

theorem failure_ok {query : Packet} {x : List Char × Nat} (h : question query = .ok x) :
    ∃ r, failure query = .ok r := by
  obtain ⟨hge, hle⟩ := question_stop h
  obtain ⟨flags, -, hflags⟩ := @byteAt_ok query 2 (by omega)
  have hslice := slice_zero hle
  have hlen : ¬(query.take x.2).length < 12 := by
    rw [List.length_take]
    omega
  unfold DnsMessage.failure
  rw [h]
  simp only [Except.bind, hslice, hflags]
  rw [if_neg hlen]
  exact ⟨_, rfl⟩

/-- The loop takes the first reply that answers, or makes up a failure. -/
theorem tryUpstreams_first {query forwarded : Packet} (hf : 12 ≤ forwarded.length)
    {a b : UInt8} (ha : query[0]? = some a) (hb : query[1]? = some b) : ∀ upstreams : List Upstream,
    (∃ before upstream after reply, upstreams = before ++ upstream :: after ∧
      Answers forwarded upstream reply ∧ (∀ v ∈ before, ∀ r, ¬Answers forwarded v r) ∧
      tryUpstreams query forwarded upstreams = .ok (stamp a b reply)) ∨
    ((∀ v ∈ upstreams, ∀ r, ¬Answers forwarded v r) ∧
      tryUpstreams query forwarded upstreams = failure query)
  | [] => .inr ⟨by simp, rfl⟩
  | upstream :: rest => by
    -- an upstream that does not answer is passed over
    have hpass : (∀ r, ¬Answers forwarded upstream r) →
        tryUpstreams query forwarded (upstream :: rest) = tryUpstreams query forwarded rest →
        (∃ before u after reply, upstream :: rest = before ++ u :: after ∧ Answers forwarded u reply ∧
          (∀ v ∈ before, ∀ r, ¬Answers forwarded v r) ∧
          tryUpstreams query forwarded (upstream :: rest) = .ok (stamp a b reply)) ∨
        ((∀ v ∈ upstream :: rest, ∀ r, ¬Answers forwarded v r) ∧
          tryUpstreams query forwarded (upstream :: rest) = failure query) := by
      intro hno heq
      rw [heq]
      rcases tryUpstreams_first hf ha hb rest with ⟨before, u, after, reply, he, hans, hbefore, hr⟩ | ⟨hnone, hr⟩
      · refine .inl ⟨upstream :: before, u, after, reply, by rw [he]; rfl, hans, ?_, hr⟩
        intro v hv
        rcases List.mem_cons.mp hv with rfl | hv
        · exact hno
        · exact hbefore v hv
      · refine .inr ⟨?_, hr⟩
        intro v hv
        rcases List.mem_cons.mp hv with rfl | hv
        · exact hno
        · exact hnone v hv
    cases hx : upstream forwarded with
    | reply response =>
      obtain ⟨t, ht⟩ := accepts_total hf response
      cases t with
      | true =>
        obtain ⟨hmatch, hcode⟩ := both_true.mp ht
        refine .inl ⟨[], upstream, rest, response, rfl, ⟨hx, hmatch, usable_iff.mp hcode⟩, by simp, ?_⟩
        simp only [tryUpstreams, hx, ht, byteAt_eq ha, byteAt_eq hb]
        rfl
      | false =>
        apply hpass
        · intro r hr
          have hsent := hr.sent
          rw [hx] at hsent
          cases hsent
          have htrue : accepts forwarded response = .ok true :=
            both_true.mpr ⟨hr.matched, usable_iff.mpr hr.code⟩
          rw [ht] at htrue
          cases htrue
        · simp only [tryUpstreams, hx, ht]
    | socketException =>
      exact hpass (fun r hr => by have := hr.sent; rw [hx] at this; cases this) (by simp only [tryUpstreams, hx])
    | ioException =>
      exact hpass (fun r hr => by have := hr.sent; rw [hx] at this; cases this) (by simp only [tryUpstreams, hx])
    | timeout =>
      exact hpass (fun r hr => by have := hr.sent; rw [hx] at this; cases this) (by simp only [tryUpstreams, hx])

/-- A reply under the client's identifier is a response to the client's query. -/
theorem responds_stamped {query reply : Packet} {a b a' b' : UInt8}
    (ha : query[0]? = some a) (hb : query[1]? = some b)
    (h : Responds (stamp a' b' query) reply) (hqu : Uncompressed query) (hru : Uncompressed reply) :
    Responds query (stamp a b reply) := by
  obtain ⟨ql, qe, hqs⟩ := hqu
  obtain ⟨rl, re, hrs⟩ := hru
  have hquery := (stamp_agree a' b' query).question hqs
  have hreply := (stamp_agree a b reply).question hrs
  obtain ⟨flag, hflag, hbit⟩ := h.flag
  obtain ⟨x, y, hx, hy, hop⟩ := h.opcode
  obtain ⟨u, v, hu, hv, huv⟩ := h.question
  obtain ⟨h0, h1⟩ := stamp_id a b h.length
  refine ⟨?_, ⟨?_, ?_⟩, ⟨flag, ?_, hbit⟩, ⟨x, y, ?_, ?_, hop⟩, u, v, ?_, ?_, huv⟩
  · rw [stamp_length]
    exact h.length
  · rw [h0, ha]
  · rw [h1, hb]
  · rw [stamp_rest a b reply (by decide), hflag]
  · rw [← stamp_rest a' b' query (by decide), hx]
  · rw [stamp_rest a b reply (by decide), hy]
  · rw [hquery, hu]
  · rw [← hreply, hv]

/-- An accepted query gets the first reply that answers, or a failure. -/
theorem resolve_cases (upstreams : List Upstream) (a' b' : UInt8) {query : Packet}
    (hv : validate query = .ok ()) :
    12 ≤ query.length ∧ (∃ x, question query = .ok x) ∧
    ∃ a b, query[0]? = some a ∧ query[1]? = some b ∧
      ((∃ before upstream after reply, upstreams = before ++ upstream :: after ∧
        Answers (stamp a' b' query) upstream reply ∧ (∀ v ∈ before, ∀ r, ¬Answers (stamp a' b' query) v r) ∧
        resolve upstreams a' b' query = .ok (stamp a b reply)) ∨
      ((∀ v ∈ upstreams, ∀ r, ¬Answers (stamp a' b' query) v r) ∧
        resolve upstreams a' b' query = failure query)) := by
  obtain ⟨hlen, hquestion⟩ := validate_ok hv
  obtain ⟨a, ha, -⟩ := @byteAt_ok query 0 (by omega)
  obtain ⟨b, hb, -⟩ := @byteAt_ok query 1 (by omega)
  have hf : 12 ≤ (stamp a' b' query).length := by rw [stamp_length]; exact hlen
  have hresolve : resolve upstreams a' b' query =
      tryUpstreams query (stamp a' b' query) upstreams := by
    rw [resolve, hv]
    rfl
  rw [hresolve]
  exact ⟨hlen, hquestion, a, b, ha, hb, tryUpstreams_first hf ha hb upstreams⟩

/-- What is forwarded is the query under the identifier `a', b'` and nothing else
changed. Forwarding picks the first good reply, gives it the client's identifier and
changes nothing else; without one it answers with a failure. -/
theorem resolve_first_answer (upstreams : List Upstream) (a' b' : UInt8) (query : Packet)
    (hv : validate query = .ok ()) :
    ∃ forwarded : Packet, forwarded.length = query.length ∧
      forwarded[0]? = some a' ∧ forwarded[1]? = some b' ∧
      (∀ i, 2 ≤ i → forwarded[i]? = query[i]?) ∧
      ((∃ before upstream after reply result, upstreams = before ++ upstream :: after ∧
        Answers forwarded upstream reply ∧
        (∀ v ∈ before, ∀ r, ¬Answers forwarded v r) ∧
        resolve upstreams a' b' query = .ok result ∧
        result.length = reply.length ∧ result[0]? = query[0]? ∧ result[1]? = query[1]? ∧
        (∀ i, 2 ≤ i → result[i]? = reply[i]?) ∧
        (Uncompressed query → Uncompressed reply → isResponseTo query result = .ok true)) ∨
      ((∀ v ∈ upstreams, ∀ r, ¬Answers forwarded v r) ∧
        ∃ result, resolve upstreams a' b' query = .ok result ∧ failure query = .ok result)) := by
  obtain ⟨hlen, ⟨x, hx⟩, a, b, ha, hb, hcases⟩ := resolve_cases upstreams a' b' hv
  obtain ⟨hid0, hid1⟩ := stamp_id a' b' hlen
  refine ⟨stamp a' b' query, stamp_length a' b' query, hid0, hid1,
    fun i hi => stamp_rest a' b' query hi, ?_⟩
  rcases hcases with ⟨before, upstream, after, reply, he, hans, hbefore, hr⟩ | ⟨hnone, hr⟩
  · have hf : 12 ≤ (stamp a' b' query).length := by rw [stamp_length]; exact hlen
    have hresp := (isResponseTo_iff hf).mp hans.matched
    obtain ⟨h0, h1⟩ := stamp_id a b hresp.length
    refine .inl ⟨before, upstream, after, reply, stamp a b reply, he, hans, hbefore, hr,
      stamp_length a b reply, by rw [h0, ha], by rw [h1, hb], fun i hi => stamp_rest a b reply hi, ?_⟩
    intro hqu hru
    exact (isResponseTo_iff hlen).mpr (responds_stamped ha hb hresp hqu hru)
  · obtain ⟨r, hfail⟩ := failure_ok hx
    exact .inr ⟨hnone, r, hr.trans hfail, hfail⟩

/-- A query for `www` over two upstreams, the first of which answers for another
name. -/
def wwwQuery : Packet :=
  [0, 7, 1, 0, 0, 1, 0, 0, 0, 0, 0, 0, 3, 0x77, 0x77, 0x77, 0, 0, 1, 0, 1]

def wrongUpstream : Upstream := fun packet => .reply ((packet.set 2 0x81).set 13 0x78)

def rightUpstream : Upstream := fun packet => .reply (packet.set 2 0x81)

theorem resolve_first_answer_www : ∃ result,
    resolve [wrongUpstream, rightUpstream] 5 6 wwwQuery = .ok result ∧
      result.length = 21 ∧ result[0]? = some 0 ∧ result[1]? = some 7 := by
  obtain ⟨forwarded, hl, hid0, hid1, hrest, hcases⟩ :=
    resolve_first_answer [wrongUpstream, rightUpstream] 5 6 wwwQuery (by decide +kernel)
  have hforwarded : forwarded = stamp 5 6 wwwQuery := by
    apply List.ext_getElem?
    intro i
    match i with
    | 0 => exact hid0
    | 1 => exact hid1
    | i + 2 => exact (hrest (i + 2) (by omega)).trans (stamp_rest 5 6 wwwQuery (by omega)).symm
  subst hforwarded
  have hanswer : Answers (stamp 5 6 wwwQuery) rightUpstream ((stamp 5 6 wwwQuery).set 2 0x81) := by
    refine ⟨rfl, ?_, 0, rfl, by decide, by decide⟩
    decide +kernel
  rcases hcases with ⟨before, u, after, reply, result, he, hans, -, hr, hlen, h0, h1, -⟩ | ⟨hnone, -⟩
  · have hu : u = wrongUpstream ∨ u = rightUpstream := by
      have hm : u ∈ [wrongUpstream, rightUpstream] := by rw [he]; simp
      simpa using hm
    have hreply : reply.length = 21 := by
      have hs := hans.sent
      rcases hu with rfl | rfl <;> cases hs <;> rfl
    exact ⟨result, hr, hlen.trans hreply, h0, h1⟩
  · exact absurd hanswer (hnone rightUpstream (by simp) _)

end DnsForwarderService
end EasyTierHost
