import EasyTierHost.Core.EnvParser

/- The configuration text between Host and Core. The Host writes the name and the
   secret of the network as TOML strings, and the rest of the text is made of
   characters that neither language treats specially; Core substitutes
   environment variables in the text before it reads it. So whether Core reads
   what the Host wrote is decided by the name and the secret alone, and this is
   worked out here. -/
namespace EasyTierHost
open Text EasyTierConfigBuilder

/-! ## Characters without a meaning of their own -/

/-- A character that stands for itself in a TOML string and in the expansion. -/
def tame (c : Char) : Bool := Toml.literal c && c != '$' && c != '}'

/-- The codes from the blank on that are not tame. -/
def special : List Nat := [0x22, 0x24, 0x5c, 0x7d, 0x7f]

/-- A range of characters without a special one. -/
theorem tame_of_range {a b c : Char} (ha : a ≤ c) (hb : c ≤ b) (h : 0x20 ≤ a.toNat)
    (hs : ∀ n ∈ special, n < a.toNat ∨ b.toNat < n) : tame c = true := by
  have hac : a.toNat ≤ c.toNat := ha
  have hcb : c.toNat ≤ b.toNat := hb
  have hnot : ∀ n ∈ special, c.toNat ≠ n := by
    intro n hn hc
    have := hs n hn
    omega
  have hne : ∀ d : Char, d.toNat ∈ special → c ≠ d := by
    intro d hd he
    subst he
    exact hnot _ hd rfl
  have hlow : 0x20 ≤ c.toNat := by omega
  simp [tame, Toml.literal, hlow, hnot 0x7f (by decide), hne '"' (by decide),
    hne '\\' (by decide), hne '$' (by decide), hne '}' (by decide)]

theorem tame_of_deviceChar {c : Char} (h : NetworkProfileValidator.deviceChar c = true) :
    tame c = true := by
  have halpha : c.isAlpha = (decide (c.val ≥ 'A'.val ∧ c.val ≤ 'Z'.val) ||
      (decide (c.val ≥ 'a'.val) && decide (c.val ≤ 'z'.val))) := rfl
  simp only [NetworkProfileValidator.deviceChar, Char.isAlphanum, halpha, Char.isDigit,
    Bool.or_eq_true, Bool.and_eq_true, decide_eq_true_eq, beq_iff_eq] at h
  rcases h with (((h | h) | h) | rfl) | rfl
  · exact tame_of_range h.1 h.2 (by decide) (by decide)
  · exact tame_of_range h.1 h.2 (by decide) (by decide)
  · exact tame_of_range h.1 h.2 (by decide) (by decide)
  · decide
  · decide

theorem tame_of_isDigit {c : Char} (h : c.isDigit = true) : tame c = true := by
  apply tame_of_deviceChar
  simp [NetworkProfileValidator.deviceChar, Char.isAlphanum, h]

theorem tame_hexChar : ∀ d < 16, tame (hexChar false d) = true := by decide

/-- A text of tame characters. -/
def Tame (s : String) : Prop := ∀ c ∈ s.toList, tame c = true

instance (s : String) : Decidable (Tame s) := List.decidableBAll _ s.toList

theorem Tame.append {s t : String} (hs : Tame s) (ht : Tame t) : Tame (s ++ t) := by
  intro c hc
  rw [String.toList_append, List.mem_append] at hc
  exact hc.elim (hs c) (ht c)

theorem tame_int {n : Int} (h : 0 ≤ n) : Tame (toString n) := by
  obtain ⟨m, rfl⟩ := Int.eq_ofNat_of_zero_le h
  intro c hc
  have hm : c ∈ (Nat.repr m).toList := hc
  rw [Nat.toList_repr] at hm
  exact tame_of_isDigit (Nat.isDigit_of_mem_toDigits (by decide) (by decide) hm)

theorem tame_guid_digits (g : Guid) (first count : Nat) : Tame (g.digits first count) := by
  intro c hc
  rw [Guid.digits, String.toList_ofList, List.mem_map] at hc
  obtain ⟨i, -, rfl⟩ := hc
  exact tame_hexChar _ (Nat.mod_lt _ (by decide))

theorem tame_guid (g : Guid) : Tame g.text := by
  have hdash : Tame "-" := by decide
  have hd := fun first count => tame_guid_digits g first count
  exact ((((((((hd 0 8).append hdash).append (hd 8 4)).append hdash).append
    (hd 12 4)).append hdash).append (hd 16 4)).append hdash).append (hd 20 12)

/-! ## The seed address -/

theorem tame_of_digit {base : Nat} {c : Char} {d : Nat} (h : IPAddress.digit base c = some d) :
    tame c = true := by
  simp only [IPAddress.digit] at h
  split at h
  next hc => exact tame_of_range hc.1 hc.2 (by decide) (by decide)
  split at h
  next hc => exact tame_of_range hc.1 hc.2 (by decide) (by decide)
  split at h
  next hc => exact tame_of_range hc.1 hc.2 (by decide) (by decide)
  rw [if_neg (Nat.lt_irrefl base)] at h
  cases h

theorem tame_of_digits {base : Nat} : ∀ {cs : List Char} {acc n : Nat},
    IPAddress.digits base acc cs = some n → ∀ c ∈ cs, tame c = true
  | [], _, _, _ => by simp
  | c :: cs, acc, n, h => by
    obtain ⟨d, hd, hr⟩ := Option.bind_eq_some_iff.mp h
    intro c' hc'
    rcases List.mem_cons.mp hc' with rfl | hc'
    · exact tame_of_digit hd
    · exact tame_of_digits hr c' hc'

theorem tame_of_part {cs : List Char} {n : Nat} (h : IPAddress.part cs = some n) :
    ∀ c ∈ cs, tame c = true := by
  unfold IPAddress.part at h
  split at h
  · cases h
  · cases h
  · cases h
  · intro c hc
    simp only [List.mem_cons] at hc
    rcases hc with rfl | rfl | hc
    · decide
    · decide
    · exact tame_of_digits h c hc
  · intro c hc
    simp only [List.mem_cons] at hc
    rcases hc with rfl | rfl | hc
    · decide
    · decide
    · exact tame_of_digits h c hc
  · intro c hc
    rcases List.mem_cons.mp hc with rfl | hc
    · decide
    · exact tame_of_digits h c hc
  · exact tame_of_digits h

theorem mem_splitAtChar {sep c : Char} (hc : c ≠ sep) : ∀ {cs : List Char}, c ∈ cs →
    ∃ l ∈ IPAddress.splitAtChar sep cs, c ∈ l
  | [], h => by simp at h
  | c' :: cs, h => by
    simp only [IPAddress.splitAtChar]
    split
    next hs =>
      rcases List.mem_cons.mp h with rfl | h
      · exact absurd hs hc
      · obtain ⟨l, hl, hcl⟩ := mem_splitAtChar hc h
        exact ⟨l, by simp [hl], hcl⟩
    next hs =>
      split
      next he =>
        rcases List.mem_cons.mp h with rfl | h
        · exact ⟨[c], by simp, by simp⟩
        · obtain ⟨l, hl, hcl⟩ := mem_splitAtChar hc h
          simp [he] at hl
      next l ls he =>
        rcases List.mem_cons.mp h with rfl | h
        · exact ⟨c :: l, by simp, by simp⟩
        · obtain ⟨k, hk, hck⟩ := mem_splitAtChar hc h
          rw [he, List.mem_cons] at hk
          rcases hk with rfl | hk
          · exact ⟨c' :: k, by simp, by simp [hck]⟩
          · exact ⟨k, by simp [hk], hck⟩

theorem part_of_mapM : ∀ {ls : List (List Char)} {ns : List Nat},
    ls.mapM IPAddress.part = some ns → ∀ l ∈ ls, ∃ n, IPAddress.part l = some n
  | [], _, _ => by simp
  | k :: ls, ns, h => by
    rw [List.mapM_cons] at h
    obtain ⟨n, hn, hr⟩ := Option.bind_eq_some_iff.mp h
    obtain ⟨ms, hms, -⟩ := Option.bind_eq_some_iff.mp hr
    intro l hl
    rcases List.mem_cons.mp hl with rfl | hl
    · exact ⟨n, hn⟩
    · exact part_of_mapM hms l hl

theorem tame_of_parseV4 {cs : List Char} {ip : IPAddress} (h : IPAddress.parseV4 cs = some ip) :
    ∀ c ∈ cs, tame c = true := by
  have hparts : ∃ ns, (IPAddress.splitAtChar '.' cs).mapM IPAddress.part = some ns := by
    cases hm : (IPAddress.splitAtChar '.' cs).mapM IPAddress.part with
    | none => simp [IPAddress.parseV4, hm] at h
    | some ns => exact ⟨ns, rfl⟩
  obtain ⟨ns, hns⟩ := hparts
  intro c hc
  by_cases hdot : c = '.'
  · rw [hdot]
    decide
  · obtain ⟨l, hl, hcl⟩ := mem_splitAtChar hdot hc
    obtain ⟨n, hn⟩ := part_of_mapM hns l hl
    exact tame_of_part hn c hcl

theorem tame_of_physicalIpv4 {text : String}
    (h : NetworkProfileValidator.physicalIpv4 text = true) : Tame text := by
  unfold NetworkProfileValidator.physicalIpv4 at h
  split at h
  next ip hp =>
    unfold IPAddress.tryParse at hp
    split at hp
    next =>
      split at hp
      next => cases hp; cases h
      next => cases hp
    next => exact tame_of_parseV4 hp
  next => cases h

/-! ## Quoted text -/

theorem unicode_hex4 : ∀ n < 128, Toml.unicode (hexChar true (n / 4096 % 16))
    (hexChar true (n / 256 % 16)) (hexChar true (n / 16 % 16)) (hexChar true (n % 16)) =
      some (Char.ofNat n) := by decide +kernel

/-- An escaped character is read as the character. -/
theorem readString_escape (c : Char) (rest : List Char) :
    Toml.readString (escape c ++ rest) =
      (Toml.readString rest).map (fun s => (c :: s.1, s.2)) := by
  unfold escape
  split
  next h => simp [h, Toml.readString, Toml.unescape]
  split
  next h => simp [h, Toml.readString, Toml.unescape]
  split
  next h => simp [h, Toml.readString, Toml.unescape]
  split
  next h => simp [h, Toml.readString, Toml.unescape]
  split
  next h => simp [h, Toml.readString, Toml.unescape]
  split
  next h =>
    have hu := unicode_hex4 c.toNat (by omega)
    rw [Char.ofNat_toNat] at hu
    simp only [hex4, List.cons_append, List.nil_append, Toml.readString, hu, Option.bind_some]
  next hq hb hn hr ht hc =>
    have hl : Toml.literal c = true := by
      have h20 : 0x20 ≤ c.toNat := by omega
      have h7f : c.toNat ≠ 0x7f := by omega
      simp [Toml.literal, h20, h7f, hq, hb]
    rw [List.singleton_append, Toml.readString.eq_def]
    simp [hb, hl]

theorem readString_quoted (cs rest : List Char) :
    Toml.readString (cs.flatMap escape ++ '"' :: rest) = some (cs, rest) := by
  induction cs with
  | nil => simp [Toml.readString]
  | cons c cs ih => rw [List.flatMap_cons, List.append_assoc, readString_escape, ih]; rfl

theorem readValue_quote (text : String) :
    Toml.readValue (quote text).toList = some (.string text.toList) := by
  rw [quote, String.toList_ofList]
  exact Toml.readValue_string (readString_quoted text.toList [])

/-- The characters `Quote` puts in of its own accord. -/
def escaping : List Char := "\\\"nrtu0123456789ABCDEF".toList

theorem hexChar_mem_escaping : ∀ d < 16, hexChar true d ∈ escaping := by decide

/-- Any other character of a quoted text was there before. -/
theorem mem_escape {c d : Char} (hd : d ∉ escaping) (h : d ∈ escape c) : c = d := by
  have hpair : ∀ {a b : Char}, a ∈ escaping → b ∈ escaping → d ∉ [a, b] := by
    intro a b ha hb hm
    simp only [List.mem_cons, List.not_mem_nil, or_false] at hm
    rcases hm with rfl | rfl
    · exact hd ha
    · exact hd hb
  unfold escape at h
  split at h
  next => exact absurd h (hpair (by decide) (by decide))
  split at h
  next => exact absurd h (hpair (by decide) (by decide))
  split at h
  next => exact absurd h (hpair (by decide) (by decide))
  split at h
  next => exact absurd h (hpair (by decide) (by decide))
  split at h
  next => exact absurd h (hpair (by decide) (by decide))
  split at h
  next =>
    have hx : ∀ n, d ≠ hexChar true (n % 16) := by
      intro n he
      subst he
      exact hd (hexChar_mem_escaping _ (Nat.mod_lt _ (by decide)))
    have hb : d ≠ '\\' ∧ d ≠ 'u' := by
      constructor <;> rintro rfl <;> exact hd (by decide)
    simp [hex4, hx, hb] at h
  next => exact (List.mem_singleton.mp h).symm

theorem mem_quote {text : String} {d : Char} (hd : d ∉ escaping) (h : d ∈ (quote text).toList) :
    ∃ c ∈ text.toList, c = d ∧ d ∈ escape c := by
  have hq : d ≠ '"' := by
    intro he
    subst he
    exact hd (by decide)
  rw [quote, String.toList_ofList] at h
  simp only [List.mem_cons, List.mem_append, List.mem_flatMap, List.not_mem_nil, or_false, hq,
    false_or] at h
  obtain ⟨c, hc, hm⟩ := h
  exact ⟨c, hc, mem_escape hd hm, hm⟩

/-- A quoted text stands on one line. -/
theorem newline_not_mem_quote (text : String) : '\n' ∉ (quote text).toList := by
  intro h
  obtain ⟨c, -, rfl, hm⟩ := mem_quote (by decide) h
  exact absurd hm (by decide)

/-! ## Lines -/

/-- A line that has nothing to substitute and that the reader takes. -/
structure Quiet (accept : Toml.Item → Bool) (line : String) : Prop where
  noDollar : '$' ∉ line.toList
  noBrace : '}' ∉ line.toList
  noNewline : '\n' ∉ line.toList
  read : (Toml.readLine line.toList).any accept = true

instance (accept : Toml.Item → Bool) (line : String) : Decidable (Quiet accept line) :=
  decidable_of_iff ('$' ∉ line.toList ∧ '}' ∉ line.toList ∧ '\n' ∉ line.toList ∧
      (Toml.readLine line.toList).any accept = true)
    ⟨fun ⟨a, b, c, d⟩ => ⟨a, b, c, d⟩, fun ⟨a, b, c, d⟩ => ⟨a, b, c, d⟩⟩

/-- A key that needs no quotes. -/
def BareKey (key : String) : Prop := key.toList ≠ [] ∧ ∀ c ∈ key.toList, Toml.bare c = true

instance (key : String) : Decidable (BareKey key) := @instDecidableAnd _ _ _ (List.decidableBAll _ _)

theorem not_mem_of_tame {cs : List Char} (h : ∀ c ∈ cs, tame c = true) {d : Char}
    (hd : tame d = false) : d ∉ cs := by
  intro hm
  rw [h d hm] at hd
  cases hd

/-- A character that is none of those a pair is written with. -/
theorem not_mem_pair {key : String} (hk : BareKey key) {v : List Char} {d : Char}
    (hd : tame d = false) (hs : d ≠ ' ' ∧ d ≠ '=') (hv : d ∉ v) :
    d ∉ key.toList ++ ' ' :: '=' :: ' ' :: v := by
  have hkey : d ∉ key.toList := not_mem_of_tame (fun c hc => tame_of_deviceChar (hk.2 c hc)) hd
  simp [hkey, hs, hv]

theorem quiet_pair {accept : Toml.Item → Bool} (ha : ∀ k v, accept (.pair k v) = true)
    {line : String} (key : String) {v : List Char} (hk : BareKey key)
    (hline : line.toList = key.toList ++ ' ' :: '=' :: ' ' :: v)
    (hv : '$' ∉ v ∧ '}' ∉ v ∧ '\n' ∉ v) {value : Toml.Value} (hr : Toml.readValue v = some value) :
    Quiet accept line := by
  obtain ⟨hd, hb, hn⟩ := hv
  refine ⟨?_, ?_, ?_, ?_⟩
  · exact hline ▸ not_mem_pair hk (by decide) (by decide) hd
  · exact hline ▸ not_mem_pair hk (by decide) (by decide) hb
  · exact hline ▸ not_mem_pair hk (by decide) (by decide) hn
  · rw [hline, Toml.readLine_pair hk.1 hk.2, hr]
    exact ha _ _

theorem Tame.literal {s : String} (h : Tame s) : ∀ c ∈ s.toList, Toml.literal c = true := by
  intro c hc
  have := h c hc
  simp only [tame, Bool.and_eq_true] at this
  exact this.1.1

/-- A pair whose string has only tame characters. -/
theorem quiet_string {accept : Toml.Item → Bool} (ha : ∀ k v, accept (.pair k v) = true)
    {line : String} (key content : String) (hk : BareKey key)
    (hline : line.toList = key.toList ++ ' ' :: '=' :: ' ' :: '"' :: (content.toList ++ ['"']))
    (hc : Tame content) : Quiet accept line := by
  have hnot : ∀ d, tame d = false → d ≠ '"' → d ∉ '"' :: (content.toList ++ ['"']) := by
    intro d hd hq
    simp [hq, not_mem_of_tame hc hd]
  have hr := Toml.readValue_string (Toml.readString_literal hc.literal [])
  exact quiet_pair ha key hk hline ⟨hnot _ (by decide) (by decide), hnot _ (by decide) (by decide),
    hnot _ (by decide) (by decide)⟩ hr

/-- A pair of an array of two strings with only tame characters. -/
theorem quiet_array {accept : Toml.Item → Bool} (ha : ∀ k v, accept (.pair k v) = true)
    {line : String} (key a b : String) (hk : BareKey key)
    (hline : line.toList = key.toList ++ ' ' :: '=' :: ' ' :: '[' :: '"' ::
      (a.toList ++ '"' :: ',' :: ' ' :: '"' :: (b.toList ++ ['"', ']'])))
    (h₁ : Tame a) (h₂ : Tame b) : Quiet accept line := by
  have hnot : ∀ d, tame d = false → d ∉ ['[', '"', ',', ' ', ']'] →
      d ∉ '[' :: '"' :: (a.toList ++ '"' :: ',' :: ' ' :: '"' :: (b.toList ++ ['"', ']'])) := by
    intro d hd hq
    simp only [List.mem_cons, List.not_mem_nil, or_false, not_or] at hq
    simp [hq, not_mem_of_tame h₁ hd, not_mem_of_tame h₂ hd]
  exact quiet_pair ha key hk hline ⟨hnot _ (by decide) (by decide), hnot _ (by decide) (by decide),
    hnot _ (by decide) (by decide)⟩ (Toml.readValue_two h₁.literal h₂.literal)

theorem within_pair (k : List Char) (v : Toml.Value) : (Toml.Item.pair k v).within = true := rfl

theorem quiet_flag {accept : Toml.Item → Bool} {key : String} (b : Bool)
    (h : Quiet accept (key ++ "true") ∧ Quiet accept (key ++ "false")) :
    Quiet accept (key ++ flag b) := by
  cases b
  · exact h.2
  · exact h.1

/-- The lines in front of the identity are pairs of the root table. -/
theorem quiet_headLines {p : NetworkProfile} (hp : NetworkProfileValidator.Valid p)
    (instanceId : Option Guid) : ∀ l ∈ headLines p instanceId, Quiet Toml.Item.within l := by
  have hport : Tame (toString p.port) := tame_int (by have := hp.port; omega)
  have hlisteners : Quiet Toml.Item.within ("listeners = [\"tcp://0.0.0.0:" ++ toString p.port ++
      "\", \"udp://0.0.0.0:" ++ toString p.port ++ "\"]") :=
    quiet_array within_pair "listeners" ("tcp://0.0.0.0:" ++ toString p.port)
      ("udp://0.0.0.0:" ++ toString p.port) (by decide) (by simp)
      (.append (by decide) hport) (.append (by decide) hport)
  have hid : ∀ id : Guid, Quiet Toml.Item.within ("instance_id = \"" ++ id.text ++ "\"") :=
    fun id => quiet_string within_pair "instance_id" id.text (by decide) (by simp) (tame_guid id)
  have hipv4 : ∀ host : String, Tame host →
      Quiet Toml.Item.within ("ipv4 = \"10.10.0." ++ host ++ "/16\"") := by
    intro host hh
    exact quiet_string within_pair "ipv4" ("10.10.0." ++ host ++ "/16") (by decide) (by simp)
      (.append (.append (by decide) hh) (by decide))
  intro l hl
  simp only [headLines, List.mem_append] at hl
  rcases hl with ((hl | hl) | hl) | hl
  · simp only [List.mem_cons, List.not_mem_nil, or_false] at hl
    rcases hl with rfl | rfl | rfl
    · decide +kernel
    · exact quiet_flag _ (by decide +kernel)
    · exact hlisteners
  · cases instanceId with
    | none => cases hl
    | some id => exact List.mem_singleton.mp hl ▸ hid id
  · split at hl
    next hrole =>
      rw [List.mem_singleton.mp hl]
      apply hipv4
      split
      next => decide
      next hg =>
        obtain ⟨i, hi, hlo, -⟩ := hp.dedicated (hrole.resolve_left hg)
        rw [hi]
        exact tame_int (by omega)
    next => cases hl
  · split at hl
    next => exact List.mem_singleton.mp hl ▸ by decide +kernel
    next => cases hl

theorem mem_deviceName {name : String} (h : NetworkProfileValidator.devicePattern name = true)
    {c : Char} (hc : c ∈ name.toList) : tame c = true ∨ c = '\n' := by
  simp only [NetworkProfileValidator.devicePattern, Bool.and_eq_true, List.all_eq_true] at h
  have hall := h.2
  split at hall
  next hlast =>
    -- every character but a final line feed is one of the pattern
    obtain ⟨ds, hds⟩ := List.getLast?_eq_some_iff.mp hlast
    rw [hds, List.dropLast_concat] at hall
    rw [hds, List.mem_append, List.mem_singleton] at hc
    exact hc.imp (fun hm => tame_of_deviceChar (hall c hm)) id
  next => exact .inl (tame_of_deviceChar (hall c hc))

/-- The lines behind the identity are read too. -/
theorem quiet_tailLines {p : NetworkProfile} (hp : NetworkProfileValidator.Valid p) :
    ∀ l ∈ tailLines p, Quiet (fun _ => true) l := by
  have hport : Tame (toString p.port) := tame_int (by have := hp.port; omega)
  have huri : p.role ≠ .seed → Quiet (fun _ => true)
      ("uri = \"tcp://" ++ p.seedPhysicalIp.getD "" ++ ":" ++ toString p.port ++ "\"") := by
    intro hrole
    obtain ⟨text, ht, hv⟩ := hp.seed hrole
    rw [ht, Option.getD_some]
    exact quiet_string (fun _ _ => rfl) "uri" ("tcp://" ++ text ++ ":" ++ toString p.port)
      (by decide) (by simp)
      (.append (.append (.append (by decide) (tame_of_physicalIpv4 hv)) (by decide)) hport)
  have hdevice : Quiet (fun _ => true) ("dev_name = " ++ quote p.deviceName) := by
    have hnot : ∀ d, d ∉ escaping → tame d = false → d ≠ '\n' → d ∉ (quote p.deviceName).toList := by
      intro d he hd hn hm
      obtain ⟨c, hc, rfl, -⟩ := mem_quote he hm
      cases mem_deviceName hp.device hc with
      | inl ht =>
        rw [ht] at hd
        cases hd
      | inr ht =>
        exact hn ht
    exact quiet_pair (fun _ _ => rfl) "dev_name" (by decide) (by simp)
      ⟨hnot _ (by decide) (by decide) (by decide), hnot _ (by decide) (by decide) (by decide),
        newline_not_mem_quote _⟩ (readValue_quote _)
  intro l hl
  simp only [tailLines, List.mem_append] at hl
  rcases hl with (hl | hl) | hl
  · split at hl
    next hrole =>
      simp only [List.mem_cons, List.not_mem_nil, or_false] at hl
      rcases hl with rfl | rfl | rfl
      · decide
      · decide
      · exact huri hrole
    next => cases hl
  · split at hl
    next =>
      have hall : ∀ l ∈ ["", "[dhcp_range]", "network = \"10.10.0.0/16\"", "start = \"10.10.0.11\"",
          "end = \"10.10.255.254\""], Quiet (fun _ => true) l := by decide +kernel
      exact hall l hl
    next => cases hl
  · simp only [List.mem_cons, List.not_mem_nil, or_false] at hl
    rcases hl with rfl | rfl | rfl | rfl | rfl | rfl
    · decide
    · decide
    · exact hdevice
    · exact quiet_flag _ (by decide +kernel)
    · exact quiet_flag _ (by decide +kernel)
    · decide +kernel

/-! ## The text -/

/-- Lines, each with its line feed. -/
def terminated (ls : List String) : List Char := ls.flatMap (fun l => l.toList ++ ['\n'])

theorem toList_joined : ∀ ls : List String, ls ≠ [] →
    ("\n".intercalate ls ++ "\n").toList = terminated ls
  | [], h => absurd rfl h
  | [l], _ => by simp [terminated]
  | l :: k :: ls, _ => by
    have ih := toList_joined (k :: ls) (by simp)
    rw [String.intercalate_cons_cons, String.append_assoc, String.append_assoc,
      String.toList_append, String.toList_append, ih]
    simp [terminated]

/-- The text from the network's name to its secret, both included. -/
def identityText (networkName secret : String) : List Char :=
  networkName.toList.flatMap escape ++ "\"\nnetwork_secret = \"".toList ++
    secret.toList.flatMap escape

/-- What stands around the identity. -/
def before (p : NetworkProfile) (instanceId : Option Guid) : List Char :=
  terminated (headLines p instanceId ++ ["", "[network_identity]"]) ++ "network_name = \"".toList

def after (p : NetworkProfile) : List Char := '"' :: '\n' :: terminated (tailLines p)

theorem toList_lines (p : NetworkProfile) (secret : String) (instanceId : Option Guid) :
    terminated (lines p secret instanceId) =
      before p instanceId ++ (identityText p.networkName secret ++ after p) := by
  simp [terminated, lines, before, after, identityText, quote]

theorem not_mem_terminated {ls : List String} {d : Char} (hd : d ≠ '\n')
    (h : ∀ l ∈ ls, d ∉ l.toList) : d ∉ terminated ls := by
  simp only [terminated, List.mem_flatMap, List.mem_append, List.mem_singleton, not_exists, not_and,
    not_or]
  exact fun l hl => ⟨h l hl, hd⟩

theorem dollar_not_mem_before {p : NetworkProfile} (hp : NetworkProfileValidator.Valid p)
    (instanceId : Option Guid) : '$' ∉ before p instanceId := by
  have hfixed : ∀ l ∈ ["", "[network_identity]"], '$' ∉ l.toList := by decide
  rw [before, List.mem_append, not_or]
  refine ⟨not_mem_terminated (by decide) ?_, by decide⟩
  intro l hl
  cases List.mem_append.mp hl with
  | inl hl =>
    exact (quiet_headLines hp instanceId l hl).noDollar
  | inr hl =>
    exact hfixed l hl

theorem ending_after {p : NetworkProfile} (hp : NetworkProfileValidator.Valid p) (x : Expander) :
    Ending x.nameChar (after p) := by
  have hq : x.nameChar '"' = false := by
    rw [x.nameChar_ascii '"' (by decide)]
    decide
  refine ⟨⟨'"', _, rfl, hq, by decide⟩, ?_, ?_⟩
  · simp only [after, List.mem_cons, not_or]
    exact ⟨by decide, by decide,
      not_mem_terminated (by decide) (fun l hl => (quiet_tailLines hp l hl).noDollar)⟩
  · simp only [after, List.mem_cons, not_or]
    exact ⟨by decide, by decide,
      not_mem_terminated (by decide) (fun l hl => (quiet_tailLines hp l hl).noBrace)⟩

/-! ## Reading the text -/

theorem readLine_quote (key text : String) (hk : BareKey key) {line : String}
    (hline : line.toList = key.toList ++ ' ' :: '=' :: ' ' :: (quote text).toList) :
    Toml.readLine line.toList = some (.pair key.toList (.string text.toList)) := by
  rw [hline, Toml.readLine_pair hk.1 hk.2, readValue_quote]
  rfl

theorem newline_not_mem_lines {p : NetworkProfile} (hp : NetworkProfileValidator.Valid p)
    (secret : String) (instanceId : Option Guid) :
    ∀ l ∈ lines p secret instanceId, '\n' ∉ l.toList := by
  intro l hl
  simp only [lines, List.mem_append, List.mem_cons, List.not_mem_nil, or_false] at hl
  rcases hl with (hl | rfl | rfl | rfl | rfl) | hl
  · exact (quiet_headLines hp instanceId l hl).noNewline
  · decide
  · decide
  · simp [newline_not_mem_quote]
  · simp [newline_not_mem_quote]
  · exact (quiet_tailLines hp l hl).noNewline

theorem parse_terminated {p : NetworkProfile} (hp : NetworkProfileValidator.Valid p)
    (secret : String) (instanceId : Option Guid) :
    Toml.parse (terminated (lines p secret instanceId)) =
      (((lines p secret instanceId).map String.toList).mapM Toml.readLine).map (· ++ [.blank]) := by
  have hlines : terminated (lines p secret instanceId) =
      ((lines p secret instanceId).map String.toList).flatMap (· ++ ['\n']) := by
    simp [terminated, List.flatMap_map]
  have hn : ∀ l ∈ (lines p secret instanceId).map String.toList, '\n' ∉ l := by
    intro l hl
    obtain ⟨s, hs, rfl⟩ := List.mem_map.mp hl
    exact newline_not_mem_lines hp secret instanceId s hs
  rw [hlines, Toml.parse_lines hn]

/-- The identity section, as read. -/
def identityItems (networkName secret : String) : List Toml.Item :=
  [.blank, .table "network_identity".toList,
    .pair "network_name".toList (.string networkName.toList),
    .pair "network_secret".toList (.string secret.toList)]

theorem parse_lines_eq {p : NetworkProfile} (hp : NetworkProfileValidator.Valid p)
    (secret : String) (instanceId : Option Guid) :
    ∃ head tail, (∀ i ∈ head, Toml.Item.within i = true) ∧
      Toml.parse (terminated (lines p secret instanceId)) =
        some (head ++ (identityItems p.networkName secret ++ tail)) := by
  have hread : ∀ {accept : Toml.Item → Bool} {ls : List String}, (∀ l ∈ ls, Quiet accept l) →
      ∀ l ∈ ls.map String.toList, (Toml.readLine l).any accept = true := by
    intro accept ls h l hl
    obtain ⟨s, hs, rfl⟩ := List.mem_map.mp hl
    exact (h s hs).read
  obtain ⟨head, hh, hwithin⟩ := Toml.mapM_readLine (hread (quiet_headLines hp instanceId))
  obtain ⟨tail, ht, -⟩ := Toml.mapM_readLine (hread (quiet_tailLines hp))
  have hname : Toml.readLine ("network_name = " ++ quote p.networkName).toList =
      some (.pair "network_name".toList (.string p.networkName.toList)) :=
    readLine_quote "network_name" p.networkName (by decide) (by simp)
  have hsecret : Toml.readLine ("network_secret = " ++ quote secret).toList =
      some (.pair "network_secret".toList (.string secret.toList)) :=
    readLine_quote "network_secret" secret (by decide) (by simp)
  have hblank : Toml.readLine "".toList = some .blank := rfl
  have htable : Toml.readLine "[network_identity]".toList =
      some (.table "network_identity".toList) := by decide
  refine ⟨head, tail ++ [.blank], hwithin, ?_⟩
  rw [parse_terminated hp]
  simp only [lines, List.map_append, List.map_cons, List.map_nil, List.mapM_append, List.mapM_cons,
    List.mapM_nil, hh, ht, hname, hsecret, hblank, htable]
  simp [identityItems]

theorem identityOf_items {head : List Toml.Item} (h : ∀ i ∈ head, Toml.Item.within i = true)
    (networkName secret : String) (tail : List Toml.Item) :
    identityOf (head ++ (identityItems networkName secret ++ tail)) =
      some ⟨networkName, some secret⟩ := by
  have htable : "network_identity".toList ≠ [] := by decide
  have hskip := Toml.get_skip h htable (identityItems networkName secret ++ tail)
  have hname : Toml.get (identityItems networkName secret ++ tail) "network_identity".toList
      "network_name".toList = some (.string networkName.toList) := Toml.get_first
  have hsecret : Toml.get (identityItems networkName secret ++ tail) "network_identity".toList
      "network_secret".toList = some (.string secret.toList) := Toml.get_second (by decide)
  simp only [identityOf, stringAt, hskip, hname, hsecret, Option.map_some, String.ofList_toList]

end EasyTierHost
