import EasyTierHost.Peers.SecureDatagram
import Mathlib.Data.Fintype.Defs

/- Nonces when any number of packets are encrypted at once (peers/secure_datagram.rs). The
   reads and writes of `maybe_rotate_epoch` and `next_nonce` are atomic one by one, and the
   calls of different threads come in any order between them. No nonce is used twice under
   one key, as long as the counters do not wrap, and a sync that keeps the root key comes
   between calls and starts above the epochs used. -/
namespace EasyTierHost.Peers
open Bits Effects

/-- How far a call has come. -/
inductive Progress where
  | entered
  | counted (packets : Nat)
  | due
  | rotating (cur : Nat)
  | rotated
  | restarted
  | checked
  | at_epoch (epoch : Nat)
  | drawn (epoch seq : Nat)
deriving DecidableEq

namespace Progress

/-- The epoch a call has read for its nonce. -/
def epoch? : Progress → Option Nat
  | at_epoch epoch => some epoch
  | drawn epoch _ => some epoch
  | _ => none

end Progress

structure NonceCall where
  dir : SecureDatagramDirection
  now_ms : Nat
  progress : Progress
deriving DecidableEq

/-- A nonce, and the key it is used under. -/
structure UsedNonce where
  root_key : List Byte
  epoch : Nat
  dir : SecureDatagramDirection
  seq : Nat
deriving DecidableEq

/-- The session, the calls under way, and the nonces used so far. -/
structure Sending (C T : Type) where
  session : SecureDatagramSession C
  calls : T → Option NonceCall
  used : List UsedNonce

inductive SendMove (T : Type) where
  | enter (t : T) (dir : SecureDatagramDirection) (now_ms : Nat)
  | go (t : T)
  | sync_root_key (root_key : List Byte) (session_generation initial_epoch : Nat) (preserve_rx_grace : Bool)
      (started_ms now_ms : Nat)

namespace Sending
variable {C T : Type}

/-- The next atomic step of a call, until it has its nonce. -/
def advance (s : SecureDatagramSession C) (c : NonceCall) : SecureDatagramSession C × Progress :=
  match c.progress with
  | .entered =>
    let packets := s.send_packets_since_epoch + 1
    ({ s with send_packets_since_epoch := packets }, .counted packets)
  | .counted packets =>
    (s, if packets < ROTATE_AFTER_PACKETS ∧ c.now_ms - s.send_epoch_started_ms < ROTATE_AFTER_MS then .checked else .due)
  | .due => (s, .rotating s.send_epoch)
  | .rotating cur =>
    if s.send_epoch = cur then ({ s with send_epoch := (cur + 1) % 2 ^ 32 }, .rotated) else (s, .checked)
  | .rotated => ({ s with send_epoch_started_ms := c.now_ms }, .restarted)
  | .restarted => ({ s with send_packets_since_epoch := 0 }, .checked)
  | .checked => (s, .at_epoch s.send_epoch)
  | .at_epoch epoch =>
    let seq := s.send_seq.get c.dir
    ({ s with send_seq := s.send_seq.set c.dir ((seq + 1) % 2 ^ 64) }, .drawn epoch seq)
  | .drawn epoch seq => (s, .drawn epoch seq)

variable [DecidableEq T]

/-- One step: a call begins, goes on or puts its nonce to use, or the root key is synced. -/
def step (x : Sending C T) : SendMove T → Option UsedNonce × Sending C T
  | .enter t dir now_ms =>
    (none, if x.calls t = none then { x with calls := Function.update x.calls t (some ⟨dir, now_ms, .entered⟩) } else x)
  | .go t =>
    match x.calls t with
    | none => (none, x)
    | some ⟨dir, _, .drawn epoch seq⟩ =>
      let u := ⟨x.session.root_key, epoch, dir, seq⟩
      (some u, { x with calls := Function.update x.calls t none, used := x.used ++ [u] })
    | some c =>
      let next := advance x.session c
      (none, { x with session := next.1, calls := Function.update x.calls t (some { c with progress := next.2 }) })
  | .sync_root_key root_key session_generation initial_epoch preserve_rx_grace started_ms now_ms =>
    (none, { x with session :=
      x.session.sync_root_key root_key session_generation initial_epoch preserve_rx_grace started_ms now_ms })

/-- The next step of the call does not wrap a counter. -/
def Fits (s : SecureDatagramSession C) (c : NonceCall) : Prop :=
  match c.progress with
  | .rotating cur => cur + 1 < 2 ^ 32
  | .at_epoch _ => s.send_seq.get c.dir + 1 < 2 ^ 64
  | _ => True

instance (s : SecureDatagramSession C) : ∀ c, Decidable (Fits s c)
  | ⟨_, _, .rotating cur⟩ => inferInstanceAs (Decidable (cur + 1 < 2 ^ 32))
  | ⟨dir, _, .at_epoch _⟩ => inferInstanceAs (Decidable (s.send_seq.get dir + 1 < 2 ^ 64))
  | ⟨_, _, .entered⟩ | ⟨_, _, .counted _⟩ | ⟨_, _, .due⟩ | ⟨_, _, .rotated⟩ | ⟨_, _, .restarted⟩ | ⟨_, _, .checked⟩
  | ⟨_, _, .drawn _ _⟩ => .isTrue trivial

/-- No counter wraps, and a sync comes between calls and starts above the epochs that were
used under its root key. -/
def Allowed (x : Sending C T) : SendMove T → Prop
  | .enter _ _ _ => True
  | .go t => ∀ c ∈ x.calls t, Fits x.session c
  | .sync_root_key root_key _ initial_epoch _ _ _ =>
    (∀ t, x.calls t = none) ∧ initial_epoch < 2 ^ 32 ∧ ∀ u ∈ x.used, u.root_key = root_key → u.epoch < initial_epoch

instance [Fintype T] (x : Sending C T) : ∀ m, Decidable (Allowed x m)
  | .enter _ _ _ => .isTrue trivial
  | .go t => inferInstanceAs (Decidable (∀ c ∈ x.calls t, Fits x.session c))
  | .sync_root_key root_key _ initial_epoch _ _ _ => inferInstanceAs (Decidable ((∀ t, x.calls t = none) ∧
      initial_epoch < 2 ^ 32 ∧ ∀ u ∈ x.used, u.root_key = root_key → u.epoch < initial_epoch))

/-- Since the last sync, which began at epoch `base`, the numbers that were drawn are below the
counters and are held by one call or have been used. -/
structure Fresh (base : Nat) (x : Sending C T) : Prop where
  base_le : base ≤ x.session.send_epoch
  epoch_lt : x.session.send_epoch < 2 ^ 32
  seq_lt : ∀ d, x.session.send_seq.get d < 2 ^ 64
  epochs : ∀ t c e, x.calls t = some c → c.progress.epoch? = some e → base ≤ e ∧ e < 2 ^ 32
  below : ∀ t c e q, x.calls t = some c → c.progress = .drawn e q → q < x.session.send_seq.get c.dir
  apart : ∀ t t' c c' e e' q, x.calls t = some c → x.calls t' = some c' → c.dir = c'.dir → c.progress = .drawn e q →
    c'.progress = .drawn e' q → t = t'
  used_below : ∀ u ∈ x.used, u.root_key = x.session.root_key → base ≤ u.epoch → u.seq < x.session.send_seq.get u.dir
  used_apart : ∀ u ∈ x.used, u.root_key = x.session.root_key → base ≤ u.epoch →
    ∀ t c e, x.calls t = some c → c.dir = u.dir → c.progress ≠ .drawn e u.seq

variable {base : Nat} {x : Sending C T}

theorem calls_moved {calls : T → Option NonceCall} {t t' : T} {c c' : NonceCall}
    (h : Function.update calls t (some c) t' = some c') : (t' = t ∧ c' = c) ∨ (t' ≠ t ∧ calls t' = some c') := by
  by_cases ht : t' = t
  · subst ht
    rw [Function.update_self, Option.some.injEq] at h
    exact .inl ⟨rfl, h.symm⟩
  · rw [Function.update_of_ne ht] at h
    exact .inr ⟨ht, h⟩

theorem calls_left {calls : T → Option NonceCall} {t t' : T} {c' : NonceCall}
    (h : Function.update calls t none t' = some c') : t' ≠ t ∧ calls t' = some c' := by
  by_cases ht : t' = t
  · subst ht
    rw [Function.update_self] at h
    cases h
  · rw [Function.update_of_ne ht] at h
    exact ⟨ht, h⟩

/-- A call that begins or goes on draws at most a number that was not drawn before. -/
theorem Fresh.moved (h : Fresh base x) (t : T) {c : NonceCall} {s : SecureDatagramSession C}
    (hroot : s.root_key = x.session.root_key) (hbase : base ≤ s.send_epoch ∧ s.send_epoch < 2 ^ 32)
    (hseq : ∀ d, x.session.send_seq.get d ≤ s.send_seq.get d ∧ s.send_seq.get d < 2 ^ 64)
    (hepoch : ∀ e, c.progress.epoch? = some e → base ≤ e ∧ e < 2 ^ 32)
    (hdrawn : ∀ e q, c.progress = .drawn e q → x.session.send_seq.get c.dir ≤ q ∧ q < s.send_seq.get c.dir) :
    Fresh base { x with session := s, calls := Function.update x.calls t (some c) } where
  base_le := hbase.1
  epoch_lt := hbase.2
  seq_lt := fun d => (hseq d).2
  epochs := fun t' c' e hc' he => by
    rcases calls_moved hc' with ⟨-, rfl⟩ | ⟨-, hc'⟩
    · exact hepoch e he
    · exact h.epochs t' c' e hc' he
  below := fun t' c' e q hc' hp => by
    rcases calls_moved hc' with ⟨-, rfl⟩ | ⟨-, hc'⟩
    · exact (hdrawn e q hp).2
    · exact Nat.lt_of_lt_of_le (h.below t' c' e q hc' hp) (hseq c'.dir).1
  apart := fun t₁ t₂ c₁ c₂ e₁ e₂ q hc₁ hc₂ hdir hp₁ hp₂ => by
    rcases calls_moved hc₁ with ⟨ht₁, rfl⟩ | ⟨-, hc₁⟩
    · rcases calls_moved hc₂ with ⟨ht₂, -⟩ | ⟨-, hc₂⟩
      · exact ht₁.trans ht₂.symm
      · have hnew := (hdrawn e₁ q hp₁).1
        have hold := h.below t₂ c₂ e₂ q hc₂ hp₂
        rw [← hdir] at hold
        omega
    · rcases calls_moved hc₂ with ⟨-, rfl⟩ | ⟨-, hc₂⟩
      · have hnew := (hdrawn e₂ q hp₂).1
        have hold := h.below t₁ c₁ e₁ q ‹_› hp₁
        rw [hdir] at hold
        omega
      · exact h.apart t₁ t₂ c₁ c₂ e₁ e₂ q hc₁ hc₂ hdir hp₁ hp₂
  used_below := fun u hu hkey hu' =>
    Nat.lt_of_lt_of_le (h.used_below u hu (hkey.trans hroot) hu') (hseq u.dir).1
  used_apart := fun u hu hkey hu' t' c' e hc' hdir hp => by
    rcases calls_moved hc' with ⟨-, rfl⟩ | ⟨-, hc'⟩
    · have hnew := (hdrawn e u.seq hp).1
      have hold := h.used_below u hu (hkey.trans hroot) hu'
      rw [hdir] at hnew
      omega
    · exact h.used_apart u hu (hkey.trans hroot) hu' t' c' e hc' hdir hp

/-- A nonce that is put to use was not used before, and no other call holds it. -/
theorem Fresh.put_to_use (h : Fresh base x) {t : T} {c : NonceCall} {e q : Nat} (hc : x.calls t = some c)
    (hp : c.progress = .drawn e q) :
    ⟨x.session.root_key, e, c.dir, q⟩ ∉ x.used ∧
      Fresh base { x with calls := Function.update x.calls t none, used := x.used ++ [⟨x.session.root_key, e, c.dir, q⟩] } := by
  have hbase := (h.epochs t c e hc (by rw [hp]; rfl)).1
  refine ⟨fun hu => h.used_apart _ hu rfl hbase t c e hc rfl hp, ?_⟩
  refine ⟨h.base_le, h.epoch_lt, h.seq_lt, fun t' c' e' hc' => h.epochs t' c' e' (calls_left hc').2,
    fun t' c' e' q' hc' => h.below t' c' e' q' (calls_left hc').2,
    fun t₁ t₂ c₁ c₂ e₁ e₂ q' hc₁ hc₂ => h.apart t₁ t₂ c₁ c₂ e₁ e₂ q' (calls_left hc₁).2 (calls_left hc₂).2, ?_, ?_⟩
  · intro u hu hkey hu'
    rw [List.mem_append, List.mem_singleton] at hu
    rcases hu with hu | rfl
    · exact h.used_below u hu hkey hu'
    · exact h.below t c e q hc hp
  · intro u hu hkey hu' t' c' e' hc' hdir hp'
    obtain ⟨hne, hc'⟩ := calls_left hc'
    rw [List.mem_append, List.mem_singleton] at hu
    rcases hu with hu | rfl
    · exact h.used_apart u hu hkey hu' t' c' e' hc' hdir hp'
    · exact hne (h.apart t' t c' c e' e q hc' hc hdir hp' hp)

/-- What a step of a call can do: draw a number, read the epoch, move to the next epoch, or none
of these. -/
theorem advance_cases (s : SecureDatagramSession C) {c : NonceCall} (hnot : ∀ e q, c.progress ≠ .drawn e q) :
    (∃ e, c.progress = .at_epoch e ∧ advance s c =
      ({ s with send_seq := s.send_seq.set c.dir ((s.send_seq.get c.dir + 1) % 2 ^ 64) }, .drawn e (s.send_seq.get c.dir))) ∨
    advance s c = (s, .at_epoch s.send_epoch) ∨
    (c.progress = .rotating s.send_epoch ∧
      advance s c = ({ s with send_epoch := (s.send_epoch + 1) % 2 ^ 32 }, .rotated)) ∨
    ((advance s c).2.epoch? = none ∧ (advance s c).1.root_key = s.root_key ∧ (advance s c).1.send_epoch = s.send_epoch ∧
      (advance s c).1.send_seq = s.send_seq) := by
  obtain ⟨dir, now_ms, progress⟩ := c
  cases progress with
  | entered => exact .inr (.inr (.inr ⟨rfl, rfl, rfl, rfl⟩))
  | counted packets =>
    refine .inr (.inr (.inr ⟨?_, rfl, rfl, rfl⟩))
    show Progress.epoch? (if _ then _ else _) = none
    split_ifs
    · rfl
    · rfl
  | due => exact .inr (.inr (.inr ⟨rfl, rfl, rfl, rfl⟩))
  | rotating cur =>
    by_cases hcur : s.send_epoch = cur
    · subst hcur
      exact .inr (.inr (.inl ⟨rfl, if_pos rfl⟩))
    · have hfail : advance s ⟨dir, now_ms, .rotating cur⟩ = (s, .checked) := if_neg hcur
      rw [hfail]
      exact .inr (.inr (.inr ⟨rfl, rfl, rfl, rfl⟩))
  | rotated => exact .inr (.inr (.inr ⟨rfl, rfl, rfl, rfl⟩))
  | restarted => exact .inr (.inr (.inr ⟨rfl, rfl, rfl, rfl⟩))
  | checked => exact .inr (.inl rfl)
  | at_epoch epoch => exact .inl ⟨epoch, rfl, rfl⟩
  | drawn e q => exact absurd rfl (hnot e q)

theorem not_drawn {p : Progress} (h : p.epoch? = none) (e q : Nat) : p ≠ .drawn e q := by
  rintro rfl
  cases h

/-- One step of a call keeps the epochs going up, and draws the next number at most. -/
theorem Fresh.advanced (h : Fresh base x) {t : T} {c : NonceCall} (hc : x.calls t = some c)
    (hnot : ∀ e q, c.progress ≠ .drawn e q) (hok : Allowed x (.go t)) :
    Fresh base { x with
      session := (advance x.session c).1
      calls := Function.update x.calls t (some { c with progress := (advance x.session c).2 }) } := by
  have hfits := hok c hc
  rw [Fits] at hfits
  have hsame : ∀ d, x.session.send_seq.get d ≤ x.session.send_seq.get d ∧ x.session.send_seq.get d < 2 ^ 64 :=
    fun d => ⟨Nat.le_refl _, h.seq_lt d⟩
  rcases advance_cases x.session hnot with ⟨epoch, hp, heq⟩ | heq | ⟨hp, heq⟩ | ⟨hnone, hroot, hepoch, hseq⟩
  · rw [hp] at hfits
    have hlt : x.session.send_seq.get c.dir + 1 < 2 ^ 64 := hfits
    have hnext : ∀ d, (x.session.send_seq.set c.dir ((x.session.send_seq.get c.dir + 1) % 2 ^ 64)).get d =
        if d = c.dir then x.session.send_seq.get c.dir + 1 else x.session.send_seq.get d := by
      intro d
      rw [PerDirection.get_set, Nat.mod_eq_of_lt hlt]
    rw [heq]
    refine h.moved t rfl ⟨h.base_le, h.epoch_lt⟩ (fun d => ?_) (fun e he => ?_) (fun e q hq => ?_)
    · show _ ≤ (x.session.send_seq.set c.dir _).get d ∧ (x.session.send_seq.set c.dir _).get d < 2 ^ 64
      rw [hnext]
      by_cases hd : d = c.dir
      · subst hd
        rw [if_pos rfl]
        exact ⟨Nat.le_succ _, hlt⟩
      · rw [if_neg hd]
        exact hsame d
    · cases he
      exact h.epochs t c epoch hc (by rw [hp]; rfl)
    · cases hq
      refine ⟨Nat.le_refl _, ?_⟩
      show _ < (x.session.send_seq.set c.dir _).get c.dir
      rw [hnext, if_pos rfl]
      exact Nat.lt_succ_self _
  · rw [heq]
    refine h.moved t rfl ⟨h.base_le, h.epoch_lt⟩ hsame (fun e he => ?_) (fun _ _ hq => nomatch hq)
    cases he
    exact ⟨h.base_le, h.epoch_lt⟩
  · rw [hp] at hfits
    have hlt : x.session.send_epoch + 1 < 2 ^ 32 := hfits
    have hle := h.base_le
    rw [heq, Nat.mod_eq_of_lt hlt]
    exact h.moved t rfl ⟨Nat.le_succ_of_le hle, hlt⟩ hsame (fun _ he => nomatch he) (fun _ _ hq => nomatch hq)
  · refine h.moved t hroot ?_ ?_ (fun e he => ?_) (fun e q hq => absurd hq (not_drawn hnone e q))
    · rw [hepoch]
      exact ⟨h.base_le, h.epoch_lt⟩
    · rw [hseq]
      exact hsame
    · have he' : (advance x.session c).2.epoch? = some e := he
      rw [hnone] at he'
      cases he'

/-- What a step of the whole is. -/
theorem step_go (x : Sending C T) (t : T) :
    (x.calls t = none ∧ step x (.go t) = (none, x)) ∨
    (∃ c e q, x.calls t = some c ∧ c.progress = .drawn e q ∧ step x (.go t) =
      (some ⟨x.session.root_key, e, c.dir, q⟩, { x with
        calls := Function.update x.calls t none
        used := x.used ++ [⟨x.session.root_key, e, c.dir, q⟩] })) ∨
    (∃ c, x.calls t = some c ∧ (∀ e q, c.progress ≠ .drawn e q) ∧ step x (.go t) = (none, { x with
      session := (advance x.session c).1
      calls := Function.update x.calls t (some { c with progress := (advance x.session c).2 }) })) := by
  rw [step]
  cases h : x.calls t with
  | none => exact .inl ⟨rfl, rfl⟩
  | some c =>
    obtain ⟨dir, now_ms, progress⟩ := c
    cases progress with
    | drawn e q => exact .inr (.inl ⟨_, e, q, rfl, rfl, rfl⟩)
    | _ =>
      refine .inr (.inr ⟨_, rfl, fun e q hp => ?_, rfl⟩)
      cases hp

theorem fresh_step {m : SendMove T} (h : ∃ base, Fresh base x) (hok : Allowed x m) : ∃ base, Fresh base (step x m).2 := by
  obtain ⟨base, h⟩ := h
  cases m with
  | enter t dir now_ms =>
    refine ⟨base, ?_⟩
    rw [step]
    by_cases ht : x.calls t = none
    · simp only [if_pos ht]
      exact h.moved t rfl ⟨h.base_le, h.epoch_lt⟩ (fun d => ⟨Nat.le_refl _, h.seq_lt d⟩) (fun _ he => nomatch he)
        (fun _ _ hq => nomatch hq)
    · simp only [if_neg ht]
      exact h
  | go t =>
    refine ⟨base, ?_⟩
    rcases step_go x t with ⟨-, heq⟩ | ⟨c, e, q, hc, hp, heq⟩ | ⟨c, hc, hnot, heq⟩
    · rw [heq]
      exact h
    · rw [heq]
      exact (h.put_to_use hc hp).2
    · rw [heq]
      exact h.advanced hc hnot hok
  | sync_root_key root_key session_generation initial_epoch preserve_rx_grace started_ms now_ms =>
    obtain ⟨hcalls, hlt, hused⟩ := hok
    have hnone : ∀ t c, ¬ x.calls t = some c := by
      intro t c hc
      rw [hcalls t] at hc
      cases hc
    refine ⟨initial_epoch, Nat.le_refl _, hlt, fun d => ?_, fun t c e hc => absurd hc (hnone t c),
      fun t c e q hc => absurd hc (hnone t c), fun t _ c _ _ _ _ hc => absurd hc (hnone t c),
      fun u hu hkey hle => ?_, fun u hu hkey hle t c e hc => absurd hc (hnone t c)⟩
    · show (PerDirection.both 0).get d < 2 ^ 64
      rw [PerDirection.get_both]
      decide
    · exact absurd (hused u hu hkey) (Nat.not_lt.mpr hle)

theorem used_step (x : Sending C T) (m : SendMove T) : (step x m).2.used = x.used ++ (step x m).1.toList := by
  cases m with
  | enter t dir now_ms =>
    rw [step]
    split_ifs
    · exact (List.append_nil _).symm
    · exact (List.append_nil _).symm
  | go t =>
    rcases step_go x t with ⟨-, heq⟩ | ⟨c, e, q, hc, hp, heq⟩ | ⟨c, hc, hnot, heq⟩
    · rw [heq]
      exact (List.append_nil _).symm
    · rw [heq]
      rfl
    · rw [heq]
      exact (List.append_nil _).symm
  | sync_root_key => exact (List.append_nil _).symm

/-- A nonce that a step puts to use is new, and its numbers fit. -/
theorem step_uses {m : SendMove T} {u : UsedNonce} (h : ∃ base, Fresh base x) (hm : (step x m).1 = some u) :
    u ∉ x.used ∧ u.epoch < 2 ^ 32 ∧ u.seq < 2 ^ 64 := by
  obtain ⟨base, h⟩ := h
  cases m with
  | enter t dir now_ms => cases hm
  | sync_root_key => cases hm
  | go t =>
    rcases step_go x t with ⟨-, heq⟩ | ⟨c, e, q, hc, hp, heq⟩ | ⟨c, hc, hnot, heq⟩
    · rw [heq] at hm
      cases hm
    · rw [heq] at hm
      cases hm
      have hlt := h.below t c e q hc hp
      exact ⟨(h.put_to_use hc hp).1, (h.epochs t c e hc (by rw [hp]; rfl)).2, Nat.lt_trans hlt (h.seq_lt c.dir)⟩
    · rw [heq] at hm
      cases hm

theorem bars : Bars (fun x : Sending C T => ∃ base, Fresh base x) Allowed step (fun x u => u ∈ x.used) where
  inv_step := fun _ _ h hok => fresh_step h hok
  passes := fun x m u h _ hm => by
    refine ⟨(step_uses h hm).1, ?_⟩
    rw [used_step, hm, Option.toList_some, List.mem_append]
    exact .inr List.mem_cons_self
  keeps := fun x m u _ _ hu => by
    rw [used_step, List.mem_append]
    exact .inl hu

/-! ## A call alone -/

section
variable (s : SecureDatagramSession C) (calls : T → Option NonceCall) (used : List UsedNonce) (t : T)
  (dir : SecureDatagramDirection) (now_ms : Nat)

/-- One call is under way. -/
def during (p : Progress) : Sending C T := ⟨s, Function.update calls t (some ⟨dir, now_ms, p⟩), used⟩

theorem reached_during {s s' : SecureDatagramSession C} {p p' : Progress} (hnot : ∀ e q, p ≠ .drawn e q)
    (hnext : advance s ⟨dir, now_ms, p⟩ = (s', p')) (moves : List (SendMove T)) :
    reached step (during s calls used t dir now_ms p) (.go t :: moves) =
      reached step (during s' calls used t dir now_ms p') moves := by
  have hcall : (during s calls used t dir now_ms p).calls t = some ⟨dir, now_ms, p⟩ := Function.update_self ..
  rw [reached]
  rcases step_go (during s calls used t dir now_ms p) t with ⟨hnone, -⟩ | ⟨c, e, q, hc, hp, -⟩ | ⟨c, hc, -, heq⟩
  · rw [hcall] at hnone
    cases hnone
  · rw [hcall, Option.some.injEq] at hc
    subst hc
    exact absurd hp (hnot e q)
  · rw [hcall, Option.some.injEq] at hc
    subst hc
    rw [heq]
    refine congrArg (reached step · moves) ?_
    show Sending.mk (advance s ⟨dir, now_ms, p⟩).1 (Function.update (Function.update calls t _) t
      (some ⟨dir, now_ms, (advance s ⟨dir, now_ms, p⟩).2⟩)) used = _
    rw [Function.update_idem, hnext]
    rfl

theorem reached_drawn (hfree : calls t = none) (e q : Nat) :
    reached step (during s calls used t dir now_ms (.drawn e q)) [.go t] =
      ⟨s, calls, used ++ [⟨s.root_key, e, dir, q⟩]⟩ := by
  have hcall : (during s calls used t dir now_ms (.drawn e q)).calls t = some ⟨dir, now_ms, .drawn e q⟩ :=
    Function.update_self ..
  rw [reached, reached]
  rcases step_go (during s calls used t dir now_ms (.drawn e q)) t with ⟨hnone, -⟩ | ⟨c, e', q', hc, hp, heq⟩ | ⟨c, hc, hnot, -⟩
  · rw [hcall] at hnone
    cases hnone
  · rw [hcall, Option.some.injEq] at hc
    subst hc
    cases hp
    rw [heq]
    have hback : Function.update (Function.update calls t (some ⟨dir, now_ms, .drawn e q⟩)) t none = calls := by
      rw [Function.update_idem, ← hfree, Function.update_eq_self]
    exact congrArg (fun calls => Sending.mk s calls (used ++ [⟨s.root_key, e, dir, q⟩])) hback
  · rw [hcall, Option.some.injEq] at hc
    subst hc
    exact absurd rfl (hnot e q)

/-- A call that no other comes between draws the nonce of `next_nonce`. -/
theorem next_nonce_alone (hfree : calls t = none) : ∃ n,
    reached step ⟨s, calls, used⟩ (.enter t dir now_ms :: List.replicate n (.go t)) =
      ⟨(s.next_nonce dir now_ms).2, calls,
        used ++ [⟨s.root_key, (s.next_nonce dir now_ms).1.1, dir, (s.next_nonce dir now_ms).1.2.1⟩]⟩ := by
  have henter : ∀ moves, reached step ⟨s, calls, used⟩ (.enter t dir now_ms :: moves) =
      reached step (during s calls used t dir now_ms .entered) moves := by
    intro moves
    rw [reached, step, if_pos hfree]
    rfl
  by_cases h : s.send_packets_since_epoch + 1 < ROTATE_AFTER_PACKETS ∧ now_ms - s.send_epoch_started_ms < ROTATE_AFTER_MS
  · have hstay : s.maybe_rotate_epoch now_ms = { s with send_packets_since_epoch := s.send_packets_since_epoch + 1 } := if_pos h
    refine ⟨5, ?_⟩
    have hcheck : advance { s with send_packets_since_epoch := s.send_packets_since_epoch + 1 }
        ⟨dir, now_ms, .counted (s.send_packets_since_epoch + 1)⟩ =
          ({ s with send_packets_since_epoch := s.send_packets_since_epoch + 1 }, .checked) :=
      congrArg (Prod.mk _) (if_pos h)
    rw [henter, SecureDatagramSession.next_nonce, hstay]
    refine (reached_during calls used t dir now_ms (p := .entered) (fun _ _ hp => nomatch hp) rfl _).trans ?_
    refine (reached_during calls used t dir now_ms (p := .counted _) (fun _ _ hp => nomatch hp) hcheck _).trans ?_
    refine (reached_during calls used t dir now_ms (p := .checked) (fun _ _ hp => nomatch hp) rfl _).trans ?_
    refine (reached_during calls used t dir now_ms (p := .at_epoch _) (fun _ _ hp => nomatch hp) rfl _).trans ?_
    exact reached_drawn _ calls used t dir now_ms hfree _ _
  · have hrotate : s.maybe_rotate_epoch now_ms = { s with
        send_epoch := (s.send_epoch + 1) % 2 ^ 32
        send_epoch_started_ms := now_ms
        send_packets_since_epoch := 0 } := if_neg h
    have hcheck : advance { s with send_packets_since_epoch := s.send_packets_since_epoch + 1 }
        ⟨dir, now_ms, .counted (s.send_packets_since_epoch + 1)⟩ =
          ({ s with send_packets_since_epoch := s.send_packets_since_epoch + 1 }, .due) :=
      congrArg (Prod.mk _) (if_neg h)
    have hswap : advance { s with send_packets_since_epoch := s.send_packets_since_epoch + 1 }
        ⟨dir, now_ms, .rotating s.send_epoch⟩ = ({ s with
          send_epoch := (s.send_epoch + 1) % 2 ^ 32
          send_packets_since_epoch := s.send_packets_since_epoch + 1 }, .rotated) := if_pos rfl
    refine ⟨9, ?_⟩
    rw [henter, SecureDatagramSession.next_nonce, hrotate]
    refine (reached_during calls used t dir now_ms (p := .entered) (fun _ _ hp => nomatch hp) rfl _).trans ?_
    refine (reached_during calls used t dir now_ms (p := .counted _) (fun _ _ hp => nomatch hp) hcheck _).trans ?_
    refine (reached_during calls used t dir now_ms (p := .due) (fun _ _ hp => nomatch hp) rfl _).trans ?_
    refine (reached_during calls used t dir now_ms (p := .rotating _) (fun _ _ hp => nomatch hp) hswap _).trans ?_
    refine (reached_during calls used t dir now_ms (p := .rotated) (fun _ _ hp => nomatch hp) rfl _).trans ?_
    refine (reached_during calls used t dir now_ms (p := .restarted) (fun _ _ hp => nomatch hp) rfl _).trans ?_
    refine (reached_during calls used t dir now_ms (p := .checked) (fun _ _ hp => nomatch hp) rfl _).trans ?_
    refine (reached_during calls used t dir now_ms (p := .at_epoch _) (fun _ _ hp => nomatch hp) rfl _).trans ?_
    exact reached_drawn _ calls used t dir now_ms hfree _ _

end

end Sending

/-! ## What the nonces are used for -/

theorem traffic_info_inj {epoch epoch' : Nat} {dir dir' : SecureDatagramDirection} (h : epoch < 2 ^ 32) (h' : epoch' < 2 ^ 32)
    (heq : SecureDatagramSession.traffic_info epoch dir = SecureDatagramSession.traffic_info epoch' dir') :
    epoch = epoch' ∧ dir = dir' := by
  rw [SecureDatagramSession.traffic_info, SecureDatagramSession.traffic_info, List.append_cancel_left_eq] at heq
  obtain ⟨hepoch, hdir⟩ := List.append_inj heq (by rw [length_toBytes, length_toBytes])
  refine ⟨toBytes_inj (by omega) (by omega) hepoch, ?_⟩
  cases dir <;> cases dir' <;> first | rfl | exact absurd hdir (by decide)

theorem nonce_inj {epoch epoch' seq seq' : Nat} (h : seq < 2 ^ 64) (h' : seq' < 2 ^ 64)
    (heq : SecureDatagramSession.nonce epoch seq = SecureDatagramSession.nonce epoch' seq') : seq = seq' := by
  obtain ⟨-, hseq⟩ := List.append_inj heq (by rw [length_toBytes, length_toBytes])
  exact toBytes_inj (by omega) (by omega) hseq

namespace Sending
variable {C T : Type} [DecidableEq T]

/-- The root key and the text a traffic key comes from, and the nonce under that key. -/
def key_and_nonce (u : UsedNonce) : List Byte × List Byte × List Byte :=
  (u.root_key, SecureDatagramSession.traffic_info u.epoch u.dir, SecureDatagramSession.nonce u.epoch u.seq)

omit [DecidableEq T] in
theorem fresh_start {s : SecureDatagramSession C} (hepoch : s.send_epoch < 2 ^ 32) (hseq : ∀ d, s.send_seq.get d < 2 ^ 64) :
    Fresh 0 (⟨s, fun _ => none, []⟩ : Sending C T) where
  base_le := Nat.zero_le _
  epoch_lt := hepoch
  seq_lt := hseq
  epochs := fun _ _ _ hc => by cases hc
  below := fun _ _ _ _ hc => by cases hc
  apart := fun _ _ _ _ _ _ _ hc => by cases hc
  used_below := fun _ hu => by cases hu
  used_apart := fun _ hu => by cases hu

/-- No nonce is used twice under one traffic key, however the calls of the threads interleave. -/
theorem nonces_unique {s : SecureDatagramSession C} (hepoch : s.send_epoch < 2 ^ 32)
    (hseq : ∀ d, s.send_seq.get d < 2 ^ 64) {moves : List (SendMove T)} (h : Along Allowed step ⟨s, fun _ => none, []⟩ moves) :
    ((passed step (⟨s, fun _ => none, []⟩ : Sending C T) moves).map key_and_nonce).Nodup := by
  have hfresh : ∃ base, Fresh base (⟨s, fun _ => none, []⟩ : Sending C T) := ⟨0, fresh_start hepoch hseq⟩
  have hfit := bars.forall_passed (fun _ _ _ h _ hm => (step_uses h hm).2) moves _ hfresh h
  refine (bars.nodup moves _ hfresh h).map_on ?_
  intro u hu v hv heq
  obtain ⟨root_key, epoch, dir, seq⟩ := u
  obtain ⟨root_key', epoch', dir', seq'⟩ := v
  obtain ⟨hkey, htext⟩ := Prod.mk.inj heq
  obtain ⟨hinfo, hnonce⟩ := Prod.mk.inj htext
  obtain ⟨he, hd⟩ := traffic_info_inj (hfit _ hu).1 (hfit _ hv).1 hinfo
  have hq := nonce_inj (hfit _ hu).2 (hfit _ hv).2 hnonce
  exact (UsedNonce.mk.injEq ..).mpr ⟨hkey, he, hd, hq⟩

def moves_of_test : List (SendMove Bool) :=
  [.enter false .AToB 700000, .enter true .AToB 700000, .go false, .go true, .go false, .go true, .go false, .go true,
    .go false, .go true, .go true, .go true, .go true, .go false, .go false, .go false, .go false, .go false,
    .sync_root_key [] 2 2 true 700001 700001, .enter true .AToB 700002, .go true, .go true, .go true, .go true, .go true]

theorem nonces_unique_of_test : ((passed step (⟨.new [] 1 0 "aes-256-gcm" "aes-256-gcm" 0, fun _ => none, []⟩ : Sending Unit Bool)
    moves_of_test).map key_and_nonce).Nodup :=
  nonces_unique (by decide) (fun d => by cases d <;> decide) (by decide)

/-- A call that has read the epoch before a sync draws its number after it, and the nonce of
the first packet comes again. -/
example : passed step (⟨.new [] 1 0 "aes-256-gcm" "aes-256-gcm" 0, fun _ => none, []⟩ : Sending Unit Bool)
    [.enter false .AToB 0, .go false, .go false, .go false, .go false, .go false,
      .enter false .AToB 0, .go false, .go false, .go false, .sync_root_key [] 2 1 true 1 1, .go false, .go false] =
    [⟨[], 0, .AToB, 0⟩, ⟨[], 0, .AToB, 0⟩] := by
  decide

end Sending
end EasyTierHost.Peers
