import EasyTierHost.Peers.SecureDatagram

/- Replays over a whole run of a session. A packet is checked before it is decrypted and
   entered after that, and other packets come in between. Checks that come to nothing do not
   change what is let through; a packet is let through once, as long as no sync comes and no
   window that is in use is dropped for its age. -/
namespace EasyTierHost.Peers
open Effects

namespace SecureDatagramSession
variable {C : Type}

/-! ## Opening -/

theorem clear_idle (slot : EpochRxSlot) {now later : Nat} (h : now ≤ later) :
    (if idle (if idle slot now then slot.clear else slot) later then
      (if idle slot now then slot.clear else slot).clear else if idle slot now then slot.clear else slot) =
      if idle slot later then slot.clear else slot := by
  by_cases hnow : idle slot now = true
  · have hlater : idle slot later = true := by
      simp only [idle, Bool.and_eq_true, decide_eq_true_eq] at hnow ⊢
      exact ⟨hnow.1, by omega⟩
    rw [if_pos hnow, if_pos hlater]
    rfl
  · rw [if_neg hnow]

theorem evict_evict (slots : RxSlots) {now later : Nat} (h : now ≤ later) :
    evict (evict slots now) later = evict slots later := by
  rw [evict, evict, evict]
  exact congrArg₂ RxSlots.mk (clear_idle slots.slot0 h) (clear_idle slots.slot1 h)

theorem evict_old_evict_old (rx : PerDirection RxSlots) {now later : Nat} (h : now ≤ later) :
    evict_old_rx_slots (evict_old_rx_slots rx now) later = evict_old_rx_slots rx later := by
  rw [evict_old_rx_slots, evict_old_rx_slots, evict_old_rx_slots]
  exact congrArg₂ PerDirection.mk (evict_evict rx.a_to_b h) (evict_evict rx.b_to_a h)

/-- The grace windows are there: they have been kept and have not run out. -/
def graced (s : SecureDatagramSession C) (now_ms : Nat) : Bool :=
  decide (s.sync_rx_grace_expires_at_ms ≠ 0) && decide (now_ms < s.sync_rx_grace_expires_at_ms) &&
    s.sync_rx_grace.valid && decide (now_ms < s.sync_rx_grace.expires_at_ms)

theorem open_rx_fst (s : SecureDatagramSession C) (now_ms : Nat) : (s.open_rx now_ms).1 = s.graced now_ms := by
  rw [open_rx, graced, sync_rx_grace_active, SyncRxGrace.maybe_expire]
  by_cases h0 : s.sync_rx_grace_expires_at_ms = 0
  · simp [h0]
  · by_cases hlt : now_ms < s.sync_rx_grace_expires_at_ms
    · by_cases hv : s.sync_rx_grace.valid = true
      · by_cases he : s.sync_rx_grace.expires_at_ms ≤ now_ms
        · simp [h0, hlt, hv, he, SyncRxGrace.default]
        · simp [h0, hlt, hv, he, Nat.not_le.mp he]
      · simp [h0, hlt, hv]
    · simp [h0, hlt]

theorem graced_of_le {s : SecureDatagramSession C} {now later : Nat} (h : now ≤ later) (hg : s.graced later = true) :
    s.graced now = true := by
  simp only [graced, Bool.and_eq_true, decide_eq_true_eq] at hg ⊢
  exact ⟨⟨⟨hg.1.1.1, by omega⟩, hg.1.2⟩, by omega⟩

/-- What opening makes of the grace windows. -/
def opened_grace (s : SecureDatagramSession C) (now_ms : Nat) : SyncRxGrace :=
  if s.graced now_ms then { s.sync_rx_grace with slots := evict_old_rx_slots s.sync_rx_grace.slots now_ms }
  else (s.open_rx now_ms).2.sync_rx_grace

theorem opened_grace_of_graced {s : SecureDatagramSession C} {now_ms : Nat} (h : s.graced now_ms = true) :
    s.opened_grace now_ms = { s.sync_rx_grace with slots := evict_old_rx_slots s.sync_rx_grace.slots now_ms } :=
  if_pos h

theorem open_rx_snd (s : SecureDatagramSession C) (now_ms : Nat) :
    (s.open_rx now_ms).2 = { s with
      rx_slots := evict_old_rx_slots s.rx_slots now_ms
      sync_rx_grace := s.opened_grace now_ms
      sync_rx_grace_expires_at_ms := if s.graced now_ms then s.sync_rx_grace_expires_at_ms else 0 } := by
  rw [opened_grace, open_rx, graced, sync_rx_grace_active, SyncRxGrace.maybe_expire]
  by_cases h0 : s.sync_rx_grace_expires_at_ms = 0
  · simp [h0]
  · by_cases hlt : now_ms < s.sync_rx_grace_expires_at_ms
    · by_cases hv : s.sync_rx_grace.valid = true
      · by_cases he : s.sync_rx_grace.expires_at_ms ≤ now_ms
        · simp [h0, hlt, hv, he, SyncRxGrace.default]
        · simp [h0, hlt, hv, he, Nat.not_le.mp he]
      · simp [h0, hlt, hv]
    · simp [h0, hlt]

/-- The sessions differ at most in grace windows that no one asks for any more. -/
def Alike (s s' : SecureDatagramSession C) : Prop :=
  ∃ g, s' = { s with sync_rx_grace := g } ∧ (s.sync_rx_grace_expires_at_ms ≠ 0 → g = s.sync_rx_grace)

theorem Alike.refl (s : SecureDatagramSession C) : Alike s s := ⟨s.sync_rx_grace, rfl, fun _ => rfl⟩

/-- They open alike. -/
def OpenAlike (now_ms : Nat) (s s' : SecureDatagramSession C) : Prop :=
  (s.open_rx now_ms).1 = (s'.open_rx now_ms).1 ∧ Alike (s.open_rx now_ms).2 (s'.open_rx now_ms).2

theorem Alike.opened {s s' : SecureDatagramSession C} (h : Alike s s') (now_ms : Nat) : OpenAlike now_ms s s' := by
  obtain ⟨g, rfl, hg⟩ := h
  by_cases h0 : s.sync_rx_grace_expires_at_ms = 0
  · have hs : s.graced now_ms = false := by simp [graced, h0]
    have hs' : graced { s with sync_rx_grace := g } now_ms = false := by simp [graced, h0]
    refine ⟨by rw [open_rx_fst, open_rx_fst, hs, hs'], ?_⟩
    rw [open_rx_snd, open_rx_snd, hs, hs']
    exact ⟨_, rfl, fun hne => absurd rfl hne⟩
  · rw [hg h0]
    exact ⟨rfl, Alike.refl _⟩

theorem graced_open_rx (s : SecureDatagramSession C) {now later : Nat} (h : now ≤ later) :
    graced (s.open_rx now).2 later = s.graced later := by
  rw [open_rx_snd]
  by_cases hnow : s.graced now = true
  · rw [if_pos hnow, opened_grace, if_pos hnow]
    rfl
  · have hlater : ¬ s.graced later = true := fun hl => hnow (graced_of_le h hl)
    rw [if_neg hnow, Bool.eq_false_of_not_eq_true hlater]
    rfl

/-- What was opened at one time opens at a later time as if it had not been. -/
theorem open_open (s : SecureDatagramSession C) {now later : Nat} (h : now ≤ later) :
    OpenAlike later (s.open_rx now).2 s := by
  have hgraced := graced_open_rx s h
  refine ⟨by rw [open_rx_fst, open_rx_fst, hgraced], ?_⟩
  rw [open_rx_snd (s.open_rx now).2, open_rx_snd s later, hgraced, open_rx_snd s now]
  by_cases hlater : s.graced later = true
  · have hnow := graced_of_le h hlater
    have hgr : graced { s with
        rx_slots := evict_old_rx_slots s.rx_slots now
        sync_rx_grace := s.opened_grace now
        sync_rx_grace_expires_at_ms := if s.graced now then s.sync_rx_grace_expires_at_ms else 0 } later = true := by
      rw [← open_rx_snd, hgraced, hlater]
    refine ⟨s.opened_grace later, ?_, fun _ => ?_⟩
    · rw [if_pos hlater, if_pos hlater, if_pos hnow, evict_old_evict_old _ h]
    · refine (opened_grace_of_graced hlater).trans (Eq.trans ?_ (opened_grace_of_graced hgr).symm)
      show _ = SyncRxGrace.mk (evict_old_rx_slots (s.opened_grace now).slots later) (s.opened_grace now).expires_at_ms
        (s.opened_grace now).valid
      rw [opened_grace_of_graced hnow]
      exact congrArg (fun slots => SyncRxGrace.mk slots _ _) (evict_old_evict_old _ h).symm
  · refine ⟨s.opened_grace later, ?_, fun hne => ?_⟩
    · rw [if_neg hlater, if_neg hlater, evict_old_evict_old _ h]
    · rw [if_neg hlater] at hne
      exact absurd rfl hne

theorem Alike.trans {s s' s'' : SecureDatagramSession C} (h : Alike s s') (h' : Alike s' s'') : Alike s s'' := by
  obtain ⟨g, rfl, hg⟩ := h
  obtain ⟨g', rfl, hg'⟩ := h'
  exact ⟨g', rfl, fun hne => (hg' hne).trans (hg hne)⟩

theorem OpenAlike.trans {now_ms : Nat} {s s' s'' : SecureDatagramSession C} (h : OpenAlike now_ms s s')
    (h' : OpenAlike now_ms s' s'') : OpenAlike now_ms s s'' :=
  ⟨h.1.trans h'.1, h.2.trans h'.2⟩

theorem open_rx_rotated (s : SecureDatagramSession C) (send_epoch now_ms : Nat) :
    open_rx { s with send_epoch := send_epoch } now_ms =
      ((s.open_rx now_ms).1, { (s.open_rx now_ms).2 with send_epoch := send_epoch }) := by
  rw [open_rx, open_rx, sync_rx_grace_active, sync_rx_grace_active]
  by_cases h0 : s.sync_rx_grace_expires_at_ms = 0
  · simp [h0]
  · by_cases hlt : now_ms < s.sync_rx_grace_expires_at_ms
    · by_cases hv : (s.sync_rx_grace.maybe_expire now_ms).valid = true
      · simp [h0, hlt, hv]
      · simp [h0, hlt, hv]
    · simp [h0, hlt]

theorem OpenAlike.rotated {s s' : SecureDatagramSession C} {now_ms : Nat} (h : OpenAlike now_ms s s') (send_epoch : Nat) :
    OpenAlike now_ms { s with send_epoch := send_epoch } { s' with send_epoch := send_epoch } := by
  obtain ⟨hfst, g, hg, hgrace⟩ := h
  rw [OpenAlike, open_rx_rotated s send_epoch now_ms, open_rx_rotated s' send_epoch now_ms]
  refine ⟨hfst, g, ?_, hgrace⟩
  rw [hg]

theorem expires_of_open {s : SecureDatagramSession C} {now_ms : Nat} (h : (s.open_rx now_ms).1 = true) :
    (s.open_rx now_ms).2.sync_rx_grace_expires_at_ms ≠ 0 := by
  rw [open_rx_fst] at h
  rw [open_rx_snd, if_pos h]
  simp only [graced, Bool.and_eq_true, decide_eq_true_eq] at h
  exact h.1.1.1

/-! ## Calls -/

inductive ReplayCall where
  | precheck (epoch seq : Nat) (dir : SecureDatagramDirection) (now_ms : Nat)
  | commit (epoch seq : Nat) (dir : SecureDatagramDirection) (now_ms : Nat)
  | rotate (send_epoch now_ms : Nat)
deriving DecidableEq

namespace ReplayCall

def now_ms : ReplayCall → Nat
  | precheck _ _ _ now_ms => now_ms
  | commit _ _ _ now_ms => now_ms
  | rotate _ now_ms => now_ms

def counts : ReplayCall → Bool
  | precheck .. => false
  | _ => true

end ReplayCall

/-- One call, and what it lets through. -/
def call (s : SecureDatagramSession C) :
    ReplayCall → Option (SecureDatagramDirection × Nat × Nat) × SecureDatagramSession C
  | .precheck epoch seq dir now_ms => (none, (s.precheck_replay epoch seq dir now_ms).2)
  | .commit epoch seq dir now_ms =>
    let committed := s.commit_replay epoch seq dir now_ms
    (if committed.1 then some (dir, epoch, seq) else none, committed.2)
  | .rotate send_epoch _ => (none, { s with send_epoch := send_epoch })

/-- What follows the opening when a packet is entered. -/
def enter (opened : Bool × SecureDatagramSession C) (epoch seq : Nat) (dir : SecureDatagramDirection) (now_ms : Nat) :
    Bool × SecureDatagramSession C :=
  if opened.1 && epoch_in_slots (opened.2.sync_rx_grace.slots.get dir) epoch then
    let committed := commit_grace (opened.2.sync_rx_grace.slots.get dir) epoch seq now_ms
    let grace := { opened.2.sync_rx_grace with slots := opened.2.sync_rx_grace.slots.set dir committed.2 }
    (committed.1, { opened.2 with sync_rx_grace := grace }.prune_key_cache (some grace))
  else
    let committed := commit_rx opened.2.send_epoch (opened.2.rx_slots.get dir) epoch seq now_ms
    let s := { opened.2 with rx_slots := opened.2.rx_slots.set dir committed.2 }
    (committed.1, s.prune_key_cache (if opened.1 then some s.sync_rx_grace else none))

theorem commit_replay_eq (s : SecureDatagramSession C) (epoch seq : Nat) (dir : SecureDatagramDirection) (now_ms : Nat) :
    s.commit_replay epoch seq dir now_ms = enter (s.open_rx now_ms) epoch seq dir now_ms := rfl

theorem precheck_replay_snd (s : SecureDatagramSession C) (epoch seq : Nat) (dir : SecureDatagramDirection) (now_ms : Nat) :
    (s.precheck_replay epoch seq dir now_ms).2 = (s.open_rx now_ms).2 := by
  rw [precheck_replay]
  split_ifs <;> rfl

theorem enter_alike {s s' : SecureDatagramSession C} {b : Bool} (h : Alike s s')
    (hb : b = true → s.sync_rx_grace_expires_at_ms ≠ 0) (epoch seq : Nat) (dir : SecureDatagramDirection) (now_ms : Nat) :
    (enter (b, s) epoch seq dir now_ms).1 = (enter (b, s') epoch seq dir now_ms).1 ∧
      Alike (enter (b, s) epoch seq dir now_ms).2 (enter (b, s') epoch seq dir now_ms).2 := by
  obtain ⟨g, rfl, hg⟩ := h
  cases b with
  | true =>
    rw [hg (hb rfl)]
    exact ⟨rfl, Alike.refl _⟩
  | false => exact ⟨rfl, g, rfl, hg⟩

theorem commit_alike {s s' : SecureDatagramSession C} {now_ms : Nat} (h : OpenAlike now_ms s s') (epoch seq : Nat)
    (dir : SecureDatagramDirection) :
    (s.commit_replay epoch seq dir now_ms).1 = (s'.commit_replay epoch seq dir now_ms).1 ∧
      Alike (s.commit_replay epoch seq dir now_ms).2 (s'.commit_replay epoch seq dir now_ms).2 := by
  have hs' : s'.open_rx now_ms = ((s.open_rx now_ms).1, (s'.open_rx now_ms).2) := by
    rw [h.1]
  rw [commit_replay_eq, commit_replay_eq, hs']
  exact enter_alike h.2 expires_of_open epoch seq dir now_ms

/-- The sessions open alike from some time on. -/
def AlikeFrom (now_ms : Nat) (s s' : SecureDatagramSession C) : Prop := ∀ later, now_ms ≤ later → OpenAlike later s s'

theorem passed_alike (calls : List ReplayCall) : ∀ (s s' : SecureDatagramSession C) (t : Nat), AlikeFrom t s s' →
    (∀ c ∈ calls, t ≤ c.now_ms) → calls.Pairwise (fun c c' => c.now_ms ≤ c'.now_ms) →
    passed call s calls = passed call s' (calls.filter ReplayCall.counts) := by
  induction calls with
  | nil => exact fun _ _ _ _ _ _ => rfl
  | cons c calls ih =>
    intro s s' t hst ht hclock
    obtain ⟨hlater, hclock'⟩ := List.pairwise_cons.mp hclock
    have hnow : t ≤ c.now_ms := ht c List.mem_cons_self
    cases c with
    | precheck epoch seq dir now_ms =>
      rw [List.filter_cons_of_neg (by simp [ReplayCall.counts])]
      show passed call (s.precheck_replay epoch seq dir now_ms).2 calls = _
      rw [precheck_replay_snd]
      refine ih _ s' now_ms (fun later hle => ?_) hlater hclock'
      exact (open_open s hle).trans (hst later (Nat.le_trans hnow hle))
    | commit epoch seq dir now_ms =>
      rw [List.filter_cons_of_pos rfl, passed, passed]
      have halike := commit_alike (hst now_ms hnow) epoch seq dir
      congr 1
      · show Option.toList (if (s.commit_replay epoch seq dir now_ms).1 then _ else _) = _
        rw [halike.1]
        rfl
      · exact ih _ _ now_ms (fun later _ => halike.2.opened later) hlater hclock'
    | rotate send_epoch now_ms =>
      rw [List.filter_cons_of_pos rfl, passed, passed]
      refine congrArg (List.append []) (ih _ _ now_ms (fun later hle => ?_) hlater hclock')
      exact (hst later (Nat.le_trans hnow hle)).rotated send_epoch

theorem accept_new_slot (epoch seq now_ms : Nat) : (accept (new_slot epoch now_ms) seq now_ms).1 = true := rfl

theorem precheck_grace_eq (slots : RxSlots) (epoch seq now_ms : Nat) :
    precheck_grace slots epoch seq = (commit_grace slots epoch seq now_ms).1 := by
  rw [precheck_grace, commit_grace]
  split_ifs
  · exact (ReplayWindow256.accept_eq_can_accept ..).symm
  · exact (ReplayWindow256.accept_eq_can_accept ..).symm

theorem precheck_rx_eq (send_epoch : Nat) (rx : RxSlots) (epoch seq now_ms : Nat) :
    precheck_rx send_epoch rx epoch seq = (commit_rx send_epoch rx epoch seq now_ms).1 := by
  rw [precheck_rx, commit_rx]
  by_cases hv : rx.slot0.valid = true
  · simp only [hv, Bool.not_true, Bool.false_eq_true, if_false]
    by_cases he : epoch = rx.slot0.epoch
    · rw [if_pos he, if_pos he]
      exact (ReplayWindow256.accept_eq_can_accept ..).symm
    · rw [if_neg he, if_neg he]
      by_cases h1 : is_epoch rx.slot1 epoch = true
      · rw [if_pos h1, if_pos h1]
        exact (ReplayWindow256.accept_eq_can_accept ..).symm
      · rw [if_neg h1, if_neg h1]
        by_cases hlt : rx.slot0.epoch < epoch
        · rw [if_pos hlt, if_pos hlt]
          by_cases hfar : max_allowed_epoch send_epoch rx < epoch
          · rw [if_pos hfar]
            exact decide_eq_false (Nat.not_le.mpr hfar)
          · rw [if_neg hfar]
            exact (decide_eq_true (Nat.not_lt.mp hfar)).trans (accept_new_slot epoch seq now_ms).symm
        · rw [if_neg hlt, if_neg hlt]
  · rw [Bool.not_eq_true] at hv
    have hepoch : epoch = (new_slot epoch now_ms).epoch := rfl
    simp only [hv, Bool.not_false, if_true, if_pos hepoch]
    exact (accept_new_slot epoch seq now_ms).symm

/-- A check answers what entering the packet then would answer. -/
theorem precheck_replay_fst (s : SecureDatagramSession C) (epoch seq : Nat) (dir : SecureDatagramDirection) (now_ms : Nat) :
    (s.precheck_replay epoch seq dir now_ms).1 = (s.commit_replay epoch seq dir now_ms).1 := by
  rw [precheck_replay, commit_replay_eq, enter]
  cases (s.open_rx now_ms).1 && epoch_in_slots ((s.open_rx now_ms).2.sync_rx_grace.slots.get dir) epoch with
  | true => exact precheck_grace_eq _ epoch seq now_ms
  | false => exact precheck_rx_eq _ _ epoch seq now_ms

/-! ## Once only -/

/-- The two windows of a direction stand in the way of a packet. -/
def Behind (rx : RxSlots) (epoch seq : Nat) : Prop :=
  rx.slot0.valid = true ∧ epoch ≤ rx.slot0.epoch ∧
    (epoch = rx.slot0.epoch → rx.slot0.window.can_accept seq = false) ∧
    (epoch ≠ rx.slot0.epoch → is_epoch rx.slot1 epoch = true → rx.slot1.window.can_accept seq = false)

theorem Behind.evicted {rx : RxSlots} {epoch seq now_ms : Nat} (h : Behind rx epoch seq) (h0 : idle rx.slot0 now_ms = false) :
    Behind (evict rx now_ms) epoch seq := by
  rw [evict, h0]
  refine ⟨h.1, h.2.1, h.2.2.1, fun hne hepoch => ?_⟩
  by_cases h1 : idle rx.slot1 now_ms = true
  · rw [if_pos h1] at hepoch
    cases hepoch
  · rw [if_neg h1] at hepoch ⊢
    exact h.2.2.2 hne hepoch

/-- What entering a packet does to the windows of its direction: they take it, or they are
those of before, or there is a first or a new one. -/
theorem commit_rx_cases (send_epoch : Nat) (rx : RxSlots) (epoch seq now_ms : Nat) :
    (rx.slot0.valid = false ∧ commit_rx send_epoch rx epoch seq now_ms =
      (true, { rx with slot0 := (accept (new_slot epoch now_ms) seq now_ms).2 })) ∨
    (rx.slot0.valid = true ∧ epoch = rx.slot0.epoch ∧ commit_rx send_epoch rx epoch seq now_ms =
      ((accept rx.slot0 seq now_ms).1, { rx with slot0 := (accept rx.slot0 seq now_ms).2 })) ∨
    (rx.slot0.valid = true ∧ epoch ≠ rx.slot0.epoch ∧ is_epoch rx.slot1 epoch = true ∧
      commit_rx send_epoch rx epoch seq now_ms =
        ((accept rx.slot1 seq now_ms).1, { rx with slot1 := (accept rx.slot1 seq now_ms).2 })) ∨
    (rx.slot0.valid = true ∧ rx.slot0.epoch < epoch ∧ is_epoch rx.slot1 epoch = false ∧
      commit_rx send_epoch rx epoch seq now_ms = (true, ⟨(accept (new_slot epoch now_ms) seq now_ms).2, rx.slot0⟩)) ∨
    (rx.slot0.valid = true ∧ commit_rx send_epoch rx epoch seq now_ms = (false, rx)) := by
  rw [commit_rx]
  by_cases hv : rx.slot0.valid = true
  · have hnew : (!rx.slot0.valid) = false := by rw [hv]; rfl
    simp only [hnew, Bool.false_eq_true, if_false]
    by_cases he : epoch = rx.slot0.epoch
    · exact .inr (.inl ⟨hv, he, if_pos he⟩)
    · rw [if_neg he]
      by_cases h1 : is_epoch rx.slot1 epoch = true
      · exact .inr (.inr (.inl ⟨hv, he, h1, if_pos h1⟩))
      · rw [if_neg h1]
        by_cases hlt : rx.slot0.epoch < epoch
        · rw [if_pos hlt]
          by_cases hfar : max_allowed_epoch send_epoch rx < epoch
          · exact .inr (.inr (.inr (.inr ⟨hv, if_pos hfar⟩)))
          · exact .inr (.inr (.inr (.inl ⟨hv, hlt, Bool.eq_false_of_not_eq_true h1, if_neg hfar⟩)))
        · exact .inr (.inr (.inr (.inr ⟨hv, if_neg hlt⟩)))
  · have hv' := Bool.eq_false_of_not_eq_true hv
    have hnew : (!rx.slot0.valid) = true := by rw [hv']; rfl
    have hepoch : epoch = (new_slot epoch now_ms).epoch := rfl
    simp only [hnew, if_true, if_pos hepoch]
    exact .inl ⟨hv', rfl⟩

theorem accept_slot_keeps {slot : EpochRxSlot} {m : Nat} (seq now_ms : Nat) (h : slot.window.can_accept m = false) :
    (accept slot seq now_ms).2.window.can_accept m = false := ReplayWindow256.refused_stays seq h

theorem Behind.committed {rx : RxSlots} {e q : Nat} (h : Behind rx e q) (send_epoch epoch seq now_ms : Nat) :
    Behind (commit_rx send_epoch rx epoch seq now_ms).2 e q := by
  obtain ⟨hv, hle, h0, h1⟩ := h
  rcases commit_rx_cases send_epoch rx epoch seq now_ms with
    ⟨hv', -⟩ | ⟨-, -, heq⟩ | ⟨-, -, -, heq⟩ | ⟨-, hlt, -, heq⟩ | ⟨-, heq⟩
  · rw [hv] at hv'
    cases hv'
  · rw [heq]
    exact ⟨hv, hle, fun he => accept_slot_keeps seq now_ms (h0 he), h1⟩
  · rw [heq]
    exact ⟨hv, hle, h0, fun hne he => accept_slot_keeps seq now_ms (h1 hne he)⟩
  · rw [heq]
    refine ⟨rfl, ?_, fun he => ?_, fun _ he => ?_⟩
    · show e ≤ epoch
      omega
    · have he' : e = epoch := he
      omega
    · simp only [is_epoch, Bool.and_eq_true, beq_iff_eq] at he
      exact h0 he.2.symm
  · rw [heq]
    exact ⟨hv, hle, h0, h1⟩

/-- The second window is for an earlier epoch than the first. -/
def InOrder (rx : RxSlots) : Prop := rx.slot1.valid = true → rx.slot0.valid = true ∧ rx.slot1.epoch < rx.slot0.epoch

theorem InOrder.committed {rx : RxSlots} (h : InOrder rx) (send_epoch epoch seq now_ms : Nat) :
    InOrder (commit_rx send_epoch rx epoch seq now_ms).2 := by
  rcases commit_rx_cases send_epoch rx epoch seq now_ms with
    ⟨hv, heq⟩ | ⟨-, -, heq⟩ | ⟨-, -, -, heq⟩ | ⟨-, hlt, -, heq⟩ | ⟨-, heq⟩
  · rw [heq]
    intro h1
    have hv' := (h h1).1
    rw [hv] at hv'
    cases hv'
  · rw [heq]
    exact h
  · rw [heq]
    exact h
  · rw [heq]
    exact fun _ => ⟨rfl, hlt⟩
  · rw [heq]
    exact h

theorem InOrder.evicted {rx : RxSlots} (h : InOrder rx) {now_ms : Nat} (h0 : idle rx.slot0 now_ms = false) :
    InOrder (evict rx now_ms) := by
  rw [evict, h0]
  by_cases h1 : idle rx.slot1 now_ms = true
  · rw [if_pos h1]
    intro hv
    cases hv
  · rw [if_neg h1]
    exact h

theorem commit_rx_passes {send_epoch : Nat} {rx : RxSlots} {epoch seq now_ms : Nat} (hord : InOrder rx)
    (h : (commit_rx send_epoch rx epoch seq now_ms).1 = true) :
    ¬ Behind rx epoch seq ∧ Behind (commit_rx send_epoch rx epoch seq now_ms).2 epoch seq := by
  rcases commit_rx_cases send_epoch rx epoch seq now_ms with
    ⟨hv, heq⟩ | ⟨hv, he, heq⟩ | ⟨hv, hne, h1, heq⟩ | ⟨hv, hlt, h1, heq⟩ | ⟨-, heq⟩
  · rw [heq]
    refine ⟨fun hb => ?_, rfl, Nat.le_refl _, fun _ => ?_, fun hne => absurd rfl hne⟩
    · have hv' := hb.1
      rw [hv] at hv'
      cases hv'
    · exact ReplayWindow256.refused_after rfl
  · rw [heq] at h ⊢
    refine ⟨fun hb => ?_, hv, Nat.le_of_eq he, fun _ => ReplayWindow256.refused_after h, fun hne => absurd he hne⟩
    have hacc := (ReplayWindow256.accept_eq_can_accept rx.slot0.window seq).symm.trans h
    rw [hb.2.2.1 he] at hacc
    cases hacc
  · rw [heq] at h ⊢
    have hnot : ¬ Behind rx epoch seq := by
      intro hb
      have hacc := (ReplayWindow256.accept_eq_can_accept rx.slot1.window seq).symm.trans h
      rw [hb.2.2.2 hne h1] at hacc
      cases hacc
    refine ⟨hnot, hv, ?_, fun he => absurd he hne, fun _ _ => ReplayWindow256.refused_after h⟩
    simp only [is_epoch, Bool.and_eq_true, beq_iff_eq] at h1
    have hlt := (hord h1.1).2
    show epoch ≤ rx.slot0.epoch
    omega
  · rw [heq]
    refine ⟨fun hb => ?_, rfl, Nat.le_refl _, fun _ => ReplayWindow256.refused_after rfl, fun hne => absurd rfl hne⟩
    have hle := hb.2.1
    omega
  · rw [heq] at h
    cases h

theorem commit_grace_passes {slots : RxSlots} {epoch seq now_ms : Nat}
    (h : (commit_grace slots epoch seq now_ms).1 = true) :
    precheck_grace slots epoch seq = true ∧ precheck_grace (commit_grace slots epoch seq now_ms).2 epoch seq = false := by
  refine ⟨(precheck_grace_eq slots epoch seq now_ms).trans h, ?_⟩
  rw [commit_grace] at h ⊢
  by_cases h0 : is_epoch slots.slot0 epoch = true
  · rw [if_pos h0] at h ⊢
    exact (if_pos h0).trans (ReplayWindow256.refused_after h)
  · rw [if_neg h0] at h ⊢
    exact (if_neg h0).trans (ReplayWindow256.refused_after h)

theorem epoch_in_commit_grace (slots : RxSlots) (epoch seq now_ms e : Nat) :
    epoch_in_slots (commit_grace slots epoch seq now_ms).2 e = epoch_in_slots slots e := by
  rw [commit_grace]
  split_ifs <;> rfl

theorem commit_grace_keeps {slots : RxSlots} {e q : Nat} (epoch seq now_ms : Nat) (h : precheck_grace slots e q = false) :
    precheck_grace (commit_grace slots epoch seq now_ms).2 e q = false := by
  rw [precheck_grace] at h
  rw [commit_grace]
  by_cases h0 : is_epoch slots.slot0 epoch = true
  · rw [if_pos h0, precheck_grace]
    by_cases he : is_epoch slots.slot0 e = true
    · rw [if_pos he] at h
      exact (if_pos he).trans (accept_slot_keeps seq now_ms h)
    · rw [if_neg he] at h
      exact (if_neg he).trans h
  · rw [if_neg h0, precheck_grace]
    by_cases he : is_epoch slots.slot0 e = true
    · rw [if_pos he] at h
      exact (if_pos he).trans h
    · rw [if_neg he] at h
      exact (if_neg he).trans (accept_slot_keeps seq now_ms h)

/-- The grace windows of a direction, if the session has any. -/
def grace_of (s : SecureDatagramSession C) (dir : SecureDatagramDirection) : Option RxSlots :=
  if s.sync_rx_grace_expires_at_ms ≠ 0 ∧ s.sync_rx_grace.valid = true then some (s.sync_rx_grace.slots.get dir) else none

/-- No window of the direction that is in use is dropped at this time: the one of the highest
epoch is not idle, and the grace windows have not run out and are not idle. -/
structure WindowsKept (dir : SecureDatagramDirection) (s : SecureDatagramSession C) (now_ms : Nat) : Prop where
  used : idle (s.rx_slots.get dir).slot0 now_ms = false
  graced : s.grace_of dir ≠ none → s.graced now_ms = true
  grace_used : ∀ slots, s.grace_of dir = some slots → idle slots.slot0 now_ms = false ∧ idle slots.slot1 now_ms = false

theorem kept_iff {dir : SecureDatagramDirection} {s : SecureDatagramSession C} {now_ms : Nat} :
    (idle (s.rx_slots.get dir).slot0 now_ms = false ∧ (s.grace_of dir ≠ none → s.graced now_ms = true) ∧
      (s.grace_of dir).all (fun slots => !idle slots.slot0 now_ms && !idle slots.slot1 now_ms) = true) ↔ WindowsKept dir s now_ms := by
  constructor
  · rintro ⟨hused, hgraced, hall⟩
    refine ⟨hused, hgraced, fun slots hslots => ?_⟩
    rw [hslots] at hall
    simpa using hall
  · rintro ⟨hused, hgraced, hgrace⟩
    refine ⟨hused, hgraced, ?_⟩
    cases hg : s.grace_of dir with
    | none => rfl
    | some slots => simpa using hgrace slots hg

instance (dir : SecureDatagramDirection) (s : SecureDatagramSession C) (now_ms : Nat) : Decidable (WindowsKept dir s now_ms) :=
  decidable_of_iff _ kept_iff

/-- A packet that the windows of its direction refuse. -/
def Refused (grace : Option RxSlots) (rx : RxSlots) (epoch seq : Nat) : Prop :=
  (∃ slots, grace = some slots ∧ epoch_in_slots slots epoch = true ∧ precheck_grace slots epoch seq = false) ∨
  ((∀ slots, grace = some slots → epoch_in_slots slots epoch = false) ∧ Behind rx epoch seq)

section
variable {s : SecureDatagramSession C} {dir : SecureDatagramDirection} {now_ms : Nat}

theorem grace_of_graced (h : s.graced now_ms = true) : s.grace_of dir = some (s.sync_rx_grace.slots.get dir) := by
  simp only [SecureDatagramSession.graced, Bool.and_eq_true, decide_eq_true_eq] at h
  exact if_pos ⟨h.1.1.1, h.1.2⟩

/-- Opening leaves the grace windows of the direction as they are. -/
theorem grace_of_open (h : WindowsKept dir s now_ms) : (s.open_rx now_ms).2.grace_of dir = s.grace_of dir := by
  by_cases hg : s.graced now_ms = true
  · have hslots := h.grace_used _ (grace_of_graced hg)
    have hevict : evict (s.sync_rx_grace.slots.get dir) now_ms = s.sync_rx_grace.slots.get dir := by
      rw [evict, hslots.1, hslots.2]
      rfl
    have hexp := expires_of_open ((open_rx_fst s now_ms).trans hg)
    have hvalid : (s.open_rx now_ms).2.sync_rx_grace.valid = true := by
      rw [open_rx_snd]
      show (s.opened_grace now_ms).valid = true
      rw [opened_grace_of_graced hg]
      simp only [SecureDatagramSession.graced, Bool.and_eq_true] at hg
      exact hg.1.2
    rw [grace_of, if_pos ⟨hexp, hvalid⟩, grace_of_graced hg, open_rx_snd]
    show some ((s.opened_grace now_ms).slots.get dir) = _
    rw [opened_grace_of_graced hg]
    show some ((evict_old_rx_slots s.sync_rx_grace.slots now_ms).get dir) = _
    rw [evict_old_rx_slots, PerDirection.get_map, hevict]
  · have hnone : s.grace_of dir = none := by
      by_contra hne
      exact hg (h.graced hne)
    rw [hnone, grace_of, open_rx_snd, if_neg hg]
    exact if_neg (fun hn => hn.1 rfl)

theorem graced_iff_grace_of (h : WindowsKept dir s now_ms) : s.graced now_ms = (s.grace_of dir).isSome := by
  by_cases hg : s.graced now_ms = true
  · rw [hg, grace_of_graced hg]
    rfl
  · have hnone : s.grace_of dir = none := by
      by_contra hne
      exact hg (h.graced hne)
    rw [hnone, Bool.eq_false_of_not_eq_true hg]
    rfl

theorem rx_of_open : (s.open_rx now_ms).2.rx_slots.get dir = evict (s.rx_slots.get dir) now_ms := by
  rw [open_rx_snd]
  exact PerDirection.get_map ..

theorem enter_other {o : Bool × SecureDatagramSession C} {other : SecureDatagramDirection} (h : dir ≠ other) (epoch seq : Nat) :
    (enter o epoch seq other now_ms).2.grace_of dir = o.2.grace_of dir ∧
      (enter o epoch seq other now_ms).2.rx_slots.get dir = o.2.rx_slots.get dir := by
  rw [enter]
  cases o.1 && epoch_in_slots (o.2.sync_rx_grace.slots.get other) epoch with
  | true =>
    refine ⟨?_, rfl⟩
    show (if _ then some ((o.2.sync_rx_grace.slots.set other _).get dir) else none) = _
    rw [PerDirection.get_set, if_neg h]
    rfl
  | false =>
    refine ⟨rfl, ?_⟩
    show (o.2.rx_slots.set other _).get dir = _
    rw [PerDirection.get_set, if_neg h]

theorem enter_grace {o : Bool × SecureDatagramSession C} {slots : RxSlots} (ho : o.1 = (o.2.grace_of dir).isSome) {epoch : Nat}
    (hslots : o.2.grace_of dir = some slots) (he : epoch_in_slots slots epoch = true) (seq : Nat) :
    (enter o epoch seq dir now_ms).1 = (commit_grace slots epoch seq now_ms).1 ∧
      (enter o epoch seq dir now_ms).2.grace_of dir = some (commit_grace slots epoch seq now_ms).2 ∧
      (enter o epoch seq dir now_ms).2.rx_slots.get dir = o.2.rx_slots.get dir := by
  rw [hslots] at ho
  rw [grace_of] at hslots
  split_ifs at hslots with hvalid
  rw [Option.some.injEq] at hslots
  have hcond : (o.1 && epoch_in_slots (o.2.sync_rx_grace.slots.get dir) epoch) = true := by
    rw [ho, hslots, he]
    rfl
  rw [enter, if_pos hcond, hslots]
  refine ⟨rfl, ?_, rfl⟩
  rw [grace_of]
  refine (if_pos hvalid).trans ?_
  show some ((o.2.sync_rx_grace.slots.set dir _).get dir) = _
  rw [PerDirection.get_set_self]

theorem enter_rx {o : Bool × SecureDatagramSession C} (ho : o.1 = (o.2.grace_of dir).isSome) {epoch : Nat}
    (hslots : ∀ slots, o.2.grace_of dir = some slots → epoch_in_slots slots epoch = false) (seq : Nat) :
    (enter o epoch seq dir now_ms).1 = (commit_rx o.2.send_epoch (o.2.rx_slots.get dir) epoch seq now_ms).1 ∧
      (enter o epoch seq dir now_ms).2.grace_of dir = o.2.grace_of dir ∧
      (enter o epoch seq dir now_ms).2.rx_slots.get dir =
        (commit_rx o.2.send_epoch (o.2.rx_slots.get dir) epoch seq now_ms).2 := by
  have hcond : (o.1 && epoch_in_slots (o.2.sync_rx_grace.slots.get dir) epoch) = false := by
    rw [ho]
    cases hg : o.2.grace_of dir with
    | none => rfl
    | some slots =>
      have hin := hslots slots hg
      rw [grace_of] at hg
      split_ifs at hg with hvalid
      rw [Option.some.injEq] at hg
      rw [hg, hin]
      rfl
  rw [enter, hcond]
  refine ⟨rfl, rfl, ?_⟩
  show (o.2.rx_slots.set dir _).get dir = _
  rw [PerDirection.get_set_self]

/-- A packet is entered in the grace windows, if they are for its epoch, or in the others. -/
theorem enter_split {o : Bool × SecureDatagramSession C} (ho : o.1 = (o.2.grace_of dir).isSome) (epoch seq : Nat) :
    (∃ slots, o.2.grace_of dir = some slots ∧ epoch_in_slots slots epoch = true ∧
      (enter o epoch seq dir now_ms).1 = (commit_grace slots epoch seq now_ms).1 ∧
      (enter o epoch seq dir now_ms).2.grace_of dir = some (commit_grace slots epoch seq now_ms).2 ∧
      (enter o epoch seq dir now_ms).2.rx_slots.get dir = o.2.rx_slots.get dir) ∨
    ((∀ slots, o.2.grace_of dir = some slots → epoch_in_slots slots epoch = false) ∧
      (enter o epoch seq dir now_ms).1 = (commit_rx o.2.send_epoch (o.2.rx_slots.get dir) epoch seq now_ms).1 ∧
      (enter o epoch seq dir now_ms).2.grace_of dir = o.2.grace_of dir ∧
      (enter o epoch seq dir now_ms).2.rx_slots.get dir =
        (commit_rx o.2.send_epoch (o.2.rx_slots.get dir) epoch seq now_ms).2) := by
  by_cases h : ∃ slots, o.2.grace_of dir = some slots ∧ epoch_in_slots slots epoch = true
  · obtain ⟨slots, hslots, he⟩ := h
    exact .inl ⟨slots, hslots, he, enter_grace ho hslots he seq⟩
  · have hno : ∀ slots, o.2.grace_of dir = some slots → epoch_in_slots slots epoch = false := by
      intro slots hslots
      exact Bool.eq_false_of_not_eq_true fun he => h ⟨slots, hslots, he⟩
    exact .inr ⟨hno, enter_rx ho hno seq⟩

theorem enter_passes {o : Bool × SecureDatagramSession C} (ho : o.1 = (o.2.grace_of dir).isSome)
    (hord : InOrder (o.2.rx_slots.get dir)) {epoch seq : Nat} (h : (enter o epoch seq dir now_ms).1 = true) :
    ¬ Refused (o.2.grace_of dir) (o.2.rx_slots.get dir) epoch seq ∧
      Refused ((enter o epoch seq dir now_ms).2.grace_of dir) ((enter o epoch seq dir now_ms).2.rx_slots.get dir) epoch seq := by
  rcases enter_split ho epoch seq with ⟨slots, hslots, he, hacc, hgrace, -⟩ | ⟨hno, hacc, hgrace, hrx⟩
  · rw [hacc] at h
    obtain ⟨hbefore, hafter⟩ := commit_grace_passes h
    refine ⟨?_, .inl ⟨_, hgrace, (epoch_in_commit_grace ..).trans he, hafter⟩⟩
    rintro (⟨slots', hslots', -, hr⟩ | ⟨hno, -⟩)
    · rw [hslots, Option.some.injEq] at hslots'
      rw [← hslots', hbefore] at hr
      cases hr
    · rw [hno slots hslots] at he
      cases he
  · rw [hacc] at h
    obtain ⟨hbefore, hafter⟩ := commit_rx_passes hord h
    refine ⟨?_, .inr ⟨fun slots hs => hno slots (hgrace ▸ hs), hrx ▸ hafter⟩⟩
    rintro (⟨slots, hslots, he, -⟩ | ⟨-, hb⟩)
    · rw [hno slots hslots] at he
      cases he
    · exact hbefore hb

theorem enter_keeps {o : Bool × SecureDatagramSession C} (ho : o.1 = (o.2.grace_of dir).isSome) {e q : Nat}
    (hr : Refused (o.2.grace_of dir) (o.2.rx_slots.get dir) e q) (epoch seq : Nat) :
    Refused ((enter o epoch seq dir now_ms).2.grace_of dir) ((enter o epoch seq dir now_ms).2.rx_slots.get dir) e q := by
  rcases enter_split ho epoch seq with ⟨slots, hslots, he, -, hgrace, hrx⟩ | ⟨hno, -, hgrace, hrx⟩
  · rw [hgrace, hrx]
    rcases hr with ⟨slots', hslots', he', hr⟩ | ⟨hno, hb⟩
    · rw [hslots, Option.some.injEq] at hslots'
      subst hslots'
      exact .inl ⟨_, rfl, (epoch_in_commit_grace ..).trans he', commit_grace_keeps epoch seq now_ms hr⟩
    · refine .inr ⟨?_, hb⟩
      rintro _ ⟨⟩
      rw [epoch_in_commit_grace]
      exact hno slots hslots
  · rw [hgrace, hrx]
    rcases hr with hr | ⟨hno', hb⟩
    · exact .inl hr
    · exact .inr ⟨hno', hb.committed _ epoch seq now_ms⟩

theorem enter_inOrder {o : Bool × SecureDatagramSession C} (ho : o.1 = (o.2.grace_of dir).isSome)
    (hord : InOrder (o.2.rx_slots.get dir)) (epoch seq : Nat) :
    InOrder ((enter o epoch seq dir now_ms).2.rx_slots.get dir) := by
  rcases enter_split ho epoch seq with ⟨slots, hslots, he, -, -, hrx⟩ | ⟨hno, -, -, hrx⟩
  · rw [hrx]
    exact hord
  · rw [hrx]
    exact hord.committed _ epoch seq now_ms

theorem refused_open (h : WindowsKept dir s now_ms) {e q : Nat} (hr : Refused (s.grace_of dir) (s.rx_slots.get dir) e q) :
    Refused ((s.open_rx now_ms).2.grace_of dir) ((s.open_rx now_ms).2.rx_slots.get dir) e q := by
  rw [grace_of_open h, rx_of_open]
  rcases hr with hr | ⟨hno, hb⟩
  · exact .inl hr
  · exact .inr ⟨hno, hb.evicted h.used⟩

theorem opened_isSome (h : WindowsKept dir s now_ms) : (s.open_rx now_ms).1 = ((s.open_rx now_ms).2.grace_of dir).isSome := by
  rw [grace_of_open h, open_rx_fst]
  exact graced_iff_grace_of h

theorem inOrder_open (h : WindowsKept dir s now_ms) (hord : InOrder (s.rx_slots.get dir)) :
    InOrder ((s.open_rx now_ms).2.rx_slots.get dir) := by
  rw [rx_of_open]
  exact hord.evicted h.used

theorem kept_open (h : WindowsKept dir s now_ms) : WindowsKept dir (s.open_rx now_ms).2 now_ms where
  used := by
    rw [rx_of_open, evict, h.used]
    exact h.used
  graced := fun hne => by
    rw [grace_of_open h] at hne
    rw [graced_open_rx s (Nat.le_refl _)]
    exact h.graced hne
  grace_used := fun slots hslots => by
    rw [grace_of_open h] at hslots
    exact h.grace_used slots hslots

end

/-- The packets of one direction that a call lets through. -/
def received (dir : SecureDatagramDirection) (s : SecureDatagramSession C) (c : ReplayCall) :
    Option (Nat × Nat) × SecureDatagramSession C :=
  ((s.call c).1.bind fun k => if k.1 = dir then some k.2 else none, (s.call c).2)

theorem received_commit {dir other : SecureDatagramDirection} {s : SecureDatagramSession C} {epoch seq now_ms : Nat} {k : Nat × Nat}
    (h : (received dir s (.commit epoch seq other now_ms)).1 = some k) :
    other = dir ∧ k = (epoch, seq) ∧ (enter (s.open_rx now_ms) epoch seq other now_ms).1 = true := by
  change ((if (enter (s.open_rx now_ms) epoch seq other now_ms).1 then some (other, epoch, seq) else none).bind
    fun k => if k.1 = dir then some k.2 else none) = some k at h
  by_cases hacc : (enter (s.open_rx now_ms) epoch seq other now_ms).1 = true
  · rw [if_pos hacc, Option.bind_some] at h
    by_cases hdir : other = dir
    · rw [if_pos hdir, Option.some.injEq] at h
      exact ⟨hdir, h.symm, hacc⟩
    · rw [if_neg hdir] at h
      cases h
  · rw [if_neg hacc] at h
    cases h

/-- The windows in use are kept at every check. -/
def KeptBy (dir : SecureDatagramDirection) (s : SecureDatagramSession C) : ReplayCall → Prop
  | .rotate _ _ => True
  | c => WindowsKept dir s c.now_ms

instance (dir : SecureDatagramDirection) (s : SecureDatagramSession C) : ∀ c, Decidable (KeptBy dir s c)
  | .rotate _ _ => .isTrue trivial
  | .precheck _ _ _ now_ms => inferInstanceAs (Decidable (WindowsKept dir s now_ms))
  | .commit _ _ _ now_ms => inferInstanceAs (Decidable (WindowsKept dir s now_ms))

theorem bars (dir : SecureDatagramDirection) :
    Bars (fun s : SecureDatagramSession C => InOrder (s.rx_slots.get dir)) (KeptBy dir) (received dir)
      (fun s k => Refused (s.grace_of dir) (s.rx_slots.get dir) k.1 k.2) where
  inv_step := fun s c hord hkept => by
    cases c with
    | precheck epoch seq other now_ms =>
      show InOrder ((s.precheck_replay epoch seq other now_ms).2.rx_slots.get dir)
      rw [precheck_replay_snd]
      exact inOrder_open hkept hord
    | commit epoch seq other now_ms =>
      show InOrder ((enter (s.open_rx now_ms) epoch seq other now_ms).2.rx_slots.get dir)
      by_cases hdir : dir = other
      · subst hdir
        exact enter_inOrder (opened_isSome hkept) (inOrder_open hkept hord) epoch seq
      · rw [(enter_other hdir epoch seq).2]
        exact inOrder_open hkept hord
    | rotate send_epoch now_ms => exact hord
  passes := fun s c k hord hkept hpass => by
    cases c with
    | precheck epoch seq other now_ms => cases hpass
    | rotate send_epoch now_ms => cases hpass
    | commit epoch seq other now_ms =>
      obtain ⟨rfl, rfl, hacc⟩ := received_commit hpass
      obtain ⟨hbefore, hafter⟩ := enter_passes (opened_isSome hkept) (inOrder_open hkept hord) hacc
      exact ⟨fun hr => hbefore (refused_open hkept hr), hafter⟩
  keeps := fun s c k hord hkept hr => by
    cases c with
    | precheck epoch seq other now_ms =>
      show Refused ((s.precheck_replay epoch seq other now_ms).2.grace_of dir)
        ((s.precheck_replay epoch seq other now_ms).2.rx_slots.get dir) k.1 k.2
      rw [precheck_replay_snd]
      exact refused_open hkept hr
    | commit epoch seq other now_ms =>
      show Refused ((enter (s.open_rx now_ms) epoch seq other now_ms).2.grace_of dir)
        ((enter (s.open_rx now_ms) epoch seq other now_ms).2.rx_slots.get dir) k.1 k.2
      by_cases hdir : dir = other
      · subst hdir
        exact enter_keeps (opened_isSome hkept) (refused_open hkept hr) epoch seq
      · rw [(enter_other hdir epoch seq).1, (enter_other hdir epoch seq).2]
        exact refused_open hkept hr
    | rotate send_epoch now_ms => exact hr

theorem inOrder_default : InOrder .default := fun h => by cases h

theorem inOrder_new (root_key : List Bits.Byte) (session_generation initial_epoch : Nat) (send_algorithm recv_algorithm : String)
    (now_ms : Nat) (dir : SecureDatagramDirection) :
    InOrder ((new root_key session_generation initial_epoch send_algorithm recv_algorithm now_ms :
      SecureDatagramSession C).rx_slots.get dir) := by
  cases dir <;> exact inOrder_default

theorem inOrder_sync_root_key (s : SecureDatagramSession C) (root_key : List Bits.Byte) (session_generation initial_epoch : Nat)
    (preserve_rx_grace : Bool) (started_ms now_ms : Nat) (dir : SecureDatagramDirection) :
    InOrder ((s.sync_root_key root_key session_generation initial_epoch preserve_rx_grace started_ms now_ms).rx_slots.get dir) := by
  cases dir <;> exact inOrder_default

/-- Between two syncs a packet of a direction is let through once, however the calls come,
as long as no window of the direction that is in use is dropped. -/
theorem received_once {s : SecureDatagramSession C} {dir : SecureDatagramDirection} (hord : InOrder (s.rx_slots.get dir))
    {calls : List ReplayCall} (hkept : Along (KeptBy dir) (received dir) s calls) :
    (passed (received dir) s calls).Nodup :=
  (bars dir).nodup calls s hord hkept

def calls_of_test : List ReplayCall :=
  [.precheck 0 1 .AToB 1000, .commit 0 1 .AToB 1000, .commit 0 2 .AToB 1001, .commit 0 1 .AToB 1002,
    .precheck 1000 1 .AToB 1003, .commit 1 1 .AToB 1004, .commit 0 2 .AToB 1005, .commit 1 1 .AToB 1006, .commit 0 3 .AToB 1007]

def session_of_test : SecureDatagramSession Unit := new [] 1 0 "aes-256-gcm" "aes-256-gcm" 1000

theorem received_once_of_test : (passed (received .AToB) session_of_test calls_of_test).Nodup :=
  received_once (inOrder_new _ _ _ _ _ _ _) (by decide)

/-- Without a packet for half a minute the window is forgotten, and a replay comes through. -/
example : passed (received .AToB) session_of_test [.commit 0 1 .AToB 1000, .commit 0 1 .AToB 31001] = [(0, 1), (0, 1)] := by
  decide

/-- While the clock does not go back, checks change nothing in what is let through, and
each answers what entering the packet then would. -/
theorem checks_change_nothing (s : SecureDatagramSession C) {calls : List ReplayCall}
    (hclock : calls.Pairwise (fun c c' => c.now_ms ≤ c'.now_ms)) :
    passed call s calls = passed call s (calls.filter ReplayCall.counts) ∧
      ∀ epoch seq dir now_ms, ((reached call s calls).precheck_replay epoch seq dir now_ms).1 =
        ((reached call s calls).commit_replay epoch seq dir now_ms).1 := by
  refine ⟨?_, precheck_replay_fst _⟩
  refine passed_alike calls s s 0 ?_ (fun _ _ => Nat.zero_le _) hclock
  exact fun later _ => ⟨rfl, Alike.refl _⟩

theorem checks_change_nothing_of_test :
    passed call session_of_test calls_of_test = passed call session_of_test (calls_of_test.filter ReplayCall.counts) ∧
      ∀ epoch seq dir now_ms, ((reached call session_of_test calls_of_test).precheck_replay epoch seq dir now_ms).1 =
        ((reached call session_of_test calls_of_test).commit_replay epoch seq dir now_ms).1 :=
  checks_change_nothing _ (by decide)

end SecureDatagramSession
end EasyTierHost.Peers
