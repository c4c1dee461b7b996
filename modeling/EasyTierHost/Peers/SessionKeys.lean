import EasyTierHost.Peers.Replay

/- The ciphers of a session (peers/secure_datagram.rs). A cache keeps two of them for each
   direction; a sync empties it and an entered packet drops what is out of date. Whatever was
   called before, the cipher for an epoch comes from the root key of now. -/
namespace EasyTierHost.Peers
open Bits Effects

namespace SecureDatagramSession
variable {C : Type} {cr : Crypto C} {s s' : SecureDatagramSession C}

/-- What is kept for an epoch is what would be made for it now. -/
def SlotFits (cr : Crypto C) (s : SecureDatagramSession C) (dir : SecureDatagramDirection) (slot : EpochKeySlot C) : Prop :=
  slot.valid = true → slot = new_key_slot cr s slot.epoch dir slot.generation

def KeysFit (cr : Crypto C) (s : SecureDatagramSession C) : Prop :=
  ∀ dir, SlotFits cr s dir (s.key_cache.get dir).slot0 ∧ SlotFits cr s dir (s.key_cache.get dir).slot1

/-- The root key and the names of the ciphers are the same. -/
def SameKey (s s' : SecureDatagramSession C) : Prop :=
  s'.root_key = s.root_key ∧ s'.send_cipher_algorithm = s.send_cipher_algorithm ∧
    s'.recv_cipher_algorithm = s.recv_cipher_algorithm

theorem SameKey.new_key_slot (h : SameKey s s') (epoch : Nat) (dir : SecureDatagramDirection) (generation : Nat) :
    new_key_slot cr s' epoch dir generation = new_key_slot cr s epoch dir generation := by
  rw [SecureDatagramSession.new_key_slot, SecureDatagramSession.new_key_slot, h.1, h.2.1, h.2.2]

theorem SameKey.fits (h : SameKey s s') {dir : SecureDatagramDirection} {slot : EpochKeySlot C} (hs : SlotFits cr s dir slot) :
    SlotFits cr s' dir slot := fun hv => (hs hv).trans (h.new_key_slot ..).symm

theorem KeysFit.of_same (h : KeysFit cr s) (hkey : SameKey s s') (hcache : s'.key_cache = s.key_cache) : KeysFit cr s' := by
  intro dir
  rw [hcache]
  exact ⟨hkey.fits (h dir).1, hkey.fits (h dir).2⟩

theorem fits_default (dir : SecureDatagramDirection) : SlotFits cr s dir .default := fun hv => by cases hv

theorem keysFit_new (root_key : List Byte) (session_generation initial_epoch : Nat) (send_algorithm recv_algorithm : String)
    (now_ms : Nat) : KeysFit cr (new root_key session_generation initial_epoch send_algorithm recv_algorithm now_ms) := by
  intro dir
  cases dir <;> exact ⟨fits_default _, fits_default _⟩

theorem keysFit_sync (s : SecureDatagramSession C) (root_key : List Byte) (session_generation initial_epoch : Nat)
    (preserve_rx_grace : Bool) (started_ms now_ms : Nat) :
    KeysFit cr (s.sync_root_key root_key session_generation initial_epoch preserve_rx_grace started_ms now_ms) := by
  intro dir
  cases dir <;> exact ⟨fits_default _, fits_default _⟩

theorem fits_hit {dir : SecureDatagramDirection} {slot : EpochKeySlot C} (h : SlotFits cr s dir slot) {epoch generation : Nat}
    (hhit : hits slot epoch generation = true) : slot = new_key_slot cr s epoch dir generation := by
  simp only [hits, Bool.and_eq_true, beq_iff_eq] at hhit
  obtain ⟨⟨hv, rfl⟩, rfl⟩ := hhit
  exact h hv

/-- Asking for a cipher changes the cache only. -/
theorem get_or_create_encryptor_snd (cr : Crypto C) (s : SecureDatagramSession C) (epoch : Nat) (dir : SecureDatagramDirection)
    (generation : Nat) (is_send : Bool) :
    ∃ key_cache, (get_or_create_encryptor cr s epoch dir generation is_send).2 = { s with key_cache := key_cache } := by
  rw [get_or_create_encryptor]
  split_ifs
  · exact ⟨s.key_cache, rfl⟩
  · exact ⟨s.key_cache, rfl⟩
  · exact ⟨_, rfl⟩
  · exact ⟨_, rfl⟩

/-- The cipher is the one that would be made now, and the cache still holds such ciphers. -/
theorem get_or_create_encryptor_spec (h : KeysFit cr s) (epoch : Nat) (dir : SecureDatagramDirection) (generation : Nat)
    (is_send : Bool) :
    (get_or_create_encryptor cr s epoch dir generation is_send).1 =
        (new_key_slot cr s epoch dir generation).get_encryptor is_send ∧
      KeysFit cr (get_or_create_encryptor cr s epoch dir generation is_send).2 := by
  rw [get_or_create_encryptor]
  by_cases h0 : hits (s.key_cache.get dir).slot0 epoch generation = true
  · rw [if_pos h0]
    exact ⟨congrArg (·.get_encryptor is_send) (fits_hit (h dir).1 h0), h⟩
  · rw [if_neg h0]
    by_cases h1 : hits (s.key_cache.get dir).slot1 epoch generation = true
    · rw [if_pos h1]
      exact ⟨congrArg (·.get_encryptor is_send) (fits_hit (h dir).2 h1), h⟩
    · rw [if_neg h1]
      refine ⟨rfl, fun d => ?_⟩
      have hnew : SlotFits cr s dir (new_key_slot cr s epoch dir generation) := fun _ => rfl
      show SlotFits cr s d ((s.key_cache.set dir _).get d).slot0 ∧ SlotFits cr s d ((s.key_cache.set dir _).get d).slot1
      rw [PerDirection.get_set]
      by_cases hd : d = dir
      · subst hd
        rw [if_pos rfl]
        split_ifs
        · exact ⟨hnew, (h d).2⟩
        · exact ⟨(h d).1, hnew⟩
      · rw [if_neg hd]
        exact h d

theorem fits_prune {dir : SecureDatagramDirection} {slot : EpochKeySlot C} (h : SlotFits cr s dir slot) (send_epoch : Nat)
    (rx : RxSlots) (grace : Option RxSlots) : SlotFits cr s dir (prune send_epoch rx grace slot) := by
  show SlotFits cr s dir (if _ then _ else _)
  split_ifs
  · exact fun hv => by cases hv
  · exact h

theorem keysFit_prune (h : KeysFit cr s) (grace : Option SyncRxGrace) : KeysFit cr (s.prune_key_cache grace) := by
  intro dir
  cases dir with
  | AToB => exact ⟨fits_prune (h .AToB).1 _ _ _, fits_prune (h .AToB).2 _ _ _⟩
  | BToA => exact ⟨fits_prune (h .BToA).1 _ _ _, fits_prune (h .BToA).2 _ _ _⟩

theorem keysFit_open (h : KeysFit cr s) (now_ms : Nat) : KeysFit cr (s.open_rx now_ms).2 := by
  rw [open_rx_snd]
  exact h.of_same ⟨rfl, rfl, rfl⟩ rfl

/-- Entering a packet changes windows, and drops ciphers. -/
theorem enter_eq (o : Bool × SecureDatagramSession C) (epoch seq : Nat) (dir : SecureDatagramDirection) (now_ms : Nat) :
    ∃ rx grace kept, (enter o epoch seq dir now_ms).2 =
      prune_key_cache { o.2 with rx_slots := rx, sync_rx_grace := grace } kept := by
  rw [enter]
  split_ifs
  · exact ⟨_, _, _, rfl⟩
  · exact ⟨_, _, _, rfl⟩
  · exact ⟨_, _, _, rfl⟩

theorem keysFit_enter {o : Bool × SecureDatagramSession C} (h : KeysFit cr o.2) (epoch seq : Nat) (dir : SecureDatagramDirection)
    (now_ms : Nat) : KeysFit cr (enter o epoch seq dir now_ms).2 := by
  obtain ⟨rx, grace, kept, heq⟩ := enter_eq o epoch seq dir now_ms
  rw [heq]
  have hfit : KeysFit cr { o.2 with rx_slots := rx, sync_rx_grace := grace } := h.of_same ⟨rfl, rfl, rfl⟩ rfl
  exact keysFit_prune hfit kept

theorem keysFit_precheck (h : KeysFit cr s) (epoch seq : Nat) (dir : SecureDatagramDirection) (now_ms : Nat) :
    KeysFit cr (s.precheck_replay epoch seq dir now_ms).2 := by
  rw [precheck_replay_snd]
  exact keysFit_open h now_ms

theorem keysFit_commit (h : KeysFit cr s) (epoch seq : Nat) (dir : SecureDatagramDirection) (now_ms : Nat) :
    KeysFit cr (s.commit_replay epoch seq dir now_ms).2 := keysFit_enter (keysFit_open h now_ms) epoch seq dir now_ms

theorem keysFit_next_nonce (h : KeysFit cr s) (dir : SecureDatagramDirection) (now_ms : Nat) :
    KeysFit cr (s.next_nonce dir now_ms).2 := by
  rw [next_nonce, maybe_rotate_epoch]
  split_ifs
  · exact h.of_same ⟨rfl, rfl, rfl⟩ rfl
  · exact h.of_same ⟨rfl, rfl, rfl⟩ rfl

theorem sameKey_open (s : SecureDatagramSession C) (now_ms : Nat) : SameKey s (s.open_rx now_ms).2 := by
  rw [open_rx_snd]
  exact ⟨rfl, rfl, rfl⟩

theorem sameKey_commit (s : SecureDatagramSession C) (epoch seq : Nat) (dir : SecureDatagramDirection) (now_ms : Nat) :
    SameKey s (s.commit_replay epoch seq dir now_ms).2 ∧ (s.commit_replay epoch seq dir now_ms).2.send_epoch = s.send_epoch := by
  obtain ⟨rx, grace, kept, heq⟩ := enter_eq (s.open_rx now_ms) epoch seq dir now_ms
  rw [commit_replay_eq, heq, open_rx_snd]
  exact ⟨⟨rfl, rfl, rfl⟩, rfl⟩

theorem SameKey.trans {s₁ s₂ s₃ : SecureDatagramSession C} (h : SameKey s₁ s₂) (h' : SameKey s₂ s₃) : SameKey s₁ s₃ :=
  ⟨h'.1.trans h.1, h'.2.1.trans h.2.1, h'.2.2.trans h.2.2⟩

/-! ## Any calls -/

/-- The parts of sending, receiving and syncing, each under its lock. -/
inductive SessionCall where
  | next_nonce (dir : SecureDatagramDirection) (now_ms : Nat)
  | encryptor (epoch : Nat) (dir : SecureDatagramDirection) (generation : Nat) (is_send : Bool)
  | precheck (epoch seq : Nat) (dir : SecureDatagramDirection) (now_ms : Nat)
  | commit (epoch seq : Nat) (dir : SecureDatagramDirection) (now_ms : Nat)
  | failure
  | success
  | invalidate
  | sync_root_key (root_key : List Byte) (session_generation initial_epoch : Nat) (preserve_rx_grace : Bool)
      (started_ms now_ms : Nat)

def after_call (cr : Crypto C) (s : SecureDatagramSession C) : SessionCall → SecureDatagramSession C
  | .next_nonce dir now_ms => (s.next_nonce dir now_ms).2
  | .encryptor epoch dir generation is_send => (get_or_create_encryptor cr s epoch dir generation is_send).2
  | .precheck epoch seq dir now_ms => (s.precheck_replay epoch seq dir now_ms).2
  | .commit epoch seq dir now_ms => (s.commit_replay epoch seq dir now_ms).2
  | .failure => s.note_failure
  | .success => { s with decrypt_fail_count := 0 }
  | .invalidate => s.invalidate
  | .sync_root_key root_key session_generation initial_epoch preserve_rx_grace started_ms now_ms =>
    s.sync_root_key root_key session_generation initial_epoch preserve_rx_grace started_ms now_ms

theorem keysFit_call (h : KeysFit cr s) (c : SessionCall) : KeysFit cr (after_call cr s c) := by
  cases c with
  | next_nonce dir now_ms => exact keysFit_next_nonce h dir now_ms
  | encryptor epoch dir generation is_send => exact (get_or_create_encryptor_spec h epoch dir generation is_send).2
  | precheck epoch seq dir now_ms => exact keysFit_precheck h epoch seq dir now_ms
  | commit epoch seq dir now_ms => exact keysFit_commit h epoch seq dir now_ms
  | failure => exact h.of_same ⟨rfl, rfl, rfl⟩ rfl
  | success => exact h.of_same ⟨rfl, rfl, rfl⟩ rfl
  | invalidate => exact h.of_same ⟨rfl, rfl, rfl⟩ rfl
  | sync_root_key => exact keysFit_sync _ _ _ _ _ _ _

theorem keysFit_calls (calls : List SessionCall) : ∀ {s : SecureDatagramSession C}, KeysFit cr s →
    KeysFit cr (calls.foldl (after_call cr) s) := by
  induction calls with
  | nil => exact fun h => h
  | cons c calls ih => exact fun h => ih (keysFit_call h c)

theorem algorithms_call (cr : Crypto C) (s : SecureDatagramSession C) (c : SessionCall) :
    (after_call cr s c).send_cipher_algorithm = s.send_cipher_algorithm ∧
      (after_call cr s c).recv_cipher_algorithm = s.recv_cipher_algorithm := by
  cases c with
  | next_nonce dir now_ms =>
    rw [after_call, next_nonce, maybe_rotate_epoch]
    split_ifs
    · exact ⟨rfl, rfl⟩
    · exact ⟨rfl, rfl⟩
  | encryptor epoch dir generation is_send =>
    obtain ⟨key_cache, heq⟩ := get_or_create_encryptor_snd cr s epoch dir generation is_send
    rw [after_call, heq]
    exact ⟨rfl, rfl⟩
  | precheck epoch seq dir now_ms =>
    rw [after_call, precheck_replay_snd, open_rx_snd]
    exact ⟨rfl, rfl⟩
  | commit epoch seq dir now_ms =>
    rw [after_call, commit_replay_eq]
    obtain ⟨rx, grace, kept, heq⟩ := enter_eq (s.open_rx now_ms) epoch seq dir now_ms
    rw [heq, open_rx_snd]
    exact ⟨rfl, rfl⟩
  | failure => exact ⟨rfl, rfl⟩
  | success => exact ⟨rfl, rfl⟩
  | invalidate => exact ⟨rfl, rfl⟩
  | sync_root_key => exact ⟨rfl, rfl⟩

theorem algorithms_calls (cr : Crypto C) (calls : List SessionCall) : ∀ s : SecureDatagramSession C,
    (calls.foldl (after_call cr) s).send_cipher_algorithm = s.send_cipher_algorithm ∧
      (calls.foldl (after_call cr) s).recv_cipher_algorithm = s.recv_cipher_algorithm := by
  induction calls with
  | nil => exact fun _ => ⟨rfl, rfl⟩
  | cons c calls ih =>
    intro s
    obtain ⟨hsend, hrecv⟩ := algorithms_call cr s c
    exact ⟨(ih _).1.trans hsend, (ih _).2.trans hrecv⟩

/-- The cipher for a direction and an epoch comes from the root key of now, never from one of
before a sync, and there always is one. -/
theorem encryptor_of_calls (cr : Crypto C) (root_key : List Byte) (session_generation initial_epoch : Nat)
    (send_algorithm recv_algorithm : String) (now_ms : Nat) (calls : List SessionCall) (epoch : Nat)
    (dir : SecureDatagramDirection) (generation : Nat) (is_send : Bool) :
    let s := calls.foldl (after_call cr) (new root_key session_generation initial_epoch send_algorithm recv_algorithm now_ms)
    let key := hkdf_traffic_key cr s.root_key epoch dir
    (get_or_create_encryptor cr s epoch dir generation is_send).1 =
      some (cr.create_encryptor (if is_send then send_algorithm else recv_algorithm) (key.take 16) key) := by
  intro s key
  have hfit : KeysFit cr s := keysFit_calls calls (keysFit_new _ _ _ _ _ _)
  obtain ⟨hsend, hrecv⟩ : s.send_cipher_algorithm = send_algorithm ∧ s.recv_cipher_algorithm = recv_algorithm :=
    algorithms_calls cr calls _
  rw [(get_or_create_encryptor_spec hfit epoch dir generation is_send).1, EpochKeySlot.get_encryptor]
  cases is_send with
  | true => exact congrArg (fun a => some (cr.create_encryptor a _ _)) hsend
  | false => exact congrArg (fun a => some (cr.create_encryptor a _ _)) hrecv

end SecureDatagramSession
end EasyTierHost.Peers
