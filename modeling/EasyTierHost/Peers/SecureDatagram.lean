import EasyTierHost.Bits.BigEndian
import EasyTierHost.Peers.ReplayWindow

/- A secure session between two peers (peers/secure_datagram.rs): epochs and sequence
   numbers of what is sent, two replay windows for each direction of what is received, a
   grace period for the windows of before a sync, and the ciphers of recent epochs. The
   hash, the ciphers and the clock are not here. Every function is one step: the code does
   the same under its locks; `Nonces` takes the sending side apart. -/
namespace EasyTierHost.Peers
open Bits Effects

inductive SecureDatagramDirection where
  | AToB
  | BToA
deriving DecidableEq

def SecureDatagramDirection.idx : SecureDatagramDirection → Nat
  | AToB => 0
  | BToA => 1

/-- An array with a place for each direction. -/
structure PerDirection (α : Type) where
  a_to_b : α
  b_to_a : α
deriving DecidableEq

namespace PerDirection
variable {α β : Type}

def get (x : PerDirection α) : SecureDatagramDirection → α
  | .AToB => x.a_to_b
  | .BToA => x.b_to_a

def set (x : PerDirection α) : SecureDatagramDirection → α → PerDirection α
  | .AToB, a => { x with a_to_b := a }
  | .BToA, a => { x with b_to_a := a }

def map (f : α → β) (x : PerDirection α) : PerDirection β := ⟨f x.a_to_b, f x.b_to_a⟩

def both (a : α) : PerDirection α := ⟨a, a⟩

@[simp] theorem get_map (f : α → β) (x : PerDirection α) (d : SecureDatagramDirection) :
    (x.map f).get d = f (x.get d) := by
  cases d <;> rfl

@[simp] theorem get_both (a : α) (d : SecureDatagramDirection) : (both a).get d = a := by
  cases d <;> rfl

theorem get_set (x : PerDirection α) (d e : SecureDatagramDirection) (a : α) :
    (x.set d a).get e = if e = d then a else x.get e := by
  cases d <;> cases e <;> rfl

@[simp] theorem get_set_self (x : PerDirection α) (d : SecureDatagramDirection) (a : α) : (x.set d a).get d = a := by
  cases d <;> rfl

end PerDirection

/-! ## Receive windows -/

structure EpochRxSlot where
  epoch : Nat
  window : ReplayWindow256
  last_rx_ms : Nat
  valid : Bool
deriving DecidableEq

namespace EpochRxSlot

def default : EpochRxSlot := ⟨0, .default, 0, false⟩

def clear (s : EpochRxSlot) : EpochRxSlot := ⟨0, s.window.clear, 0, false⟩

end EpochRxSlot

structure RxSlots where
  slot0 : EpochRxSlot
  slot1 : EpochRxSlot
deriving DecidableEq

def RxSlots.default : RxSlots := ⟨.default, .default⟩

structure SyncRxGrace where
  slots : PerDirection RxSlots
  expires_at_ms : Nat
  valid : Bool
deriving DecidableEq

namespace SyncRxGrace

def default : SyncRxGrace := ⟨.both .default, 0, false⟩

def refresh (_ : SyncRxGrace) (slots : PerDirection RxSlots) (expires_at_ms : Nat) : SyncRxGrace :=
  ⟨slots, expires_at_ms, true⟩

def maybe_expire (g : SyncRxGrace) (now_ms : Nat) : SyncRxGrace :=
  if g.valid && decide (g.expires_at_ms ≤ now_ms) then default else g

end SyncRxGrace

/-! ## Ciphers -/

/-- A packet: the flag in its header, and what follows the headers. -/
structure ZCPacket where
  encrypted : Bool
  payload : List Byte
deriving DecidableEq

/-- The ciphers and the hash, whose code is not here. -/
structure Crypto (C : Type) where
  hmac : List Byte → List Byte → List Byte
  create_encryptor : String → List Byte → List Byte → C
  encrypt_with_nonce : C → ZCPacket → List Byte → Except String ZCPacket
  decrypt : C → ZCPacket → Except String ZCPacket

structure EpochKeySlot (C : Type) where
  epoch : Nat
  generation : Nat
  valid : Bool
  send_cipher : Option C
  recv_cipher : Option C

namespace EpochKeySlot
variable {C : Type}

def default : EpochKeySlot C := ⟨0, 0, false, none, none⟩

/-- `none` is a panic. -/
def get_encryptor (slot : EpochKeySlot C) (is_send : Bool) : Option C := if is_send then slot.send_cipher else slot.recv_cipher

end EpochKeySlot

structure KeySlots (C : Type) where
  slot0 : EpochKeySlot C
  slot1 : EpochKeySlot C

/-! ## The session -/

structure SecureDatagramSession (C : Type) where
  root_key : List Byte
  session_generation : Nat
  send_epoch : Nat
  send_seq : PerDirection Nat
  send_epoch_started_ms : Nat
  send_packets_since_epoch : Nat
  rx_slots : PerDirection RxSlots
  key_cache : PerDirection (KeySlots C)
  sync_rx_grace : SyncRxGrace
  sync_rx_grace_expires_at_ms : Nat
  send_cipher_algorithm : String
  recv_cipher_algorithm : String
  invalidated : Bool
  decrypt_fail_count : Nat

def EVICT_IDLE_AFTER_MS : Nat := 30000
def SYNC_RX_GRACE_AFTER_MS : Nat := 5000
def ROTATE_AFTER_PACKETS : Nat := 1000000
def ROTATE_AFTER_MS : Nat := 10 * 60 * 1000
def MAX_ACCEPTED_RX_EPOCH_AHEAD : Nat := 3
def DECRYPT_FAIL_THRESHOLD : Nat := 10

def u32_max : Nat := 2 ^ 32 - 1
def u64_max : Nat := 2 ^ 64 - 1

namespace SecureDatagramSession
variable {C : Type}

def new (root_key : List Byte) (session_generation initial_epoch : Nat) (send_cipher_algorithm recv_cipher_algorithm : String)
    (now_ms : Nat) : SecureDatagramSession C where
  root_key := root_key
  session_generation := session_generation
  send_epoch := initial_epoch
  send_seq := .both 0
  send_epoch_started_ms := now_ms
  send_packets_since_epoch := 0
  rx_slots := .both .default
  key_cache := .both ⟨.default, .default⟩
  sync_rx_grace := .default
  sync_rx_grace_expires_at_ms := 0
  send_cipher_algorithm := send_cipher_algorithm
  recv_cipher_algorithm := recv_cipher_algorithm
  invalidated := false
  decrypt_fail_count := 0

def invalidate (s : SecureDatagramSession C) : SecureDatagramSession C := { s with invalidated := true }

def is_valid (s : SecureDatagramSession C) : Bool := !s.invalidated

def epoch_of (slot : EpochRxSlot) (e : Nat) : Nat := if slot.valid then max e slot.epoch else e

def sync_root_key (s : SecureDatagramSession C) (root_key : List Byte) (session_generation initial_epoch : Nat)
    (preserve_rx_grace : Bool) (started_ms now_ms : Nat) : SecureDatagramSession C :=
  let can_preserve_rx_grace := preserve_rx_grace && s.root_key == root_key
  let expires_at_ms := min (now_ms + SYNC_RX_GRACE_AFTER_MS) u64_max
  { s with
    root_key := root_key
    session_generation := session_generation
    send_epoch := initial_epoch
    send_seq := .both 0
    send_epoch_started_ms := started_ms
    send_packets_since_epoch := 0
    sync_rx_grace := if can_preserve_rx_grace then s.sync_rx_grace.refresh s.rx_slots expires_at_ms else .default
    sync_rx_grace_expires_at_ms := if can_preserve_rx_grace then expires_at_ms else 0
    rx_slots := .both .default
    key_cache := .both ⟨.default, .default⟩ }

/-! ### Keys -/

def traffic_label : List Byte := "et-traffic".toList.map fun c => BitVec.ofNat 8 c.toNat

def traffic_info (epoch : Nat) (dir : SecureDatagramDirection) : List Byte :=
  traffic_label ++ (toBytes 4 epoch ++ [BitVec.ofNat 8 dir.idx])

def hkdf_traffic_key (cr : Crypto C) (root_key : List Byte) (epoch : Nat) (dir : SecureDatagramDirection) : List Byte :=
  let prk := cr.hmac (List.replicate 32 0) root_key
  (cr.hmac prk (traffic_info epoch dir ++ [1])).take 32

def new_key_slot (cr : Crypto C) (s : SecureDatagramSession C) (epoch : Nat) (dir : SecureDatagramDirection)
    (generation : Nat) : EpochKeySlot C :=
  let key := hkdf_traffic_key cr s.root_key epoch dir
  let key_128 := key.take 16
  { epoch := epoch
    generation := generation
    valid := true
    send_cipher := some (cr.create_encryptor s.send_cipher_algorithm key_128 key)
    recv_cipher := some (cr.create_encryptor s.recv_cipher_algorithm key_128 key) }

def hits (slot : EpochKeySlot C) (epoch generation : Nat) : Bool :=
  slot.valid && slot.epoch == epoch && slot.generation == generation

def get_or_create_encryptor (cr : Crypto C) (s : SecureDatagramSession C) (epoch : Nat) (dir : SecureDatagramDirection)
    (generation : Nat) (is_send : Bool) : Option C × SecureDatagramSession C :=
  let slots := s.key_cache.get dir
  if hits slots.slot0 epoch generation then (slots.slot0.get_encryptor is_send, s)
  else if hits slots.slot1 epoch generation then (slots.slot1.get_encryptor is_send, s)
  else
    let slot := new_key_slot cr s epoch dir generation
    let slots :=
      if !slots.slot0.valid || slots.slot0.epoch == epoch then { slots with slot0 := slot } else { slots with slot1 := slot }
    (slot.get_encryptor is_send, { s with key_cache := s.key_cache.set dir slots })

/-! ### Nonces -/

def maybe_rotate_epoch (s : SecureDatagramSession C) (now_ms : Nat) : SecureDatagramSession C :=
  let packets := s.send_packets_since_epoch + 1
  if packets < ROTATE_AFTER_PACKETS ∧ now_ms - s.send_epoch_started_ms < ROTATE_AFTER_MS then
    { s with send_packets_since_epoch := packets }
  else
    { s with
      send_epoch := (s.send_epoch + 1) % 2 ^ 32
      send_epoch_started_ms := now_ms
      send_packets_since_epoch := 0 }

def nonce (epoch seq : Nat) : List Byte := toBytes 4 epoch ++ toBytes 8 seq

def next_nonce (s : SecureDatagramSession C) (dir : SecureDatagramDirection) (now_ms : Nat) :
    (Nat × Nat × List Byte) × SecureDatagramSession C :=
  let s := s.maybe_rotate_epoch now_ms
  let seq := s.send_seq.get dir
  ((s.send_epoch, seq, nonce s.send_epoch seq), { s with send_seq := s.send_seq.set dir ((seq + 1) % 2 ^ 64) })

def TAIL_SIZE : Nat := 28
def NONCE_SIZE : Nat := 12

def parse_tail (payload : List Byte) : Option (List Byte) :=
  if TAIL_SIZE ≤ payload.length then some (payload.drop (payload.length - NONCE_SIZE)) else none

/-! ### Replay -/

/-- The slot has not been used for too long. -/
def idle (slot : EpochRxSlot) (now_ms : Nat) : Bool :=
  slot.valid && slot.last_rx_ms != 0 && decide (EVICT_IDLE_AFTER_MS < now_ms - slot.last_rx_ms)

def evict (slots : RxSlots) (now_ms : Nat) : RxSlots :=
  ⟨if idle slots.slot0 now_ms then slots.slot0.clear else slots.slot0,
    if idle slots.slot1 now_ms then slots.slot1.clear else slots.slot1⟩

def evict_old_rx_slots (rx : PerDirection RxSlots) (now_ms : Nat) : PerDirection RxSlots := rx.map (evict · now_ms)

def is_epoch (slot : EpochRxSlot) (epoch : Nat) : Bool := slot.valid && slot.epoch == epoch

def epoch_in_slots (slots : RxSlots) (epoch : Nat) : Bool := is_epoch slots.slot0 epoch || is_epoch slots.slot1 epoch

def sync_rx_grace_active (s : SecureDatagramSession C) (now_ms : Nat) : Bool × SecureDatagramSession C :=
  if s.sync_rx_grace_expires_at_ms = 0 then (false, s)
  else if now_ms < s.sync_rx_grace_expires_at_ms then (true, s)
  else (false, { s with sync_rx_grace_expires_at_ms := 0 })

/-- How a check begins: old windows are dropped, and the grace windows are there or not. -/
def open_rx (s : SecureDatagramSession C) (now_ms : Nat) : Bool × SecureDatagramSession C :=
  let s := { s with rx_slots := evict_old_rx_slots s.rx_slots now_ms }
  let active := s.sync_rx_grace_active now_ms
  let s := active.2
  if active.1 then
    let grace := s.sync_rx_grace.maybe_expire now_ms
    if grace.valid then
      (true, { s with sync_rx_grace := { grace with slots := evict_old_rx_slots grace.slots now_ms } })
    else (false, { s with sync_rx_grace := grace, sync_rx_grace_expires_at_ms := 0 })
  else (false, s)

def max_allowed_epoch (send_epoch : Nat) (rx : RxSlots) : Nat :=
  min (epoch_of rx.slot1 (epoch_of rx.slot0 send_epoch) + MAX_ACCEPTED_RX_EPOCH_AHEAD) u32_max

def precheck_grace (slots : RxSlots) (epoch seq : Nat) : Bool :=
  if is_epoch slots.slot0 epoch then slots.slot0.window.can_accept seq else slots.slot1.window.can_accept seq

def precheck_rx (send_epoch : Nat) (rx : RxSlots) (epoch seq : Nat) : Bool :=
  if !rx.slot0.valid then true
  else if epoch = rx.slot0.epoch then rx.slot0.window.can_accept seq
  else if is_epoch rx.slot1 epoch then rx.slot1.window.can_accept seq
  else if rx.slot0.epoch < epoch then decide (epoch ≤ max_allowed_epoch send_epoch rx)
  else false

def precheck_replay (s : SecureDatagramSession C) (epoch seq : Nat) (dir : SecureDatagramDirection) (now_ms : Nat) :
    Bool × SecureDatagramSession C :=
  let opened := s.open_rx now_ms
  let s := opened.2
  if opened.1 && epoch_in_slots (s.sync_rx_grace.slots.get dir) epoch then
    (precheck_grace (s.sync_rx_grace.slots.get dir) epoch seq, s)
  else (precheck_rx s.send_epoch (s.rx_slots.get dir) epoch seq, s)

def accept (slot : EpochRxSlot) (seq now_ms : Nat) : Bool × EpochRxSlot :=
  let accepted := slot.window.accept seq
  (accepted.1, { slot with last_rx_ms := now_ms, window := accepted.2 })

def new_slot (epoch now_ms : Nat) : EpochRxSlot := ⟨epoch, .default, now_ms, true⟩

def commit_grace (slots : RxSlots) (epoch seq now_ms : Nat) : Bool × RxSlots :=
  if is_epoch slots.slot0 epoch then
    let accepted := accept slots.slot0 seq now_ms
    (accepted.1, { slots with slot0 := accepted.2 })
  else
    let accepted := accept slots.slot1 seq now_ms
    (accepted.1, { slots with slot1 := accepted.2 })

def commit_rx (send_epoch : Nat) (rx : RxSlots) (epoch seq now_ms : Nat) : Bool × RxSlots :=
  let rx := if !rx.slot0.valid then { rx with slot0 := new_slot epoch now_ms } else rx
  if epoch = rx.slot0.epoch then
    let accepted := accept rx.slot0 seq now_ms
    (accepted.1, { rx with slot0 := accepted.2 })
  else if is_epoch rx.slot1 epoch then
    let accepted := accept rx.slot1 seq now_ms
    (accepted.1, { rx with slot1 := accepted.2 })
  else if rx.slot0.epoch < epoch then
    if max_allowed_epoch send_epoch rx < epoch then (false, rx)
    else
      let accepted := accept (new_slot epoch now_ms) seq now_ms
      (accepted.1, ⟨accepted.2, rx.slot0⟩)
  else (false, rx)

def prune (send_epoch : Nat) (rx : RxSlots) (grace : Option RxSlots) (slot : EpochKeySlot C) : EpochKeySlot C :=
  let allowed := slot.epoch == send_epoch || epoch_in_slots rx slot.epoch || grace.any (epoch_in_slots · slot.epoch)
  if slot.valid && !allowed then { slot with valid := false } else slot

def prune_key_cache (s : SecureDatagramSession C) (sync_rx_grace : Option SyncRxGrace) : SecureDatagramSession C :=
  let pruned (d : SecureDatagramDirection) : KeySlots C :=
    let f := prune s.send_epoch (s.rx_slots.get d) (sync_rx_grace.map (·.slots.get d))
    ⟨f (s.key_cache.get d).slot0, f (s.key_cache.get d).slot1⟩
  { s with key_cache := ⟨pruned .AToB, pruned .BToA⟩ }

def commit_replay (s : SecureDatagramSession C) (epoch seq : Nat) (dir : SecureDatagramDirection) (now_ms : Nat) :
    Bool × SecureDatagramSession C :=
  let opened := s.open_rx now_ms
  let s := opened.2
  if opened.1 && epoch_in_slots (s.sync_rx_grace.slots.get dir) epoch then
    let committed := commit_grace (s.sync_rx_grace.slots.get dir) epoch seq now_ms
    let grace := { s.sync_rx_grace with slots := s.sync_rx_grace.slots.set dir committed.2 }
    (committed.1, { s with sync_rx_grace := grace }.prune_key_cache (some grace))
  else
    let committed := commit_rx s.send_epoch (s.rx_slots.get dir) epoch seq now_ms
    let s := { s with rx_slots := s.rx_slots.set dir committed.2 }
    (committed.1, s.prune_key_cache (if opened.1 then some s.sync_rx_grace else none))

/-! ### Packets -/

/-- What a panic on an empty slot prints. -/
def unwrap_on_none : String := "called `Option::unwrap()` on a `None` value"

def encrypt_payload (cr : Crypto C) (s : SecureDatagramSession C) (dir : SecureDatagramDirection) (pkt : ZCPacket)
    (now_ms : Nat) : Except String ZCPacket × SecureDatagramSession C :=
  if !s.is_valid then (.error "session invalidated", s)
  else
    let drawn := s.next_nonce dir now_ms
    let cipher := get_or_create_encryptor cr drawn.2 drawn.1.1 dir drawn.2.session_generation true
    match cipher.1 with
    | none => (.error unwrap_on_none, cipher.2)
    | some encryptor =>
      match cr.encrypt_with_nonce encryptor pkt drawn.1.2.2 with
      | .error e => (.error e, cipher.2.invalidate)
      | .ok pkt => (.ok pkt, cipher.2)

/-- The epoch and the sequence number of a packet, from the nonce at its end. -/
def parse_nonce (payload : List Byte) : Option (Nat × Nat) :=
  (parse_tail payload).map fun nonce_bytes => (ofBytes (nonce_bytes.take 4), ofBytes (nonce_bytes.drop 4))

def note_failure (s : SecureDatagramSession C) : SecureDatagramSession C :=
  let count := s.decrypt_fail_count + 1
  { s with decrypt_fail_count := count, invalidated := s.invalidated || decide (DECRYPT_FAIL_THRESHOLD ≤ count) }

def decrypt_payload (cr : Crypto C) (s : SecureDatagramSession C) (dir : SecureDatagramDirection) (ciphertext_with_tail : ZCPacket)
    (now_ms : Nat) : Except String ZCPacket × SecureDatagramSession C :=
  if !s.is_valid then (.error "session invalidated", s)
  else match parse_nonce ciphertext_with_tail.payload with
    | none => (.error "no tail", s)
    | some (epoch, seq) =>
      let checked := s.precheck_replay epoch seq dir now_ms
      if !checked.1 then (.error "replay rejected", checked.2)
      else
        let cipher := get_or_create_encryptor cr checked.2 epoch dir checked.2.session_generation false
        match cipher.1 with
        | none => (.error unwrap_on_none, cipher.2)
        | some encryptor =>
          match cr.decrypt encryptor ciphertext_with_tail with
          | .error e => (.error e, cipher.2.note_failure)
          | .ok pkt =>
            let committed := { cipher.2 with decrypt_fail_count := 0 }.commit_replay epoch seq dir now_ms
            if !committed.1 then (.error "replay rejected", committed.2) else (.ok pkt, committed.2)

end SecureDatagramSession
end EasyTierHost.Peers
