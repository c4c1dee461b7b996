import EasyTierHost.Peers.Encrypt
import EasyTierHost.Peers.SessionKeys
import Mathlib.Data.List.Perm.Subperm

/- The secure tunnel of the web client (web_client/security.rs), once both ends have the root
   key: what one end puts in goes out encrypted, and what comes in, from anyone, is checked
   and decrypted. What the other end takes out is, in some order, part of what was put in,
   each message once, whatever the network repeats, reorders, drops or makes up. -/
namespace EasyTierHost.WebClient
open Bits Effects Peers SecureDatagramSession

inductive SecureTunnelRole where
  | Initiator
  | Responder
deriving DecidableEq

namespace SecureTunnelRole

def send_dir : SecureTunnelRole → SecureDatagramDirection
  | Initiator => .AToB
  | Responder => .BToA

def recv_dir : SecureTunnelRole → SecureDatagramDirection
  | Initiator => .BToA
  | Responder => .AToB

def other : SecureTunnelRole → SecureTunnelRole
  | Initiator => Responder
  | Responder => Initiator

theorem recv_dir_other (role : SecureTunnelRole) : role.other.recv_dir = role.send_dir := by
  cases role <;> rfl

end SecureTunnelRole

def WEB_SECURE_CIPHER_ALGORITHM : String := "aes-gcm"
def WEB_SESSION_GENERATION : Nat := 1
def WEB_INITIAL_EPOCH : Nat := 0
def PEER_MANAGER_HEADER_SIZE : Nat := 16

variable {C : Type}

def new_web_secure_session (root_key : List Byte) (algorithm : String) (now_ms : Nat) : SecureDatagramSession C :=
  .new root_key WEB_SESSION_GENERATION WEB_INITIAL_EPOCH algorithm algorithm now_ms

/-- What goes out for a packet of the tunnel inside, if anything. -/
def before_send (cr : Crypto C) (session : SecureDatagramSession C) (role : SecureTunnelRole) (tunnel_payload : List Byte)
    (now_ms : Nat) : Option (List Byte) × SecureDatagramSession C :=
  let encrypted := encrypt_payload cr session role.send_dir ⟨false, tunnel_payload⟩ now_ms
  (encrypted.1.toOption.map ZCPacket.payload, encrypted.2)

/-- What comes out for a packet from the network; `none` is one that is shorter than its header. -/
def after_received (cr : Crypto C) (session : SecureDatagramSession C) (role : SecureTunnelRole) (payload : Option (List Byte))
    (now_ms : Nat) : Except String (List Byte) × SecureDatagramSession C :=
  match payload with
  | none => (.error "secure packet too short", session)
  | some payload =>
    let decrypted := decrypt_payload cr session role.recv_dir ⟨true, payload⟩ now_ms
    (match decrypted.1 with
      | .error e => .error ("secure datagram decrypt failed: " ++ e)
      | .ok cipher =>
        if cipher.payload.length < PEER_MANAGER_HEADER_SIZE then .error "decrypted secure packet too short"
        else .ok cipher.payload, decrypted.2)

/-! ## One packet -/

/-- The sessions have the same key and the same windows. -/
structure Beside (s s' : SecureDatagramSession C) : Prop where
  key : SameKey s s'
  rx : s'.rx_slots = s.rx_slots
  grace : s'.sync_rx_grace = s.sync_rx_grace
  expires : s'.sync_rx_grace_expires_at_ms = s.sync_rx_grace_expires_at_ms
  epoch : s'.send_epoch = s.send_epoch

variable {cr : Crypto C} {s : SecureDatagramSession C}

/-- The cipher for an epoch. -/
def cipher_of (cr : Crypto C) (root_key : List Byte) (algorithm : String) (epoch : Nat) (dir : SecureDatagramDirection) : C :=
  let key := hkdf_traffic_key cr root_key epoch dir
  cr.create_encryptor algorithm (key.take 16) key

theorem encryptor_eq (h : KeysFit cr s) (epoch : Nat) (dir : SecureDatagramDirection) (generation : Nat) (is_send : Bool) :
    (get_or_create_encryptor cr s epoch dir generation is_send).1 =
      some (cipher_of cr s.root_key (if is_send then s.send_cipher_algorithm else s.recv_cipher_algorithm) epoch dir) := by
  rw [(get_or_create_encryptor_spec h epoch dir generation is_send).1, EpochKeySlot.get_encryptor]
  cases is_send <;> rfl

/-- How a packet from the network ends: it is refused before it is opened, or it is opened and
entered. -/
theorem decrypt_payload_cases (h : KeysFit cr s) (dir : SecureDatagramDirection) (pkt : ZCPacket) (now_ms : Nat) :
    (∃ e, decrypt_payload cr s dir pkt now_ms = (.error e, s)) ∨
    (∃ e s', decrypt_payload cr s dir pkt now_ms = (.error e, s') ∧ Beside (s.open_rx now_ms).2 s' ∧ KeysFit cr s') ∨
    (∃ epoch seq s' plain, parse_nonce pkt.payload = some (epoch, seq) ∧ Beside (s.open_rx now_ms).2 s' ∧ KeysFit cr s' ∧
      cr.decrypt (cipher_of cr s.root_key s.recv_cipher_algorithm epoch dir) pkt = .ok plain ∧
      (decrypt_payload cr s dir pkt now_ms).2 = (s'.commit_replay epoch seq dir now_ms).2 ∧
      ∀ out, (decrypt_payload cr s dir pkt now_ms).1 = .ok out → out = plain ∧ (s'.commit_replay epoch seq dir now_ms).1 = true) := by
  rw [decrypt_payload]
  by_cases hvalid : (!s.is_valid) = true
  · rw [if_pos hvalid]
    exact .inl ⟨_, rfl⟩
  rw [if_neg hvalid]
  cases hnonce : parse_nonce pkt.payload with
  | none => exact .inl ⟨_, rfl⟩
  | some es =>
    obtain ⟨epoch, seq⟩ := es
    have hopen := keysFit_open h now_ms
    have hbeside : Beside (s.open_rx now_ms).2 (s.open_rx now_ms).2 := ⟨⟨rfl, rfl, rfl⟩, rfl, rfl, rfl, rfl⟩
    simp only [precheck_replay_snd]
    by_cases hcheck : (!(s.precheck_replay epoch seq dir now_ms).1) = true
    · rw [if_pos hcheck]
      exact .inr (.inl ⟨_, _, rfl, hbeside, hopen⟩)
    rw [if_neg hcheck]
    have hroot : (s.open_rx now_ms).2.root_key = s.root_key := by rw [open_rx_snd]
    have halg : (s.open_rx now_ms).2.recv_cipher_algorithm = s.recv_cipher_algorithm := by rw [open_rx_snd]
    have henc := encryptor_eq hopen epoch dir (s.open_rx now_ms).2.session_generation false
    have hfit := (get_or_create_encryptor_spec hopen epoch dir (s.open_rx now_ms).2.session_generation false).2
    obtain ⟨key_cache, hcache⟩ := get_or_create_encryptor_snd cr (s.open_rx now_ms).2 epoch dir
      (s.open_rx now_ms).2.session_generation false
    rw [hcache] at hfit
    rw [if_neg Bool.false_ne_true, hroot, halg] at henc
    simp only [henc, hcache]
    cases hdec : cr.decrypt (cipher_of cr s.root_key s.recv_cipher_algorithm epoch dir) pkt with
    | error e => exact .inr (.inl ⟨_, _, rfl, ⟨⟨rfl, rfl, rfl⟩, rfl, rfl, rfl, rfl⟩, hfit.of_same ⟨rfl, rfl, rfl⟩ rfl⟩)
    | ok plain =>
      refine .inr (.inr ⟨epoch, seq, { (s.open_rx now_ms).2 with key_cache := key_cache, decrypt_fail_count := 0 }, plain, rfl,
        ⟨⟨rfl, rfl, rfl⟩, rfl, rfl, rfl, rfl⟩, hfit.of_same ⟨rfl, rfl, rfl⟩ rfl, hdec, ?_⟩)
      simp only []
      split_ifs with hcommit
      · refine ⟨rfl, fun out hout => by cases hout⟩
      · refine ⟨rfl, fun out hout => ?_⟩
        cases hout
        exact ⟨rfl, by simpa using hcommit⟩

/-- Sending leaves the key and the windows. -/
structure Sent (s s' : SecureDatagramSession C) : Prop where
  key : SameKey s s'
  rx : s'.rx_slots = s.rx_slots
  grace : s'.sync_rx_grace = s.sync_rx_grace
  expires : s'.sync_rx_grace_expires_at_ms = s.sync_rx_grace_expires_at_ms
  epoch : s.send_epoch < 2 ^ 32 → s'.send_epoch < 2 ^ 32

theorem sent_next_nonce (s : SecureDatagramSession C) (dir : SecureDatagramDirection) (now_ms : Nat) :
    Sent s (s.next_nonce dir now_ms).2 ∧ (s.next_nonce dir now_ms).1.1 = (s.next_nonce dir now_ms).2.send_epoch ∧
      (s.next_nonce dir now_ms).1.2.2 = nonce (s.next_nonce dir now_ms).1.1 (s.next_nonce dir now_ms).1.2.1 := by
  rw [next_nonce, maybe_rotate_epoch]
  split_ifs
  · exact ⟨⟨⟨rfl, rfl, rfl⟩, rfl, rfl, rfl, fun h => h⟩, rfl, rfl⟩
  · exact ⟨⟨⟨rfl, rfl, rfl⟩, rfl, rfl, rfl, fun _ => Nat.mod_lt _ (by decide)⟩, rfl, rfl⟩

theorem encrypt_payload_cases (h : KeysFit cr s) (dir : SecureDatagramDirection) (pkt : ZCPacket) (now_ms : Nat) :
    Sent s (encrypt_payload cr s dir pkt now_ms).2 ∧ KeysFit cr (encrypt_payload cr s dir pkt now_ms).2 ∧
      ∀ out, (encrypt_payload cr s dir pkt now_ms).1 = .ok out → ∃ epoch seq, (s.send_epoch < 2 ^ 32 → epoch < 2 ^ 32) ∧
        cr.encrypt_with_nonce (cipher_of cr s.root_key s.send_cipher_algorithm epoch dir) pkt (nonce epoch seq) = .ok out := by
  rw [encrypt_payload]
  by_cases hvalid : (!s.is_valid) = true
  · rw [if_pos hvalid]
    exact ⟨⟨⟨rfl, rfl, rfl⟩, rfl, rfl, rfl, fun h => h⟩, h, fun out hout => by cases hout⟩
  rw [if_neg hvalid]
  obtain ⟨hsent, hepoch, hnonce⟩ := sent_next_nonce s dir now_ms
  have hdrawn := keysFit_next_nonce h dir now_ms
  have henc := encryptor_eq hdrawn (s.next_nonce dir now_ms).1.1 dir (s.next_nonce dir now_ms).2.session_generation true
  have hfit := (get_or_create_encryptor_spec hdrawn (s.next_nonce dir now_ms).1.1 dir
    (s.next_nonce dir now_ms).2.session_generation true).2
  obtain ⟨key_cache, hcache⟩ := get_or_create_encryptor_snd cr (s.next_nonce dir now_ms).2 (s.next_nonce dir now_ms).1.1 dir
    (s.next_nonce dir now_ms).2.session_generation true
  rw [hcache] at hfit
  rw [if_pos rfl, hsent.key.1, hsent.key.2.1] at henc
  simp only [henc, hcache, hnonce]
  cases hseal : cr.encrypt_with_nonce (cipher_of cr s.root_key s.send_cipher_algorithm (s.next_nonce dir now_ms).1.1 dir) pkt
    (nonce (s.next_nonce dir now_ms).1.1 (s.next_nonce dir now_ms).1.2.1) with
  | error e =>
    exact ⟨⟨⟨hsent.key.1, hsent.key.2.1, hsent.key.2.2⟩, hsent.rx, hsent.grace, hsent.expires, hsent.epoch⟩,
      hfit.of_same ⟨rfl, rfl, rfl⟩ rfl, fun out hout => by cases hout⟩
  | ok out =>
    refine ⟨⟨⟨hsent.key.1, hsent.key.2.1, hsent.key.2.2⟩, hsent.rx, hsent.grace, hsent.expires, hsent.epoch⟩, hfit, ?_⟩
    intro out' hout
    cases hout
    exact ⟨_, _, fun hlt => hepoch ▸ hsent.epoch hlt, hseal⟩

/-! ## Windows -/

variable {s' : SecureDatagramSession C} {dir : SecureDatagramDirection} {now_ms : Nat}

/-- The windows of the direction refuse the packet. -/
def Barred (dir : SecureDatagramDirection) (s : SecureDatagramSession C) (k : Nat × Nat) : Prop :=
  Refused (s.grace_of dir) (s.rx_slots.get dir) k.1 k.2

/-- The sessions have the same windows. -/
def SameWindows (s s' : SecureDatagramSession C) : Prop :=
  s'.rx_slots = s.rx_slots ∧ s'.sync_rx_grace = s.sync_rx_grace ∧
    s'.sync_rx_grace_expires_at_ms = s.sync_rx_grace_expires_at_ms

theorem SameWindows.barred (h : SameWindows s s') (k : Nat × Nat) : Barred dir s' k ↔ Barred dir s k := by
  rw [Barred, Barred, grace_of, grace_of, h.1, h.2.1, h.2.2]

theorem SameWindows.kept (h : SameWindows s s') (hk : WindowsKept dir s now_ms) : WindowsKept dir s' now_ms := by
  have hgrace : s'.grace_of dir = s.grace_of dir := by
    rw [grace_of, grace_of, h.2.1, h.2.2]
  refine ⟨?_, fun hne => ?_, fun slots hslots => ?_⟩
  · rw [h.1]
    exact hk.used
  · rw [hgrace] at hne
    rw [graced, h.2.1, h.2.2]
    exact hk.graced hne
  · rw [hgrace] at hslots
    exact hk.grace_used slots hslots

theorem Beside.windows (h : Beside s s') : SameWindows s s' := ⟨h.rx, h.grace, h.expires⟩

theorem Sent.windows (h : Sent s s') : SameWindows s s' := ⟨h.rx, h.grace, h.expires⟩

/-- A packet from the network leaves the keys, and the epoch of what is sent. -/
theorem decrypt_payload_keeps (h : KeysFit cr s) (dir : SecureDatagramDirection) (pkt : ZCPacket) (now_ms : Nat) :
    KeysFit cr (decrypt_payload cr s dir pkt now_ms).2 ∧ SameKey s (decrypt_payload cr s dir pkt now_ms).2 ∧
      (decrypt_payload cr s dir pkt now_ms).2.send_epoch = s.send_epoch := by
  have hopen : (s.open_rx now_ms).2.send_epoch = s.send_epoch := by rw [open_rx_snd]
  rcases decrypt_payload_cases h dir pkt now_ms with
    ⟨e, heq⟩ | ⟨e, s', heq, hs', hfit⟩ | ⟨epoch, seq, s', plain, -, hs', hfit, -, heq, -⟩
  · rw [heq]
    exact ⟨h, ⟨rfl, rfl, rfl⟩, rfl⟩
  · rw [heq]
    exact ⟨hfit, (sameKey_open s now_ms).trans hs'.key, hs'.epoch.trans hopen⟩
  · obtain ⟨hkey, hepoch⟩ := sameKey_commit s' epoch seq dir now_ms
    rw [heq]
    exact ⟨keysFit_commit hfit epoch seq dir now_ms, ((sameKey_open s now_ms).trans hs'.key).trans hkey,
      hepoch.trans (hs'.epoch.trans hopen)⟩

/-- A packet from the network leaves what was refused, and what it lets through was not refused
before and is afterwards. -/
theorem decrypt_payload_bars (h : KeysFit cr s) (hord : InOrder (s.rx_slots.get dir)) (hkept : WindowsKept dir s now_ms) (pkt : ZCPacket) :
    InOrder ((decrypt_payload cr s dir pkt now_ms).2.rx_slots.get dir) ∧
      (∀ k, Barred dir s k → Barred dir (decrypt_payload cr s dir pkt now_ms).2 k) ∧
      ∀ out, (decrypt_payload cr s dir pkt now_ms).1 = .ok out → ∃ k, parse_nonce pkt.payload = some k ∧
        ¬ Barred dir s k ∧ Barred dir (decrypt_payload cr s dir pkt now_ms).2 k ∧
        cr.decrypt (cipher_of cr s.root_key s.recv_cipher_algorithm k.1 dir) pkt = .ok out := by
  rcases decrypt_payload_cases h dir pkt now_ms with
    ⟨e, heq⟩ | ⟨e, s', heq, hs', -⟩ | ⟨epoch, seq, s', plain, hnonce, hs', -, hdec, heq, hout⟩
  · rw [heq]
    exact ⟨hord, fun k hk => hk, fun out hout => by cases hout⟩
  · rw [heq]
    refine ⟨?_, fun k hk => (hs'.windows.barred k).mpr (refused_open hkept hk), fun out hout => by cases hout⟩
    rw [hs'.rx]
    exact inOrder_open hkept hord
  · have hkept' : WindowsKept dir s' now_ms := hs'.windows.kept (kept_open hkept)
    have hord' : InOrder (s'.rx_slots.get dir) := by
      rw [hs'.rx]
      exact inOrder_open hkept hord
    have hbar : ∀ k, Barred dir s k → Barred dir (s'.open_rx now_ms).2 k := fun k hk =>
      refused_open hkept' ((hs'.windows.barred k).mpr (refused_open hkept hk))
    rw [heq, commit_replay_eq]
    refine ⟨enter_inOrder (opened_isSome hkept') (inOrder_open hkept' hord') epoch seq,
      fun k hk => enter_keeps (opened_isSome hkept') (hbar k hk) epoch seq, fun out hok => ?_⟩
    obtain ⟨rfl, hacc⟩ := hout out hok
    obtain ⟨hbefore, hafter⟩ := enter_passes (opened_isSome hkept') (inOrder_open hkept' hord') hacc
    exact ⟨(epoch, seq), hnonce, fun hk => hbefore (hbar _ hk), hafter, hdec⟩

/-! ## The tunnel -/

/-- A packet of the tunnel inside, and what went out for it. -/
structure Message where
  tunnel_payload : List Byte
  payload : List Byte
deriving DecidableEq

/-- The two ends, and what one of them has sent. -/
structure Channel (C : Type) where
  sender : SecureDatagramSession C
  receiver : SecureDatagramSession C
  sent : List Message

/-- One end sends, the other gets anything at all from the network; and the other way round. -/
inductive ChannelMove where
  | send (tunnel_payload : List Byte) (now_ms : Nat)
  | deliver (payload : Option (List Byte)) (now_ms : Nat)
  | reply (tunnel_payload : List Byte) (now_ms : Nat)
  | hear (payload : Option (List Byte)) (now_ms : Nat)

namespace Channel

/-- One move, and what the receiver takes out, with its epoch and number. -/
def step (cr : Crypto C) (role : SecureTunnelRole) (x : Channel C) : ChannelMove → Option (Option (Nat × Nat) × List Byte) × Channel C
  | .send tunnel_payload now_ms =>
    let out := before_send cr x.sender role tunnel_payload now_ms
    (none, { x with sender := out.2, sent := x.sent ++ (out.1.map (Message.mk tunnel_payload)).toList })
  | .deliver payload now_ms =>
    let out := after_received cr x.receiver role.other payload now_ms
    (out.1.toOption.map fun tunnel_payload => (payload.bind parse_nonce, tunnel_payload), { x with receiver := out.2 })
  | .reply tunnel_payload now_ms => (none, { x with receiver := (before_send cr x.receiver role.other tunnel_payload now_ms).2 })
  | .hear payload now_ms => (none, { x with sender := (after_received cr x.sender role payload now_ms).2 })

/-- What opens under the key of its epoch was sealed under it: it was sent. -/
def Unforged (cr : Crypto C) (role : SecureTunnelRole) (x : Channel C) (payload : List Byte) : Prop :=
  ∀ k ∈ parse_nonce payload,
    (cr.decrypt (cipher_of cr x.receiver.root_key x.receiver.recv_cipher_algorithm k.1 role.send_dir) ⟨true, payload⟩).isOk = true →
      payload ∈ x.sent.map Message.payload

/-- Nothing is forged, and the windows in use are kept. -/
def Allowed (cr : Crypto C) (role : SecureTunnelRole) (x : Channel C) : ChannelMove → Prop
  | .deliver payload now_ms => WindowsKept role.send_dir x.receiver now_ms ∧ ∀ p ∈ payload, Unforged cr role x p
  | _ => True

instance (cr : Crypto C) (role : SecureTunnelRole) (x : Channel C) (payload : List Byte) : Decidable (Unforged cr role x payload) :=
  inferInstanceAs (Decidable (∀ k ∈ parse_nonce payload, _ → _))

instance (cr : Crypto C) (role : SecureTunnelRole) (x : Channel C) : ∀ m, Decidable (Allowed cr role x m)
  | .deliver payload now_ms =>
    inferInstanceAs (Decidable (WindowsKept role.send_dir x.receiver now_ms ∧ ∀ p ∈ payload, Unforged cr role x p))
  | .send _ _ | .reply _ _ | .hear _ _ => .isTrue trivial

/-- The two ends agree, and what was sent was sealed for its epoch. -/
structure Agree (cr : Crypto C) (role : SecureTunnelRole) (x : Channel C) : Prop where
  sender_keys : KeysFit cr x.sender
  receiver_keys : KeysFit cr x.receiver
  root_key : x.receiver.root_key = x.sender.root_key
  algorithm : x.receiver.recv_cipher_algorithm = x.sender.send_cipher_algorithm
  epoch : x.sender.send_epoch < 2 ^ 32
  order : InOrder (x.receiver.rx_slots.get role.send_dir)
  sealed : ∀ m ∈ x.sent, ∃ epoch seq pkt, epoch < 2 ^ 32 ∧ pkt.payload = m.payload ∧
    cr.encrypt_with_nonce (cipher_of cr x.sender.root_key x.sender.send_cipher_algorithm epoch role.send_dir)
      ⟨false, m.tunnel_payload⟩ (nonce epoch seq) = .ok pkt

variable {role : SecureTunnelRole} {x : Channel C}

/-- What an end sends is sealed for an epoch of its own. -/
theorem before_send_spec {s : SecureDatagramSession C} (h : KeysFit cr s) (hepoch : s.send_epoch < 2 ^ 32) (role : SecureTunnelRole)
    (tunnel_payload : List Byte) (now_ms : Nat) :
    Sent s (before_send cr s role tunnel_payload now_ms).2 ∧ KeysFit cr (before_send cr s role tunnel_payload now_ms).2 ∧
      ∀ payload, (before_send cr s role tunnel_payload now_ms).1 = some payload → ∃ epoch seq pkt, epoch < 2 ^ 32 ∧
        pkt.payload = payload ∧ cr.encrypt_with_nonce (cipher_of cr s.root_key s.send_cipher_algorithm epoch role.send_dir)
          ⟨false, tunnel_payload⟩ (nonce epoch seq) = .ok pkt := by
  obtain ⟨hsent, hfit, hok⟩ := encrypt_payload_cases h role.send_dir ⟨false, tunnel_payload⟩ now_ms
  refine ⟨hsent, hfit, fun payload hp => ?_⟩
  change (encrypt_payload cr s role.send_dir ⟨false, tunnel_payload⟩ now_ms).1.toOption.map ZCPacket.payload = some payload at hp
  cases hout : (encrypt_payload cr s role.send_dir ⟨false, tunnel_payload⟩ now_ms).1 with
  | error e =>
    rw [hout] at hp
    cases hp
  | ok pkt =>
    rw [hout] at hp
    obtain ⟨epoch, seq, hlt, hseal⟩ := hok pkt hout
    exact ⟨epoch, seq, pkt, hlt hepoch, Option.some.inj hp, hseal⟩

/-- A packet from the network changes a session as decrypting it does, and what comes out is the
decrypted packet. -/
theorem after_received_spec (cr : Crypto C) (s : SecureDatagramSession C) (role : SecureTunnelRole) (payload : Option (List Byte)) (now_ms : Nat) :
    (payload = none ∧ after_received cr s role payload now_ms = (.error "secure packet too short", s)) ∨
    (∃ p, payload = some p ∧
      (after_received cr s role payload now_ms).2 = (decrypt_payload cr s role.recv_dir ⟨true, p⟩ now_ms).2 ∧
      ∀ out, (after_received cr s role payload now_ms).1.toOption = some out →
        ∃ pkt, (decrypt_payload cr s role.recv_dir ⟨true, p⟩ now_ms).1 = .ok pkt ∧ pkt.payload = out) := by
  cases payload with
  | none => exact .inl ⟨rfl, rfl⟩
  | some p =>
    refine .inr ⟨p, rfl, rfl, fun out hout => ?_⟩
    rw [after_received] at hout
    cases hdec : (decrypt_payload cr s role.recv_dir ⟨true, p⟩ now_ms).1 with
    | error e =>
      simp only [hdec] at hout
      cases hout
    | ok pkt =>
      simp only [hdec] at hout
      split_ifs at hout
      · cases hout
      · exact ⟨pkt, rfl, Option.some.inj hout⟩

theorem Agree.sender_moved (h : Agree cr role x) {s : SecureDatagramSession C} (hfit : KeysFit cr s) (hkey : SameKey x.sender s)
    (hepoch : s.send_epoch < 2 ^ 32) : Agree cr role { x with sender := s } := by
  refine ⟨hfit, h.receiver_keys, h.root_key.trans hkey.1.symm, h.algorithm.trans hkey.2.1.symm, hepoch, h.order, fun m hm => ?_⟩
  have hsealed := h.sealed m hm
  rw [← hkey.1, ← hkey.2.1] at hsealed
  exact hsealed

theorem Agree.receiver_moved (h : Agree cr role x) {s : SecureDatagramSession C} (hfit : KeysFit cr s) (hkey : SameKey x.receiver s)
    (hord : InOrder (s.rx_slots.get role.send_dir)) : Agree cr role { x with receiver := s } :=
  ⟨h.sender_keys, hfit, hkey.1.trans h.root_key, hkey.2.2.trans h.algorithm, h.epoch, hord, h.sealed⟩

theorem agree_step (h : Agree cr role x) {m : ChannelMove} (hok : Allowed cr role x m) : Agree cr role (step cr role x m).2 := by
  cases m with
  | send tunnel_payload now_ms =>
    obtain ⟨hsent, hfit, hseal⟩ := before_send_spec h.sender_keys h.epoch role tunnel_payload now_ms
    have hmoved := h.sender_moved hfit hsent.key (hsent.epoch h.epoch)
    refine ⟨hmoved.sender_keys, hmoved.receiver_keys, hmoved.root_key, hmoved.algorithm, hmoved.epoch, hmoved.order, fun m hm => ?_⟩
    rcases List.mem_append.mp hm with hm | hm
    · exact hmoved.sealed m hm
    · have hnew := Option.mem_toList.mp hm
      obtain ⟨payload, hp, rfl⟩ := Option.map_eq_some_iff.mp hnew
      have hsealed := hseal payload hp
      rw [← hsent.key.1, ← hsent.key.2.1] at hsealed
      exact hsealed
  | deliver payload now_ms =>
    rcases after_received_spec cr x.receiver role.other payload now_ms with ⟨-, heq⟩ | ⟨p, -, heq, -⟩
    · have hsame : (step cr role x (.deliver payload now_ms)).2 = x := congrArg (fun r => { x with receiver := r.2 }) heq
      rw [hsame]
      exact h
    · obtain ⟨hfit, hkey, -⟩ := decrypt_payload_keeps h.receiver_keys role.other.recv_dir ⟨true, p⟩ now_ms
      have hbars := decrypt_payload_bars h.receiver_keys h.order hok.1 ⟨true, p⟩
      have hmoved : (step cr role x (.deliver payload now_ms)).2 =
          { x with receiver := (decrypt_payload cr x.receiver role.other.recv_dir ⟨true, p⟩ now_ms).2 } :=
        congrArg (fun r => { x with receiver := r }) heq
      rw [hmoved]
      refine h.receiver_moved hfit hkey ?_
      rw [role.recv_dir_other]
      exact hbars.1
  | reply tunnel_payload now_ms =>
    obtain ⟨hsent, hfit, -⟩ := encrypt_payload_cases h.receiver_keys role.other.send_dir ⟨false, tunnel_payload⟩ now_ms
    refine h.receiver_moved hfit hsent.key ?_
    rw [show ((before_send cr x.receiver role.other tunnel_payload now_ms).2).rx_slots = _ from hsent.rx]
    exact h.order
  | hear payload now_ms =>
    rcases after_received_spec cr x.sender role payload now_ms with ⟨-, heq⟩ | ⟨p, -, heq, -⟩
    · have hsame : (step cr role x (.hear payload now_ms)).2 = x := congrArg (fun r => { x with sender := r.2 }) heq
      rw [hsame]
      exact h
    · obtain ⟨hfit, hkey, hepoch⟩ := decrypt_payload_keeps h.sender_keys role.recv_dir ⟨true, p⟩ now_ms
      have hmoved : (step cr role x (.hear payload now_ms)).2 =
          { x with sender := (decrypt_payload cr x.sender role.recv_dir ⟨true, p⟩ now_ms).2 } :=
        congrArg (fun r => { x with sender := r }) heq
      rw [hmoved]
      exact h.sender_moved hfit hkey (hepoch ▸ h.epoch)

theorem parse_nonce_of_tail {payload : List Byte} {epoch seq : Nat} (h : parse_tail payload = some (nonce epoch seq)) :
    parse_nonce payload = some (epoch % 2 ^ 32, seq % 2 ^ 64) := by
  have htake : (nonce epoch seq).take 4 = toBytes 4 epoch := by
    have hlen : 4 = (toBytes 4 epoch).length := (length_toBytes 4 epoch).symm
    rw [nonce, List.take_append_of_le_length (Nat.le_of_eq hlen), List.take_of_length_le (Nat.le_of_eq hlen.symm)]
  have hdrop : (nonce epoch seq).drop 4 = toBytes 8 seq := List.drop_left' (length_toBytes 4 epoch)
  rw [parse_nonce, h, Option.map_some, htake, hdrop, ofBytes_toBytes, ofBytes_toBytes]
  rfl

/-- What the receiver takes out was sent, and was not refused before. -/
theorem delivered (hseals : ∀ key_128 key, Seals cr (cr.create_encryptor x.sender.send_cipher_algorithm key_128 key))
    (h : Agree cr role x) {payload : Option (List Byte)} {now_ms : Nat} (hok : Allowed cr role x (.deliver payload now_ms))
    {k : Option (Nat × Nat) × List Byte} (hk : (step cr role x (.deliver payload now_ms)).1 = some k) :
    ∃ e, k.1 = some e ∧ ¬ Barred role.send_dir x.receiver e ∧
      Barred role.send_dir (step cr role x (.deliver payload now_ms)).2.receiver e ∧
      ∃ m ∈ x.sent, m.tunnel_payload = k.2 ∧ parse_nonce m.payload = some e := by
  obtain ⟨out, hout, rfl⟩ := Option.map_eq_some_iff.mp hk
  rcases after_received_spec cr x.receiver role.other payload now_ms with ⟨-, heq⟩ | ⟨p, rfl, heq, hpkt⟩
  · rw [heq] at hout
    cases hout
  · obtain ⟨pkt, hdec, rfl⟩ := hpkt out hout
    rw [role.recv_dir_other] at heq hdec
    obtain ⟨-, -, hpass⟩ := decrypt_payload_bars h.receiver_keys h.order hok.1 ⟨true, p⟩
    obtain ⟨e, hnonce, hbefore, hafter, hopens⟩ := hpass pkt hdec
    have hsent := hok.2 p rfl e hnonce (by rw [hopens]; rfl)
    obtain ⟨m, hm, rfl⟩ := List.mem_map.mp hsent
    obtain ⟨epoch, seq, pkt', hlt, hp, hseal⟩ := h.sealed m hm
    have htail := (hseals _ _).tail _ _ _ hseal
    rw [hp] at htail
    have hparse := parse_nonce_of_tail htail
    have hepoch : e.1 = epoch := by
      rw [hnonce, Option.some.injEq] at hparse
      rw [hparse]
      exact Nat.mod_eq_of_lt hlt
    have hback := (hseals _ _).opens _ _ _ hseal
    rw [hp] at hback
    rw [h.root_key, h.algorithm, hepoch] at hopens
    have hplain := Except.ok.inj (hopens.symm.trans hback)
    refine ⟨e, hnonce, hbefore, ?_, m, hm, by rw [hplain], hnonce⟩
    show Barred role.send_dir (after_received cr x.receiver role.other (some m.payload) now_ms).2 e
    rw [heq]
    exact hafter

theorem algorithm_step (h : Agree cr role x) (m : ChannelMove) :
    (step cr role x m).2.sender.send_cipher_algorithm = x.sender.send_cipher_algorithm := by
  cases m with
  | send tunnel_payload now_ms =>
    exact (before_send_spec h.sender_keys h.epoch role tunnel_payload now_ms).1.key.2.1
  | deliver payload now_ms => rfl
  | reply tunnel_payload now_ms => rfl
  | hear payload now_ms =>
    show (after_received cr x.sender role payload now_ms).2.send_cipher_algorithm = _
    rcases after_received_spec cr x.sender role payload now_ms with ⟨-, heq⟩ | ⟨p, -, heq, -⟩
    · rw [heq]
    · rw [heq]
      exact (decrypt_payload_keeps h.sender_keys role.recv_dir ⟨true, p⟩ now_ms).2.1.2.1

theorem barred_step (h : Agree cr role x) {m : ChannelMove} (hok : Allowed cr role x m) {k : Nat × Nat}
    (hk : Barred role.send_dir x.receiver k) : Barred role.send_dir (step cr role x m).2.receiver k := by
  cases m with
  | send tunnel_payload now_ms => exact hk
  | hear payload now_ms => exact hk
  | reply tunnel_payload now_ms =>
    have hsent := (encrypt_payload_cases h.receiver_keys role.other.send_dir ⟨false, tunnel_payload⟩ now_ms).1
    exact (hsent.windows.barred k).mpr hk
  | deliver payload now_ms =>
    show Barred role.send_dir (after_received cr x.receiver role.other payload now_ms).2 k
    rcases after_received_spec cr x.receiver role.other payload now_ms with ⟨-, heq⟩ | ⟨p, -, heq, -⟩
    · rw [heq]
      exact hk
    · rw [heq, role.recv_dir_other]
      exact (decrypt_payload_bars h.receiver_keys h.order hok.1 ⟨true, p⟩).2.1 k hk

theorem sent_step (m : ChannelMove) : ∀ k ∈ x.sent, k ∈ (step cr role x m).2.sent := by
  intro k hk
  cases m with
  | send tunnel_payload now_ms => exact List.mem_append_left _ hk
  | deliver payload now_ms => exact hk
  | reply tunnel_payload now_ms => exact hk
  | hear payload now_ms => exact hk

theorem bars {algorithm : String} (hseals : ∀ key_128 key, Seals cr (cr.create_encryptor algorithm key_128 key)) :
    Bars (fun x => Agree cr role x ∧ x.sender.send_cipher_algorithm = algorithm) (Allowed cr role) (step cr role)
      (fun x k => ∃ e, k.1 = some e ∧ Barred role.send_dir x.receiver e) where
  inv_step := fun _ m h hok => ⟨agree_step h.1 hok, (algorithm_step h.1 m).trans h.2⟩
  passes := fun x m k h hok hk => by
    cases m with
    | deliver payload now_ms =>
      obtain ⟨e, he, hbefore, hafter, -⟩ := delivered (h.2.symm ▸ hseals) h.1 hok hk
      refine ⟨?_, e, he, hafter⟩
      rintro ⟨e', he', hbarred⟩
      rw [he, Option.some.injEq] at he'
      exact hbefore (he'.symm ▸ hbarred)
    | send tunnel_payload now_ms => cases hk
    | reply tunnel_payload now_ms => cases hk
    | hear payload now_ms => cases hk
  keeps := fun _ _ _ h hok hk => by
    obtain ⟨e, he, hbarred⟩ := hk
    exact ⟨e, he, barred_step h.1 hok hbarred⟩

/-- The two ends with the same root key, before the first packet. -/
def connected (root_key : List Byte) (algorithm : String) (started_ms started_ms' : Nat) : Channel C :=
  ⟨new_web_secure_session root_key algorithm started_ms, new_web_secure_session root_key algorithm started_ms', []⟩

theorem agree_connected (cr : Crypto C) (role : SecureTunnelRole) (root_key : List Byte) (algorithm : String)
    (started_ms started_ms' : Nat) : Agree cr role (connected root_key algorithm started_ms started_ms') where
  sender_keys := keysFit_new _ _ _ _ _ _
  receiver_keys := keysFit_new _ _ _ _ _ _
  root_key := rfl
  algorithm := rfl
  epoch := Nat.two_pow_pos 32
  order := inOrder_new _ _ _ _ _ _ _
  sealed := fun _ hm => by cases hm

/-- A message that was sent, with the epoch and the number of what went out for it. -/
def InSent (x : Channel C) (k : Option (Nat × Nat) × List Byte) : Prop :=
  k ∈ x.sent.map fun m => (parse_nonce m.payload, m.tunnel_payload)

theorem inSent_step (m : ChannelMove) {k : Option (Nat × Nat) × List Byte} (hk : InSent x k) : InSent (step cr role x m).2 k := by
  obtain ⟨msg, hmsg, rfl⟩ := List.mem_map.mp hk
  exact List.mem_map.mpr ⟨msg, sent_step m msg hmsg, rfl⟩

theorem inSent_delivered (hseals : ∀ key_128 key, Seals cr (cr.create_encryptor x.sender.send_cipher_algorithm key_128 key))
    (h : Agree cr role x) {m : ChannelMove} (hok : Allowed cr role x m) {k : Option (Nat × Nat) × List Byte}
    (hk : (step cr role x m).1 = some k) : InSent (step cr role x m).2 k := by
  cases m with
  | deliver payload now_ms =>
    obtain ⟨e, he, -, -, msg, hmsg, hpayload, hnonce⟩ := delivered hseals h hok hk
    refine List.mem_map.mpr ⟨msg, hmsg, ?_⟩
    rw [hnonce, hpayload, ← he]
  | send tunnel_payload now_ms => cases hk
  | reply tunnel_payload now_ms => cases hk
  | hear payload now_ms => cases hk

/-- What the receiver takes out is, in some order, part of what the sender put in. -/
theorem taken_subperm_sent {algorithm : String} (hseals : ∀ key_128 key, Seals cr (cr.create_encryptor algorithm key_128 key))
    {root_key : List Byte} {started_ms started_ms' : Nat} {moves : List ChannelMove}
    (h : Along (Allowed cr role) (step cr role) (connected root_key algorithm started_ms started_ms') moves) :
    ((passed (step cr role) (connected root_key algorithm started_ms started_ms') moves).map Prod.snd).Subperm
      ((reached (step cr role) (connected root_key algorithm started_ms started_ms') moves).sent.map Message.tunnel_payload) := by
  have hinv : Agree cr role (connected root_key algorithm started_ms started_ms') ∧
      (connected root_key algorithm started_ms started_ms' : Channel C).sender.send_cipher_algorithm = algorithm :=
    ⟨agree_connected cr role root_key algorithm started_ms started_ms', rfl⟩
  have hlogged := (bars hseals).logged InSent (fun _ m _ hk => inSent_step m hk)
    (fun _ _ _ h hok hk => inSent_delivered (h.2.symm ▸ hseals) h.1 hok hk) moves _ hinv h
  have hsub := List.subperm_of_subset ((bars hseals).nodup moves _ hinv h) fun k hk => hlogged k (.inr hk)
  obtain ⟨l, hperm, hsublist⟩ := hsub
  have hmap := hsublist.map Prod.snd
  rw [List.map_map] at hmap
  exact ⟨l.map Prod.snd, hperm.map Prod.snd, hmap⟩

theorem seals_web {aead : Aead} (hopens : aead.Opens) (hmac : List Byte → List Byte → List Byte) (key_128 key : List Byte) :
    Seals (crypto hmac aead) ((crypto hmac aead).create_encryptor WEB_SECURE_CIPHER_ALGORITHM key_128 key) := by
  have hring : create_encryptor WEB_SECURE_CIPHER_ALGORITHM key_128 key = .RingCipher .AesGcm key_128 := by
    have hname : EncryptionAlgorithm.try_from WEB_SECURE_CIPHER_ALGORITHM = some .AesGcm := by decide
    rw [create_encryptor, hname]
    rfl
  show Seals (crypto hmac aead) (create_encryptor WEB_SECURE_CIPHER_ALGORITHM key_128 key)
  rw [hring]
  exact seals_ring hopens hmac .AesGcm key_128

/-- The web tunnel: what one end takes out is, in some order, part of what the other put in. -/
theorem web_taken_subperm_sent {aead : Aead} (hopens : aead.Opens) {hmac : List Byte → List Byte → List Byte} {root_key : List Byte}
    {started_ms started_ms' : Nat} {moves : List ChannelMove}
    (h : Along (Allowed (crypto hmac aead) role) (step (crypto hmac aead) role)
      (connected root_key WEB_SECURE_CIPHER_ALGORITHM started_ms started_ms') moves) :
    ((passed (step (crypto hmac aead) role) (connected root_key WEB_SECURE_CIPHER_ALGORITHM started_ms started_ms') moves).map
      Prod.snd).Subperm
      ((reached (step (crypto hmac aead) role) (connected root_key WEB_SECURE_CIPHER_ALGORITHM started_ms started_ms')
        moves).sent.map Message.tunnel_payload) :=
  taken_subperm_sent (seals_web hopens hmac) h

/-- A cipher that hides nothing, for a run by hand. -/
def aead_of_test : Aead where
  seal_in_place_separate_tag := fun _ _ _ text => some (text, List.replicate TAG_SIZE 0)
  open_in_place := fun _ _ _ text => some (text.take (text.length - TAG_SIZE))

theorem opens_of_test : aead_of_test.Opens := by
  intro algorithm key nonce text sealed tag h
  cases h
  refine ⟨List.length_replicate, congrArg some ?_⟩
  rw [List.length_append, List.length_replicate, Nat.add_sub_cancel, List.take_left]

def text_of_test : List Byte := List.replicate 16 7

def sent_of_test : List Byte := text_of_test ++ List.replicate TAG_SIZE 0 ++ List.replicate 12 0

def moves_of_test : List ChannelMove :=
  [.send text_of_test 1000, .deliver (some sent_of_test) 1001, .deliver (some sent_of_test) 1002, .deliver (some [1, 2]) 1003,
    .deliver none 1004, .reply text_of_test 1005, .hear (some sent_of_test) 1006]

theorem web_taken_of_test :
    ((passed (step (crypto (fun _ text => text) aead_of_test) .Initiator) (connected [] WEB_SECURE_CIPHER_ALGORITHM 0 0)
      moves_of_test).map Prod.snd).Subperm
      ((reached (step (crypto (fun _ text => text) aead_of_test) .Initiator) (connected [] WEB_SECURE_CIPHER_ALGORITHM 0 0)
        moves_of_test).sent.map Message.tunnel_payload) :=
  web_taken_subperm_sent opens_of_test (by decide)

end Channel
end EasyTierHost.WebClient
