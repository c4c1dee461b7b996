import EasyTierHost.Peers.SecureDatagram

/- The packet ciphers (peers/encrypt): authenticated ones, whose tag and nonce follow the
   text, and exclusive or. The authenticated ciphers themselves are not here (`Aead`). -/
namespace EasyTierHost.Peers
open Bits

inductive EncryptionAlgorithm where
  | Xor
  | AesGcm
  | Aes256Gcm
  | ChaCha20
deriving DecidableEq

namespace EncryptionAlgorithm

def name : EncryptionAlgorithm → String
  | Xor => "xor"
  | AesGcm => "aes-gcm"
  | Aes256Gcm => "aes-256-gcm"
  | ChaCha20 => "chacha20"

def default : EncryptionAlgorithm := AesGcm

/-- Names are read whatever the case of their letters. -/
def try_from (algorithm : String) : Option EncryptionAlgorithm :=
  [Xor, AesGcm, Aes256Gcm, ChaCha20].find? fun a => a.name.toList == algorithm.toList.map Char.toLower

end EncryptionAlgorithm

inductive EncryptError where
  | PacketTooShort (len : Nat)
  | DecryptionFailed
  | EncryptionFailed
  | InvalidTag (tag : List Byte)

def EncryptError.text : EncryptError → String
  | PacketTooShort len => "packet is too short. len: " ++ toString len
  | DecryptionFailed => "decryption failed"
  | EncryptionFailed => "encryption failed"
  | InvalidTag tag => "invalid tag. tag: " ++ toString (tag.map BitVec.toNat)

/-- The library's ciphers: `seal` gives the text of a message and its tag, `open` takes one
after the other. -/
structure Aead where
  seal_in_place_separate_tag : EncryptionAlgorithm → List Byte → List Byte → List Byte → Option (List Byte × List Byte)
  open_in_place : EncryptionAlgorithm → List Byte → List Byte → List Byte → Option (List Byte)

def TAG_SIZE : Nat := 16

/-- What the library promises of a message it has sealed. -/
def Aead.Opens (aead : Aead) : Prop := ∀ algorithm key nonce text sealed tag,
  aead.seal_in_place_separate_tag algorithm key nonce text = some (sealed, tag) →
    tag.length = TAG_SIZE ∧ aead.open_in_place algorithm key nonce (sealed ++ tag) = some text

inductive Encryptor where
  | RingCipher (algorithm : EncryptionAlgorithm) (key : List Byte)
  | XorCipher (key : List Byte)
  | NullCipher
deriving DecidableEq

namespace Encryptor
open SecureDatagramSession

def xor_data (key data : List Byte) : List Byte := data.mapIdx fun i b => b ^^^ key.getD (i % key.length) 0

def ring_encrypt (aead : Aead) (algorithm : EncryptionAlgorithm) (key : List Byte) (pkt : ZCPacket) (nonce : List Byte) :
    Except EncryptError ZCPacket :=
  if pkt.encrypted then .ok pkt
  else if nonce.length ≠ NONCE_SIZE then .error .EncryptionFailed
  else match aead.seal_in_place_separate_tag algorithm key nonce pkt.payload with
    | none => .error .EncryptionFailed
    | some (text, tag) => if tag.length ≠ TAG_SIZE then .error (.InvalidTag tag) else .ok ⟨true, text ++ (tag ++ nonce)⟩

def ring_decrypt (aead : Aead) (algorithm : EncryptionAlgorithm) (key : List Byte) (pkt : ZCPacket) :
    Except EncryptError ZCPacket :=
  if !pkt.encrypted then .ok pkt
  else if pkt.payload.length < TAIL_SIZE then .error (.PacketTooShort pkt.payload.length)
  else
    let text_and_tag_len := pkt.payload.length - TAIL_SIZE + TAG_SIZE
    let nonce := pkt.payload.drop (pkt.payload.length - NONCE_SIZE)
    match aead.open_in_place algorithm key nonce (pkt.payload.take text_and_tag_len) with
    | none => .error .DecryptionFailed
    | some text => .ok ⟨false, text⟩

def encrypt_with_nonce (aead : Aead) (c : Encryptor) (pkt : ZCPacket) (nonce : List Byte) : Except EncryptError ZCPacket :=
  match c with
  | RingCipher algorithm key => ring_encrypt aead algorithm key pkt nonce
  | XorCipher key => if pkt.encrypted then .ok pkt else .ok ⟨true, xor_data key pkt.payload⟩
  | NullCipher => .ok pkt

def decrypt (aead : Aead) (c : Encryptor) (pkt : ZCPacket) : Except EncryptError ZCPacket :=
  match c with
  | RingCipher algorithm key => ring_decrypt aead algorithm key pkt
  | XorCipher key => if !pkt.encrypted then .ok pkt else .ok ⟨false, xor_data key pkt.payload⟩
  | NullCipher => if pkt.encrypted then .error .DecryptionFailed else .ok pkt

end Encryptor

def create_encryptor (algorithm : String) (key_128 key_256 : List Byte) : Encryptor :=
  match (EncryptionAlgorithm.try_from algorithm).getD .default with
  | .Xor => .XorCipher key_128
  | .AesGcm => .RingCipher .AesGcm key_128
  | .Aes256Gcm => .RingCipher .Aes256Gcm key_256
  | .ChaCha20 => .RingCipher .ChaCha20 key_256

/-- The ciphers of a session. -/
def crypto (hmac : List Byte → List Byte → List Byte) (aead : Aead) : Crypto Encryptor where
  hmac := hmac
  create_encryptor := create_encryptor
  encrypt_with_nonce := fun c pkt nonce => (c.encrypt_with_nonce aead pkt nonce).mapError EncryptError.text
  decrypt := fun c pkt => (c.decrypt aead pkt).mapError EncryptError.text

/-! ## Round trips -/

/-- A cipher that opens what it has sealed, and puts the nonce at the end of the packet. -/
structure Seals {C : Type} (cr : Crypto C) (c : C) : Prop where
  tail : ∀ text nonce pkt, cr.encrypt_with_nonce c ⟨false, text⟩ nonce = .ok pkt →
    SecureDatagramSession.parse_tail pkt.payload = some nonce
  opens : ∀ text nonce pkt, cr.encrypt_with_nonce c ⟨false, text⟩ nonce = .ok pkt →
    cr.decrypt c ⟨true, pkt.payload⟩ = .ok ⟨false, text⟩

section
open SecureDatagramSession
variable {aead : Aead} {algorithm : EncryptionAlgorithm} {key text nonce : List Byte} {pkt : ZCPacket}

theorem ring_encrypt_ok (h : Encryptor.ring_encrypt aead algorithm key ⟨false, text⟩ nonce = .ok pkt) :
    ∃ sealed tag, nonce.length = NONCE_SIZE ∧ tag.length = TAG_SIZE ∧
      aead.seal_in_place_separate_tag algorithm key nonce text = some (sealed, tag) ∧ pkt = ⟨true, sealed ++ (tag ++ nonce)⟩ := by
  rw [Encryptor.ring_encrypt, if_neg (by simp)] at h
  by_cases hnonce : nonce.length = NONCE_SIZE
  · rw [if_neg (not_not.mpr hnonce)] at h
    cases hs : aead.seal_in_place_separate_tag algorithm key nonce text with
    | none =>
      simp only [hs] at h
      cases h
    | some st =>
      obtain ⟨sealed, tag⟩ := st
      simp only [hs] at h
      by_cases htag : tag.length = TAG_SIZE
      · rw [if_neg (not_not.mpr htag)] at h
        exact ⟨sealed, tag, hnonce, htag, rfl, (Except.ok.inj h).symm⟩
      · rw [if_pos htag] at h
        cases h
  · rw [if_pos hnonce] at h
    cases h

theorem parse_tail_append {sealed tag : List Byte} (hnonce : nonce.length = NONCE_SIZE) (htag : tag.length = TAG_SIZE) :
    parse_tail (sealed ++ (tag ++ nonce)) = some nonce := by
  have hlen : (sealed ++ (tag ++ nonce)).length = sealed.length + TAIL_SIZE := by
    rw [List.length_append, List.length_append, hnonce, htag]
    rfl
  have hdrop : sealed.length + TAIL_SIZE - NONCE_SIZE = (sealed ++ tag).length := by
    rw [List.length_append, htag]
    rfl
  rw [parse_tail, hlen, if_pos (Nat.le_add_left _ _), hdrop, ← List.append_assoc, List.drop_left]

theorem ring_decrypt_sealed (hopen : aead.Opens) {sealed tag : List Byte} (hnonce : nonce.length = NONCE_SIZE)
    (hseal : aead.seal_in_place_separate_tag algorithm key nonce text = some (sealed, tag)) :
    Encryptor.ring_decrypt aead algorithm key ⟨true, sealed ++ (tag ++ nonce)⟩ = .ok ⟨false, text⟩ := by
  obtain ⟨htag, htext⟩ := hopen algorithm key nonce text sealed tag hseal
  have hlen : (sealed ++ (tag ++ nonce)).length = sealed.length + TAIL_SIZE := by
    rw [List.length_append, List.length_append, hnonce, htag]
    rfl
  have htake : sealed.length + TAIL_SIZE - TAIL_SIZE + TAG_SIZE = (sealed ++ tag).length := by
    rw [List.length_append, htag, Nat.add_sub_cancel]
  have hdrop : sealed.length + TAIL_SIZE - NONCE_SIZE = (sealed ++ tag).length := by
    rw [List.length_append, htag]
    rfl
  rw [Encryptor.ring_decrypt, if_neg (by simp), hlen, if_neg (Nat.not_lt.mpr (Nat.le_add_left _ _)), htake, hdrop,
    ← List.append_assoc, List.drop_left]
  simp only [List.take_left, htext]

theorem seals_ring (hopen : aead.Opens) (hmac : List Byte → List Byte → List Byte) (algorithm : EncryptionAlgorithm)
    (key : List Byte) : Seals (crypto hmac aead) (.RingCipher algorithm key) := by
  have hok : ∀ text nonce pkt, (crypto hmac aead).encrypt_with_nonce (.RingCipher algorithm key) ⟨false, text⟩ nonce = .ok pkt →
      Encryptor.ring_encrypt aead algorithm key ⟨false, text⟩ nonce = .ok pkt := by
    intro text nonce pkt h
    change (Encryptor.ring_encrypt aead algorithm key ⟨false, text⟩ nonce).mapError EncryptError.text = .ok pkt at h
    cases he : Encryptor.ring_encrypt aead algorithm key ⟨false, text⟩ nonce with
    | error e =>
      rw [he] at h
      cases h
    | ok pkt' =>
      rw [he] at h
      exact congrArg Except.ok (Except.ok.inj h)
  refine ⟨fun text nonce pkt h => ?_, fun text nonce pkt h => ?_⟩
  · obtain ⟨sealed, tag, hnonce, htag, -, rfl⟩ := ring_encrypt_ok (hok text nonce pkt h)
    exact parse_tail_append hnonce htag
  · obtain ⟨sealed, tag, hnonce, -, hseal, rfl⟩ := ring_encrypt_ok (hok text nonce pkt h)
    show (Encryptor.ring_decrypt aead algorithm key ⟨true, sealed ++ (tag ++ nonce)⟩).mapError EncryptError.text = _
    rw [ring_decrypt_sealed hopen hnonce hseal]
    rfl

end
end EasyTierHost.Peers
