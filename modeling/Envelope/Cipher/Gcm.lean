import Envelope.Cipher.Aes
import Envelope.Cipher.Ghash

set_option autoImplicit false

namespace Envelope.Gcm

abbrev Key := Sized 32
abbrev Nonce := Sized 12

def tagLength : Nat := 16

-- The most bytes that are sealed at once, and that are bound to them.
def maxLength : Nat := 1 <<< 36

def Sealable (plaintext aad : Bytes) : Prop :=
  plaintext.length ≤ maxLength ∧ aad.length ≤ maxLength

-- Opening takes a text that is longer by a tag than any that is sealed.
def Openable (masked aad : Bytes) : Prop :=
  masked.length ≤ maxLength + tagLength ∧ aad.length ≤ maxLength

instance (plaintext aad : Bytes) : Decidable (Sealable plaintext aad) :=
  inferInstanceAs (Decidable (_ ∧ _))

instance (masked aad : Bytes) : Decidable (Openable masked aad) :=
  inferInstanceAs (Decidable (_ ∧ _))

def counterBlock (nonce : Nonce) (count : UInt32) : Aes.Block :=
  Aes.Block.ofBytes (nonce.val ++
    [(count >>> 24).toUInt8, (count >>> 16).toUInt8, (count >>> 8).toUInt8, count.toUInt8])

def keyStream (keys : List Aes.Block) (nonce : Nonce) (count : UInt32) : Nat → Bytes
  | 0 => []
  | n + 1 =>
    (Aes.encryptWith keys (counterBlock nonce count)).toBytes ++ keyStream keys nonce (count + 1) n

def mask (key : Key) (nonce : Nonce) (text : Bytes) : Bytes :=
  List.zipWith (· ^^^ ·) text (keyStream (Aes.roundKeys key) nonce 2 ((text.length + 15) / 16))

def hashKey (key : Key) : Ghash.Element :=
  Ghash.Element.ofBytes (Aes.encryptWith (Aes.roundKeys key) (Aes.Block.ofBytes [])).toBytes

def pad (key : Key) (nonce : Nonce) : Ghash.Element :=
  Ghash.Element.ofBytes (Aes.encryptWith (Aes.roundKeys key) (counterBlock nonce 1)).toBytes

def tag (key : Key) (nonce : Nonce) (aad masked : Bytes) : Bytes :=
  ((Ghash.checksum (hashKey key) aad masked).add (pad key nonce)).toBytes

def sealed (key : Key) (nonce : Nonce) (plaintext aad : Bytes) : Bytes :=
  let masked := mask key nonce plaintext
  masked ++ tag key nonce aad masked

example : sealed (Sized.zero 32) (Sized.zero 12) (List.replicate 16 0) [] =
    [0xCE, 0xA7, 0x40, 0x3D, 0x4D, 0x60, 0x6B, 0x6E, 0x07, 0x4E, 0xC5, 0xD3, 0xBA, 0xF3, 0x9D, 0x18,
      0xD0, 0xD1, 0xC8, 0xA7, 0x99, 0x99, 0x6B, 0xF0, 0x26, 0x5B, 0x98, 0xB5, 0xD4, 0x8A, 0xB9, 0x19] := by
  decide +kernel

def sealed? (key : Key) (nonce : Nonce) (plaintext aad : Bytes) : Option Bytes :=
  if Sealable plaintext aad then some (sealed key nonce plaintext aad) else none

def body (ciphertext : Bytes) : Bytes :=
  ciphertext.take (ciphertext.length - tagLength)

def trailer (ciphertext : Bytes) : Bytes :=
  ciphertext.drop (ciphertext.length - tagLength)

def opened? (key : Key) (nonce : Nonce) (ciphertext aad : Bytes) : Option Bytes :=
  if Openable (body ciphertext) aad ∧ trailer ciphertext = tag key nonce aad (body ciphertext) then
    some (mask key nonce (body ciphertext))
  else none

theorem length_key_stream (keys : List Aes.Block) (nonce : Nonce) (count : UInt32) (n : Nat) :
    (keyStream keys nonce count n).length = 16 * n := by
  induction n generalizing count with
  | zero => rfl
  | succ n ih =>
    rw [keyStream, List.length_append, Aes.Block.length_to_bytes, ih]
    omega

theorem length_mask (key : Key) (nonce : Nonce) (text : Bytes) :
    (mask key nonce text).length = text.length := by
  rw [mask, List.length_zipWith, length_key_stream]
  omega

theorem zip_with_xor_twice (text stream : Bytes) (enough : text.length ≤ stream.length) :
    List.zipWith (· ^^^ ·) (List.zipWith (· ^^^ ·) text stream) stream = text := by
  induction text generalizing stream with
  | nil => rfl
  | cons byte rest ih =>
    cases stream with
    | nil => simp at enough
    | cons other stream =>
      simp only [List.length_cons, Nat.add_le_add_iff_right] at enough
      rw [List.zipWith_cons_cons, List.zipWith_cons_cons, ih stream enough, UInt8.xor_assoc,
        UInt8.xor_self, UInt8.xor_zero]

theorem mask_mask (key : Key) (nonce : Nonce) (text : Bytes) :
    mask key nonce (mask key nonce text) = text := by
  have same := length_mask key nonce text
  unfold mask at same ⊢
  rw [same]
  refine zip_with_xor_twice text _ ?_
  rw [length_key_stream]
  omega

theorem length_tag (key : Key) (nonce : Nonce) (aad masked : Bytes) :
    (tag key nonce aad masked).length = tagLength := rfl

theorem length_sealed (key : Key) (nonce : Nonce) (plaintext aad : Bytes) :
    (sealed key nonce plaintext aad).length = plaintext.length + tagLength := by
  simp only [sealed, List.length_append, length_mask, length_tag]

theorem body_append_trailer (ciphertext : Bytes) :
    body ciphertext ++ trailer ciphertext = ciphertext :=
  List.take_append_drop _ _

theorem body_append (masked end16 : Bytes) (h : end16.length = tagLength) :
    body (masked ++ end16) = masked ∧ trailer (masked ++ end16) = end16 := by
  have cut : (masked ++ end16).length - tagLength = masked.length := by
    rw [List.length_append, h, Nat.add_sub_cancel]
  simp only [body, trailer, cut, List.take_left, List.drop_left, and_self]

theorem openable_of_sealable (plaintext aad : Bytes) (fits : Sealable plaintext aad) :
    Openable plaintext aad :=
  ⟨Nat.le_add_right_of_le fits.1, fits.2⟩

theorem openable_mask (key : Key) (nonce : Nonce) (text aad : Bytes) :
    Openable (mask key nonce text) aad ↔ Openable text aad := by
  rw [Openable, length_mask, Openable]

theorem opened?_eq_some_iff (key : Key) (nonce : Nonce) (ciphertext aad plaintext : Bytes) :
    opened? key nonce ciphertext aad = some plaintext ↔
      Openable plaintext aad ∧ ciphertext = sealed key nonce plaintext aad := by
  unfold opened?
  constructor
  · intro h
    split at h
    · rename_i accepted
      cases h
      rw [openable_mask, sealed, mask_mask, ← accepted.2, body_append_trailer]
      exact ⟨accepted.1, rfl⟩
    · cases h
  · rintro ⟨fits, rfl⟩
    obtain ⟨front, back⟩ := body_append (mask key nonce plaintext)
      (tag key nonce aad (mask key nonce plaintext)) (length_tag ..)
    have accepted : Openable (mask key nonce plaintext) aad :=
      (openable_mask key nonce plaintext aad).mpr fits
    rw [sealed, front, back, if_pos ⟨accepted, rfl⟩, mask_mask]

theorem opened?_sealed (key : Key) (nonce : Nonce) (plaintext aad : Bytes)
    (fits : Openable plaintext aad) :
    opened? key nonce (sealed key nonce plaintext aad) aad = some plaintext :=
  (opened?_eq_some_iff key nonce _ aad plaintext).mpr ⟨fits, rfl⟩

end Envelope.Gcm
