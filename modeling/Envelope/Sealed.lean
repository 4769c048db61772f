import Envelope.Action
import Envelope.Cipher.Gcm

set_option autoImplicit false

namespace Envelope

structure Sealed where
  nonce : Gcm.Nonce
  ciphertext : Bytes
deriving DecidableEq

namespace Sealed

def nonceLength : Nat := 12

def framed (s : Sealed) : Bytes :=
  s.nonce.val ++ s.ciphertext

def make (key : Gcm.Key) (plaintext aad : Bytes) : Action CryptoError Sealed := do
  let nonce ← Action.draw 12
  match Gcm.sealed? key nonce plaintext aad with
  | some ciphertext => pure ⟨nonce, ciphertext⟩
  | none => Action.ofExcept (.error .encryptionFailed)

-- A nonce of the wrong length is found before a ciphertext that is too short for its tag.
def openWith (key : Gcm.Key) (nonce ciphertext aad : Bytes) : Except CryptoError Bytes :=
  match Sized.ofBytes? 12 nonce with
  | none => .error (.nonceLength nonce.length)
  | some nonce =>
    if ciphertext.length < Gcm.tagLength then .error .dataTooShort
    else
      match Gcm.opened? key nonce ciphertext aad with
      | some plaintext => .ok plaintext
      | none => .error .decryptionFailed

def openFramed (key : Gcm.Key) (data aad : Bytes) : Except CryptoError Bytes :=
  if data.length < nonceLength + Gcm.tagLength then .error .dataTooShort
  else openWith key (data.take nonceLength) (data.drop nonceLength) aad

end Sealed

def Gcm.Key.ofBytes (bytes : Bytes) : Except CryptoError Gcm.Key :=
  match Sized.ofBytes? 32 bytes with
  | some key => .ok key
  | none => .error (.keyLength bytes.length)

end Envelope
