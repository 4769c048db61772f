import Envelope.Json.Fields
import Envelope.Json.Printer
import Envelope.Sealed

set_option autoImplicit false

namespace Envelope

structure Dek where
  key : Gcm.Key
deriving DecidableEq

namespace Dek

def generate : Action CryptoError Dek := do
  let key ← Action.draw 32
  pure ⟨key⟩

def ofBytes (bytes : Bytes) : Except CryptoError Dek :=
  match Sized.ofBytes? 32 bytes with
  | some key => .ok ⟨key⟩
  | none => .error (.dekLength bytes.length)

def bytes (dek : Dek) : Bytes :=
  dek.key.val

def wiped (_ : Dek) : Dek :=
  ⟨Sized.zero 32⟩

def summary (_ : Dek) : String :=
  "Dek([REDACTED])"

def sealValue (dek : Dek) (plaintext aad : Bytes) : Action CryptoError Sealed :=
  Sealed.make dek.key plaintext aad

def openValue (dek : Dek) (nonce ciphertext aad : Bytes) : Except CryptoError Bytes :=
  Sealed.openWith dek.key nonce ciphertext aad

end Dek

structure WrappedDek where
  wrapped : String
  kekId : String
  algorithm : String
deriving DecidableEq, Repr

namespace WrappedDek

def supportedAlgorithm : String := "AES-256-GCM"

def toJson (w : WrappedDek) : Json :=
  .obj [("wrapped", .str w.wrapped), ("kek_id", .str w.kekId), ("algorithm", .str w.algorithm)]

def ofRaw? (raw : Json.Raw) : Option WrappedDek := do
  let fields ← raw.fields? ["wrapped", "kek_id", "algorithm"] false
  let wrapped ← Json.Raw.textField? fields "wrapped"
  let kekId ← Json.Raw.textField? fields "kek_id"
  let algorithm ← Json.Raw.textField? fields "algorithm"
  pure ⟨wrapped, kekId, algorithm⟩

def parse? (text : String) : Option WrappedDek :=
  (Json.Raw.parse? text).bind ofRaw?

end WrappedDek

end Envelope
