import Envelope.Bytes.Hex
import Envelope.Cipher.Sha256
import Envelope.Json.Fields

set_option autoImplicit false

namespace Envelope

structure Marker where
  refId : String
  hash : String
  algorithm : String
  version : String
deriving DecidableEq, Repr

namespace Marker

def refKey : String := "enc_ref"
def hashKey : String := "enc_hash"
def algorithmKey : String := "enc_alg"
def versionKey : String := "enc_v"

def currentVersion : String := "1"

def fieldAlgorithm : String := "AES-256-GCM"

def make (refId hash : String) : Marker :=
  ⟨refId, hash, fieldAlgorithm, currentVersion⟩

def toJson (marker : Marker) : Json :=
  .obj [(refKey, .str marker.refId), (hashKey, .str marker.hash),
    (algorithmKey, .str marker.algorithm), (versionKey, .str marker.version)]

def ofRaw? (raw : Json.Raw) : Option Marker := do
  let fields ← raw.fields? [refKey, hashKey, algorithmKey, versionKey] false
  let refId ← Json.Raw.textField? fields refKey
  let hash ← Json.Raw.textField? fields hashKey
  let algorithm ← Json.Raw.textField? fields algorithmKey
  let version ← Json.Raw.textField? fields versionKey
  pure ⟨refId, hash, algorithm, version⟩

def parse? (text : String) : Option Marker :=
  (Json.Raw.parse? text).bind ofRaw?

def refOf? (members : Table Json) : Option String :=
  (Table.get? members refKey).bind Json.text?

def hashOf? (members : Table Json) : Option String :=
  (Table.get? members hashKey).bind Json.text?

-- An object is a marker by its reference alone.
def isMarker : Json → Bool
  | .obj members => (refOf? members).isSome
  | _ => false

def hashOfCiphertext (ciphertext : Bytes) : String :=
  Hex.encode (Sha256.digest ciphertext)

end Marker

end Envelope
