import Envelope.Field.Marker
import Envelope.Time.Timestamp

set_option autoImplicit false

namespace Envelope

structure Record where
  refId : String
  path : String
  ciphertext : Bytes
  nonce : Bytes
  keyId : String
  algorithm : String
  markerHash : String
  createdAt : Timestamp
deriving DecidableEq, Repr

namespace Record

def documentKeyId : String := "revision-dek"

def bytesJson (bytes : Bytes) : Json :=
  .arr (bytes.map fun byte => .num (.int byte.toNat))

def toJson (record : Record) : Json :=
  .obj [("ref_id", .str record.refId), ("path", .str record.path),
    ("ciphertext", bytesJson record.ciphertext), ("nonce", bytesJson record.nonce),
    ("key_id", .str record.keyId), ("algorithm", .str record.algorithm),
    ("marker_hash", .str record.markerHash), ("created_at", .str record.createdAt.text)]

def fieldNames : List String :=
  ["ref_id", "path", "ciphertext", "nonce", "key_id", "algorithm", "marker_hash", "created_at"]

def ofRaw? (raw : Json.Raw) : Option Record := do
  let fields ← raw.fields? fieldNames false
  let refId ← Json.Raw.textField? fields "ref_id"
  let path ← Json.Raw.textField? fields "path"
  let ciphertext ← (Table.get? fields "ciphertext").bind Json.Raw.bytes?
  let nonce ← (Table.get? fields "nonce").bind Json.Raw.bytes?
  let keyId ← Json.Raw.textField? fields "key_id"
  let algorithm ← Json.Raw.textField? fields "algorithm"
  let markerHash ← Json.Raw.textField? fields "marker_hash"
  let created ← Json.Raw.textField? fields "created_at"
  let createdAt ← Timestamp.parse? created
  pure ⟨refId, path, ciphertext, nonce, keyId, algorithm, markerHash, createdAt⟩

def parse? (text : String) : Option Record :=
  (Json.Raw.parse? text).bind ofRaw?

def marker (record : Record) : Marker :=
  Marker.make record.refId record.markerHash

end Record

end Envelope
