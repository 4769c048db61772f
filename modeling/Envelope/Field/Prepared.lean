import Envelope.Field.Record
import Envelope.Field.Tag
import Envelope.Json.Edit
import Envelope.Keyring.Wrap
import Envelope.Uuid

set_option autoImplicit false

namespace Envelope

def fieldAad (tenant path : String) : String :=
  Aad.ofDocumentField tenant path Marker.currentVersion

structure Prepared where
  document : Json
  records : List Record
  wrappedDek : Option WrappedDek
deriving DecidableEq

namespace Prepared

def hasEncryptedContent (prepared : Prepared) : Bool :=
  !prepared.records.isEmpty

-- Seals the canonical text of a value; the nonce is drawn before the reference. A reference that cannot
-- be drawn is an error like any other, where a generator of UUIDs may well stop the program.
def sealValue (dek : Dek) (tenant : String) (found : Pointer × Json) : Action FieldError Record := do
  let path := Pointer.text found.1
  let sealed ← Action.ofCrypto
    (dek.sealValue found.2.canonicalBytes (Utf8.encode (fieldAad tenant path)))
  let drawn ← Action.ofCrypto (Action.draw 16)
  let createdAt ← Action.now
  pure ⟨Uuid.text drawn, path, sealed.ciphertext, sealed.nonce.val, Record.documentKeyId,
    Marker.fieldAlgorithm, Marker.hashOfCiphertext sealed.ciphertext, createdAt⟩

structure Progress where
  host : Host
  records : List Record

def sealing (dek : Dek) (tenant : String) : Json.Visitor Progress FieldError := fun visit progress =>
  match Tag.sealable? visit.members with
  | none => (progress, .ok visit.members)
  | some value =>
    match sealValue dek tenant (visit.pointer ++ [Tag.valueKey], value) progress.host with
    | (.error cause, host) => (⟨host, progress.records⟩, .error cause)
    | (.ok record, host) =>
      (⟨host, progress.records ++ [record]⟩,
        .ok (Table.put visit.members Tag.valueKey record.marker.toJson))

-- The walk goes on into the markers it puts, which may nest one level deeper than the document.
def sealAll (dek : Dek) (tenant : String) (document : Json) :
    Action FieldError (Json × List Record) := fun host =>
  let walked := Json.editFrom (sealing dek tenant) (document.depth + 1) [] document ⟨host, []⟩
  match walked.failure with
  | some cause => (.error cause, walked.state.host)
  | none => (.ok (walked.value, walked.state.records), walked.state.host)

end Prepared

/-- A key is drawn in any case, and wrapped only if a value was sealed with it. -/
def prepare (ring : Keyring) (document : Json) (tenant : String) : Action FieldError Prepared := do
  let dek ← Action.ofCrypto Dek.generate
  let walked ← Prepared.sealAll dek tenant document
  if walked.2.isEmpty then pure ⟨walked.1, walked.2, none⟩
  else
    let wrapped ← Action.ofCrypto (ring.wrap dek)
    Action.report ⟨.debug, "encrypted tagged document fields",
      [("fields", toString walked.2.length), ("kek_id", wrapped.kekId)]⟩
    pure ⟨walked.1, walked.2, some wrapped⟩

end Envelope
