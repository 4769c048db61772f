import Envelope.Field.Prepared

set_option autoImplicit false

namespace Envelope

structure StoredDek where
  wrapped : Option String
  kekId : Option String
  algorithm : Option String
deriving DecidableEq, Repr

namespace StoredDek

def ofPrepared (prepared : Prepared) : StoredDek :=
  ⟨prepared.wrappedDek.map WrappedDek.wrapped, prepared.wrappedDek.map WrappedDek.kekId,
    prepared.wrappedDek.map WrappedDek.algorithm⟩

def wrappedDek? (stored : StoredDek) : Option WrappedDek :=
  match stored.wrapped, stored.kekId with
  | some wrapped, some kekId =>
    some ⟨wrapped, kekId, stored.algorithm.getD WrappedDek.supportedAlgorithm⟩
  | _, _ => none

end StoredDek

structure Opening where
  dek : Dek
  tenant : String
  rows : List Record

namespace Opening

def row? (opening : Opening) (ref : String) : Option Record :=
  opening.rows.reverse.find? fun row => row.refId = ref

def hashMatches (members : Table Json) (row : Record) : Bool :=
  match Marker.hashOf? members with
  | some hash => Text.sameIgnoringCase (Marker.hashOfCiphertext row.ciphertext) hash
  | none => true

def openRow (opening : Opening) (row : Record) : Except FieldError Json :=
  match opening.dek.openValue row.nonce row.ciphertext
      (Utf8.encode (fieldAad opening.tenant row.path)) with
  | .error cause => .error (.crypto cause)
  | .ok plaintext =>
    match Json.ofBytes? plaintext with
    | some value => .ok value
    | none => .error .notJson

def openMarker (opening : Opening) (members : Table Json) (ref : String) :
    Except FieldError Json :=
  match opening.row? ref with
  | none => .error (.missingRow ref)
  | some row =>
    if hashMatches members row then
      if row.algorithm = Marker.fieldAlgorithm then opening.openRow row
      else .error (.unsupportedAlgorithm row.algorithm)
    else .error (.hashMismatch ref)

mutual
-- The document with its markers opened, in their order. Opened values are not looked into.
def rebuild (opening : Opening) : Json → Except FieldError Json
  | .obj members =>
    match Marker.refOf? members with
    | some ref => opening.openMarker members ref
    | none => (rebuildMembers opening members).map .obj
  | .arr items => (rebuildItems opening items).map .arr
  | value => .ok value
def rebuildItems (opening : Opening) : List Json → Except FieldError (List Json)
  | [] => .ok []
  | item :: rest => do
    let value ← rebuild opening item
    let values ← rebuildItems opening rest
    pure (value :: values)
def rebuildMembers (opening : Opening) :
    List (String × Json) → Except FieldError (List (String × Json))
  | [] => .ok []
  | (key, member) :: rest => do
    let value ← rebuild opening member
    let values ← rebuildMembers opening rest
    pure ((key, value) :: values)
end

end Opening

def resolved (ring : Keyring) (document : Json) (tenant : String) (rows : List Record)
    (stored : StoredDek) : Except FieldError Json :=
  if rows.isEmpty then .ok document
  else
    match stored.wrappedDek? with
    | none => .error .missingDek
    | some wrapped =>
      match ring.unwrap wrapped with
      | .error cause => .error (.crypto cause)
      | .ok dek => Opening.rebuild ⟨dek, tenant, rows⟩ document

/-- Resolves a document, and reports it if there were rows. -/
def resolve (ring : Keyring) (document : Json) (tenant : String) (rows : List Record)
    (stored : StoredDek) : Action FieldError Json := do
  let value ← Action.ofExcept (resolved ring document tenant rows stored)
  if !rows.isEmpty then
    Action.report ⟨.debug, "resolved encrypted document fields",
      [("rows", toString rows.length), ("kek_id", stored.kekId.getD "")]⟩
  pure value

def resolvePrepared (ring : Keyring) (prepared : Prepared) (tenant : String) :
    Action FieldError Json :=
  resolve ring prepared.document tenant prepared.records (.ofPrepared prepared)

end Envelope
