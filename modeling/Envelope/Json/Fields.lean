import Envelope.Json.Parser

set_option autoImplicit false

namespace Envelope.Json.Raw

-- The members with one of the names. A name that is known may not come twice.
def namedMembers? (names : List String) : List (List Piece × Raw) → Option (Table Raw)
  | [] => some []
  | (key, value) :: rest => do
    let name ← Piece.text? key
    let others ← namedMembers? names rest
    if name ∈ names then
      if name ∈ Table.keys others then none else some ((name, value) :: others)
    else if value.skippable then some others
    else none

-- The fields of a structure. Where an array may end early, the fields after its end are absent.
def fields? (names : List String) (mayEndEarly : Bool) : Raw → Option (Table Raw)
  | .obj members => namedMembers? names members
  | .arr items =>
    if items.length = names.length ∨ (mayEndEarly ∧ items.length ≤ names.length) then
      some (names.zip items)
    else none
  | _ => none

def textField? (fields : Table Raw) (name : String) : Option String :=
  (Table.get? fields name).bind text?

def optional? {α : Type} (read : Raw → Option α) : Option Raw → Option (Option α)
  | none | some .null => some none
  | some raw => (read raw).map some

def textMembers? : List (List Piece × Raw) → Option (Table String)
  | [] => some []
  | (key, value) :: rest => do
    let name ← Piece.text? key
    let text ← text? value
    let others ← textMembers? rest
    pure ((name, text) :: others)

def textMap? : Raw → Option (Table String)
  | .obj members => (textMembers? members).map Table.sorted
  | _ => none

def byte? : Raw → Option UInt8
  | .num numeral =>
    if numeral.integral ∧ ¬ numeral.negative ∧ numeral.digits < 256 then
      some (UInt8.ofNat numeral.digits)
    else none
  | _ => none

def byteItems? : List Raw → Option Bytes
  | [] => some []
  | item :: rest => do
    let byte ← byte? item
    let bytes ← byteItems? rest
    pure (byte :: bytes)

def bytes? : Raw → Option Bytes
  | .str pieces => some (Piece.bytes pieces)
  | .arr items => byteItems? items
  | _ => none

end Envelope.Json.Raw
