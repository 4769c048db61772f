import Envelope.Field.Marker
import Envelope.Json.Walk
import Envelope.Text.Blank
import Envelope.Text.Case

set_option autoImplicit false

namespace Envelope.Tag

def qualifiersKey : String := "qualifiers"
def typeKey : String := "type"
def valueKey : String := "value"

def hasText (members : Table Json) (key expected : String) : Bool :=
  match (Table.get? members key).bind Json.text? with
  | some text => Text.sameIgnoringCase (Text.trim text) expected
  | none => false

def isEncryptedQualifier : Json → Bool
  | .obj members => hasText members typeKey "confidentiality" && hasText members valueKey "encrypted"
  | _ => false

def isTagged (members : Table Json) : Bool :=
  match (Table.get? members qualifiersKey).bind Json.items? with
  | some qualifiers => qualifiers.any isEncryptedQualifier
  | none => false

def sealable? (members : Table Json) : Option Json :=
  if isTagged members then (Table.get? members valueKey).filter fun value => !Marker.isMarker value
  else none

def guide : Json.Guide := fun _ members =>
  if (sealable? members).isSome then .skip valueKey else .all

def values (document : Json) : List (Pointer × Json) :=
  (Json.visits guide document).filterMap fun visit =>
    (sealable? visit.members).map fun value => (visit.pointer ++ [valueKey], value)

def paths (document : Json) : List String :=
  (values document).map fun value => Pointer.text value.1

end Envelope.Tag
