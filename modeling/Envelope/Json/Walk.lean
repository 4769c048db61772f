import Envelope.Json.Pointer

set_option autoImplicit false

namespace Envelope.Json

inductive Reach where
  | all
  | skip (key : String)
deriving DecidableEq, Repr

def Reach.covers : Reach → String → Bool
  | .all, _ => true
  | .skip skipped, key => key ≠ skipped

structure Visit where
  pointer : Pointer
  members : Table Json
deriving DecidableEq, Repr

abbrev Guide := Pointer → Table Json → Reach

mutual
def visitsFrom (guide : Guide) : Pointer → Json → List Visit
  | pointer, .obj members =>
    ⟨pointer, members⟩ :: memberVisits guide pointer (guide pointer members) members
  | pointer, .arr items => itemVisits guide pointer 0 items
  | _, _ => []
def itemVisits (guide : Guide) : Pointer → Nat → List Json → List Visit
  | _, _, [] => []
  | pointer, index, item :: rest =>
    visitsFrom guide (pointer ++ [Pointer.indexSegment index]) item ++
      itemVisits guide pointer (index + 1) rest
def memberVisits (guide : Guide) : Pointer → Reach → List (String × Json) → List Visit
  | _, _, [] => []
  | pointer, reach, (key, value) :: rest =>
    (if reach.covers key then visitsFrom guide (pointer ++ [key]) value else []) ++
      memberVisits guide pointer reach rest
end

def visits (guide : Guide) (document : Json) : List Visit :=
  visitsFrom guide [] document

end Envelope.Json
