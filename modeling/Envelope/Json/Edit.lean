import Envelope.Json.Walk

set_option autoImplicit false

namespace Envelope.Json

structure Edited (σ ε α : Type) where
  value : α
  state : σ
  failure : Option ε

abbrev Visitor (σ ε : Type) := Visit → σ → σ × Except ε (Table Json)

section

variable {σ ε : Type}

def sweepItems (step : Pointer → Json → σ → Edited σ ε Json) (pointer : Pointer) :
    Nat → List Json → σ → Edited σ ε (List Json)
  | _, [], state => ⟨[], state, none⟩
  | index, item :: rest, state =>
    let child := step (pointer ++ [Pointer.indexSegment index]) item state
    match child.failure with
    | some failure => ⟨child.value :: rest, child.state, some failure⟩
    | none =>
      let others := sweepItems step pointer (index + 1) rest child.state
      ⟨child.value :: others.value, others.state, others.failure⟩

def sweepMembers (step : Pointer → Json → σ → Edited σ ε Json) (pointer : Pointer) :
    List (String × Json) → σ → Edited σ ε (List (String × Json))
  | [], state => ⟨[], state, none⟩
  | (key, value) :: rest, state =>
    let child := step (pointer ++ [key]) value state
    match child.failure with
    | some failure => ⟨(key, child.value) :: rest, child.state, some failure⟩
    | none =>
      let others := sweepMembers step pointer rest child.state
      ⟨(key, child.value) :: others.value, others.state, others.failure⟩

-- Walks as many levels of containers as the fuel counts.
def editFrom (visitor : Visitor σ ε) : Nat → Pointer → Json → σ → Edited σ ε Json
  | fuel + 1, pointer, .obj members, state =>
    match visitor ⟨pointer, members⟩ state with
    | (state, .error failure) => ⟨.obj members, state, some failure⟩
    | (state, .ok members) =>
      let swept := sweepMembers (editFrom visitor fuel) pointer members state
      ⟨.obj swept.value, swept.state, swept.failure⟩
  | fuel + 1, pointer, .arr items, state =>
    let swept := sweepItems (editFrom visitor fuel) pointer 0 items state
    ⟨.arr swept.value, swept.state, swept.failure⟩
  | _, _, value, state => ⟨value, state, none⟩

end

abbrev Insertions := Table (Table Json)

-- How deep insertions can make a document: a path leads through each inserted value once.
def Insertions.depth (insertions : Insertions) : Nat :=
  insertions.foldr (fun entry total => membersDepth entry.2 + total) 0

structure Stopped where
  visit : Nat
deriving DecidableEq, Repr

def inserting (insertions : Insertions) (stopAt : Option Nat) : Visitor (List Pointer) Stopped :=
  fun visit visited =>
    let visited := visited ++ [visit.pointer]
    if stopAt = some visited.length then (visited, .error ⟨visited.length⟩)
    else
      let added := (Table.get? insertions (Pointer.text visit.pointer)).getD []
      (visited, .ok (Table.putAll visit.members added))

def insertAll (insertions : Insertions) (stopAt : Option Nat) (document : Json) :
    Edited (List Pointer) Stopped Json :=
  editFrom (inserting insertions stopAt) (document.depth + insertions.depth) [] document []

end Envelope.Json
