import Envelope.Json.Fields
import Envelope.Proofs.Json.Reading

set_option autoImplicit false

namespace Envelope.Json

theorem text?_raw_str (text : String) : (raw (.str text)).text? = some text :=
  Piece.text?_of_char text

namespace Raw

theorem named_members?_raw_members (names : List String) (members : Table Json)
    (known : ∀ key ∈ Table.keys members, key ∈ names) (differ : (Table.keys members).Nodup) :
    namedMembers? names (rawMembers members) =
      some (members.map fun member => (member.1, raw member.2)) := by
  induction members with
  | nil => rfl
  | cons member rest ih =>
    obtain ⟨fresh, restDiffer⟩ := List.nodup_cons.mp differ
    obtain ⟨named, restKnown⟩ := List.forall_mem_cons.mp known
    have absent : member.1 ∉ Table.keys (rest.map fun other => (other.1, raw other.2)) := by
      simpa [Table.keys] using fresh
    rw [rawMembers, namedMembers?, Piece.text?_of_char, ih restKnown restDiffer]
    simp only [Option.bind_eq_bind, Option.bind_some, if_pos named, if_neg absent, List.map_cons]

theorem fields?_obj (names : List String) (mayEndEarly : Bool) (members : Table Json)
    (known : ∀ key ∈ Table.keys members, key ∈ names) (differ : (Table.keys members).Nodup) :
    fields? names mayEndEarly (raw (.obj members)) =
      some (members.map fun member => (member.1, raw member.2)) :=
  named_members?_raw_members names members known differ

theorem optional?_some {α : Type} (read : Raw → Option α) (raw : Raw) (entry : α)
    (present : raw ≠ .null) (reads : read raw = some entry) :
    optional? read (some raw) = some (some entry) := by
  rw [optional?, reads, Option.map_some]
  exact present

theorem byte?_raw (byte : UInt8) : byte? (raw (.num (.int byte.toNat))) = some byte := by
  have size : byte.toNat < 256 := byte.toNat_lt
  have positive : ¬ (byte.toNat : Int) < 0 := by omega
  simp [raw, Number.numeral_int, byte?, positive, size]

theorem byte_items?_raw_items (bytes : Bytes) :
    byteItems? (rawItems (bytes.map fun byte => .num (.int byte.toNat))) = some bytes := by
  induction bytes with
  | nil => rfl
  | cons byte rest ih =>
    rw [List.map_cons, rawItems, byteItems?, byte?_raw, ih]
    rfl

def list? {α : Type} (read : Raw → Option α) : Raw → Option (List α)
  | .arr items => items.mapM read
  | _ => none

theorem list?_raw_items {α : Type} (read : Raw → Option α) (write : α → Json) (entries : List α)
    (reads : ∀ entry ∈ entries, read (raw (write entry)) = some entry) :
    list? read (raw (.arr (entries.map write))) = some entries := by
  induction entries with
  | nil => rfl
  | cons entry rest ih =>
    obtain ⟨here, later⟩ := List.forall_mem_cons.mp reads
    have others : (rawItems (rest.map write)).mapM read = some rest := ih later
    rw [raw, List.map_cons, rawItems, list?, List.mapM_cons, here, others]
    rfl

end Raw

end Envelope.Json
