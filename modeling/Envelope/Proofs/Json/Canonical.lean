import Envelope.Proofs.Json.Order
import Envelope.Proofs.Json.Reading

set_option autoImplicit false

namespace Envelope.Json

mutual
-- Canonical text in one pass: the members of an object are put in the order of their keys only when
-- their values are written.
def canonicalChars : Json → List Char
  | .arr items => '[' :: [','].intercalate (canonicalItems items) ++ [']']
  | .obj members =>
    '{' :: [','].intercalate ((Table.sorted (canonicalMembers members)).map fun member =>
      quote member.1 ++ ':' :: member.2) ++ ['}']
  | value => chars value
def canonicalItems : List Json → List (List Char)
  | [] => []
  | item :: rest => canonicalChars item :: canonicalItems rest
def canonicalMembers : List (String × Json) → Table (List Char)
  | [] => []
  | (key, value) :: rest => (key, canonicalChars value) :: canonicalMembers rest
end

theorem canonical_items_eq_map (items : List Json) :
    canonicalItems items = items.map canonicalChars := by
  induction items with
  | nil => rfl
  | cons item rest ih => rw [canonicalItems, ih, List.map_cons]

theorem canonical_members_eq_map (members : Table Json) :
    canonicalMembers members = members.map fun member => (member.1, canonicalChars member.2) := by
  induction members with
  | nil => rfl
  | cons member rest ih => rw [canonicalMembers, ih, List.map_cons]

theorem intercalate_cons (text : List Char) (rest : List (List Char)) :
    [','].intercalate (text :: rest) = text ++ rest.flatMap (',' :: ·) := by
  induction rest generalizing text with
  | nil => simp
  | cons next rest ih =>
    rw [List.intercalate_cons_cons, ih, List.flatMap_cons, List.append_assoc]
    rfl

theorem items_chars_eq (items : List Json) :
    itemsChars items = (items.map chars).flatMap (',' :: ·) ++ [']'] := by
  induction items with
  | nil => rfl
  | cons item rest ih => simp [itemsChars, ih]

theorem chars_arr (items : List Json) :
    chars (.arr items) = '[' :: [','].intercalate (items.map chars) ++ [']'] := by
  cases items with
  | nil => rfl
  | cons item rest =>
    rw [chars, items_chars_eq, List.map_cons, intercalate_cons, List.cons_append, List.append_assoc]

def memberChars (member : String × Json) : List Char :=
  quote member.1 ++ ':' :: chars member.2

theorem members_chars_eq (members : Table Json) :
    membersChars members = (members.map memberChars).flatMap (',' :: ·) ++ ['}'] := by
  induction members with
  | nil => rfl
  | cons member rest ih => simp [membersChars, memberChars, ih]

theorem chars_obj (members : Table Json) :
    chars (.obj members) = '{' :: [','].intercalate (members.map memberChars) ++ ['}'] := by
  cases members with
  | nil => rfl
  | cons member rest => simp [chars, members_chars_eq, intercalate_cons, memberChars]

/-- One pass writes the text of the value with its keys sorted. -/
theorem chars_sort_keys (value : Json) : chars (sortKeys value) = canonicalChars value := by
  induction value with
  | null | bool | num | str => rfl
  | arr items ih =>
    have same : (items.map sortKeys).map chars = items.map canonicalChars := by
      rw [List.map_map]
      exact List.map_congr_left ih
    rw [sortKeys, chars_arr, sort_items_eq_map, same, canonicalChars, canonical_items_eq_map]
  | obj members ih =>
    have same : canonicalMembers members =
        (sortMembers members).map fun member => (member.1, chars member.2) := by
      rw [canonical_members_eq_map, sort_members_eq_map, List.map_map]
      exact List.map_congr_left fun member present =>
        congrArg (Prod.mk member.1) (ih member present).symm
    rw [sortKeys, chars_obj, canonicalChars, same, Table.sorted_map, List.map_map]
    rfl

theorem canonical_eq (value : Json) : canonical value = String.ofList (canonicalChars value) := by
  rw [canonical, text, chars_sort_keys]

theorem canonical_sort_keys (value : Json) : canonical (sortKeys value) = canonical value := by
  rw [canonical, canonical, sort_keys_sort_keys]

/-- Canonical text reads back as the one ordered value that is equal but for the order of members, and
is the text of that value, compact or canonical. -/
theorem canonical_reads_back (value : Json) (wellFormed : WellFormed value)
    (legible : ∀ n ∈ numbers value, n.Legible) (shallow : depth value ≤ Raw.depthLimit) :
    canonical value = String.ofList (canonicalChars value) ∧
      ∃ read, ofBytes? (Utf8.encode (canonical value)) = some read ∧
        (∀ other, other = read ↔ EqualUnordered value other ∧ Ordered other) ∧
        text read = canonical value ∧ canonical read = canonical value :=
  ⟨canonical_eq value, sortKeys value, of_bytes?_canonical_bytes value wellFormed legible shallow,
    fun other => eq_sort_keys_iff value other wellFormed, rfl, canonical_sort_keys value⟩

-- The least integer, a float, and characters that are escaped, in strings and in keys out of order.
def knottyDocument : Json :=
  .obj [("z", .arr [.num (.int (-9223372036854775808)), .num (.float ⟨false, 5629499534213120, -51⟩)]),
    ("\"key\\", .obj [("\n", .str "\x01 \\ \" \x7f é"), ("", .null)])]

theorem well_formed_knotty_document : knottyDocument.WellFormed := by
  simp [knottyDocument, WellFormed, MembersWellFormed, ItemsWellFormed, Table.keys]

theorem legible_knotty_document : ∀ n ∈ numbers knottyDocument, n.Legible := by
  have listed : numbers knottyDocument =
      [.int (-9223372036854775808), .float ⟨false, 5629499534213120, -51⟩] := rfl
  simp only [listed, List.forall_mem_cons, List.not_mem_nil, false_implies, implies_true, and_true,
    Number.Legible]
  decide

theorem canonical_reads_back_knotty :
    knottyDocument.WellFormed ∧ (∀ n ∈ numbers knottyDocument, n.Legible) ∧
      depth knottyDocument ≤ Raw.depthLimit ∧
      canonical knottyDocument = String.ofList (canonicalChars knottyDocument) ∧
      ∃ read, ofBytes? (Utf8.encode (canonical knottyDocument)) = some read ∧
        (∀ other, other = read ↔ EqualUnordered knottyDocument other ∧ Ordered other) ∧
        text read = canonical knottyDocument ∧ canonical read = canonical knottyDocument :=
  ⟨well_formed_knotty_document, legible_knotty_document, by decide,
    canonical_reads_back knottyDocument well_formed_knotty_document legible_knotty_document (by decide)⟩

-- The text of a value leads back to it. Reading stops at a depth, but its tree is there at any, and the
-- depth of the deeper value is enough for both.
theorem text_injective (value other : Json) (wellFormed : WellFormed value)
    (otherWellFormed : WellFormed other) (legible : ∀ n ∈ numbers value, n.Legible)
    (otherLegible : ∀ n ∈ numbers other, n.Legible) (same : text value = text other) :
    value = other := by
  have tree := Raw.parse?_text value legible
  rw [same, Raw.parse?_text other otherLegible, Option.some.injEq] at tree
  have reads := value?_raw value wellFormed legible _ (Nat.le_max_left (depth value) (depth other))
  have otherReads :=
    value?_raw other otherWellFormed otherLegible _ (Nat.le_max_right (depth value) (depth other))
  rw [← tree, otherReads] at reads
  exact (Option.some.inj reads).symm

/-- Two values have the same canonical text exactly if they are equal but for the order of members. -/
theorem canonical_eq_iff (value other : Json) (wellFormed : WellFormed value)
    (otherWellFormed : WellFormed other) (legible : ∀ n ∈ numbers value, n.Legible)
    (otherLegible : ∀ n ∈ numbers other, n.Legible) :
    canonical value = canonical other ↔ EqualUnordered value other := by
  rw [equal_unordered_iff value other wellFormed otherWellFormed]
  constructor
  · exact text_injective (sortKeys value) (sortKeys other) (well_formed_sort_keys value wellFormed)
      (well_formed_sort_keys other otherWellFormed)
      (fun n member => legible n (mem_numbers_sort_keys value wellFormed n member))
      (fun n member => otherLegible n (mem_numbers_sort_keys other otherWellFormed n member))
  · exact congrArg text

def reorderedDocument : Json :=
  .obj [("\"key\\", .obj [("", .null), ("\n", .str "\x01 \\ \" \x7f é")]),
    ("z", .arr [.num (.int (-9223372036854775808)), .num (.float ⟨false, 5629499534213120, -51⟩)])]

theorem canonical_eq_iff_knotty :
    knottyDocument.WellFormed ∧ reorderedDocument.WellFormed ∧
      (∀ n ∈ numbers knottyDocument, n.Legible) ∧ (∀ n ∈ numbers reorderedDocument, n.Legible) ∧
      knottyDocument ≠ reorderedDocument ∧
      canonical knottyDocument = canonical reorderedDocument ∧
      canonical (.num (.int 1)) ≠ canonical (.num (.float ⟨false, 4503599627370496, -52⟩)) := by
  have wellFormed : reorderedDocument.WellFormed := by
    simp [reorderedDocument, WellFormed, MembersWellFormed, ItemsWellFormed, Table.keys]
  have legible : ∀ n ∈ numbers reorderedDocument, n.Legible := legible_knotty_document
  refine ⟨well_formed_knotty_document, wellFormed, legible_knotty_document, legible, by decide, ?_, ?_⟩
  · apply (canonical_eq_iff knottyDocument reorderedDocument well_formed_knotty_document wellFormed
      legible_knotty_document legible).mpr
    exact ⟨List.Perm.swap _ _ _, ⟨_, rfl, rfl, rfl, trivial⟩,
      ⟨_, rfl, List.Perm.swap _ _ _, ⟨_, rfl, rfl⟩, ⟨_, rfl, rfl⟩, trivial⟩, trivial⟩
  · intro same
    have one : (Number.int 1).Legible := by simp [Number.Legible]
    have onePointZero : (Number.float ⟨false, 4503599627370496, -52⟩).Legible := by
      rw [Number.Legible]
      decide
    have equal : Json.num (.int 1) = Json.num (.float ⟨false, 4503599627370496, -52⟩) :=
      (canonical_eq_iff (.num _) (.num _) trivial trivial (List.forall_mem_singleton.mpr one)
        (List.forall_mem_singleton.mpr onePointZero)).mp same
    cases equal

end Envelope.Json
