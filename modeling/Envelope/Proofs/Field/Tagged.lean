import Envelope.Field.Tag
import Envelope.Proofs.Json.Walk
import Mathlib.Data.List.Pairwise

set_option autoImplicit false

namespace Envelope.Tag

def sealableAt (visit : Json.Visit) : Option (Pointer × Json) :=
  (sealable? visit.members).map fun value => (visit.pointer ++ [valueKey], value)

def valuesFrom (pointer : Pointer) (value : Json) : List (Pointer × Json) :=
  (Json.visitsFrom guide pointer value).filterMap sealableAt

def itemValues (pointer : Pointer) (start : Nat) (items : List Json) : List (Pointer × Json) :=
  (Json.itemVisits guide pointer start items).filterMap sealableAt

def memberValues (pointer : Pointer) (reach : Json.Reach) (members : Table Json) :
    List (Pointer × Json) :=
  (Json.memberVisits guide pointer reach members).filterMap sealableAt

theorem values_eq (document : Json) : values document = valuesFrom [] document := rfl

theorem values_from_arr (pointer : Pointer) (items : List Json) :
    valuesFrom pointer (.arr items) = itemValues pointer 0 items := by
  simp only [valuesFrom, Json.visitsFrom, itemValues]

theorem values_from_untagged (pointer : Pointer) (members : Table Json)
    (untagged : sealable? members = none) :
    valuesFrom pointer (.obj members) = memberValues pointer .all members := by
  simp only [valuesFrom, Json.visitsFrom, memberValues, List.filterMap_cons, sealableAt, untagged,
    Option.map_none, guide, Option.isSome_none, Bool.false_eq_true, if_false]

theorem values_from_tagged (pointer : Pointer) (members : Table Json) (value : Json)
    (tagged : sealable? members = some value) :
    valuesFrom pointer (.obj members) =
      (pointer ++ [valueKey], value) :: memberValues pointer (.skip valueKey) members := by
  simp only [valuesFrom, Json.visitsFrom, memberValues, List.filterMap_cons, sealableAt, tagged,
    Option.map_some, guide, Option.isSome_some, if_true]

theorem item_values_cons (pointer : Pointer) (start : Nat) (item : Json) (rest : List Json) :
    itemValues pointer start (item :: rest) =
      valuesFrom (pointer ++ [Pointer.indexSegment start]) item ++
        itemValues pointer (start + 1) rest := by
  simp only [itemValues, Json.itemVisits, List.filterMap_append, valuesFrom]

theorem member_values_covered (pointer : Pointer) (reach : Json.Reach) (key : String) (value : Json)
    (rest : Table Json) (covered : reach.covers key = true) :
    memberValues pointer reach ((key, value) :: rest) =
      valuesFrom (pointer ++ [key]) value ++ memberValues pointer reach rest := by
  simp only [memberValues, Json.memberVisits, covered, if_true, List.filterMap_append, valuesFrom]

theorem member_values_skipped (pointer : Pointer) (reach : Json.Reach) (key : String) (value : Json)
    (rest : Table Json) (skipped : reach.covers key = false) :
    memberValues pointer reach ((key, value) :: rest) = memberValues pointer reach rest := by
  simp only [memberValues, Json.memberVisits, skipped, Bool.false_eq_true, if_false,
    List.nil_append]

theorem sealable?_eq_some_iff (members : Table Json) (value : Json) :
    sealable? members = some value ↔
      isTagged members = true ∧ Table.get? members valueKey = some value ∧
        Marker.isMarker value = false := by
  unfold sealable?
  by_cases tagged : isTagged members = true
  · rw [if_pos tagged, Option.filter_eq_some_iff, Bool.not_eq_true']
    exact (and_iff_right tagged).symm
  · rw [if_neg tagged]
    exact iff_of_false (Option.some_ne_none value).symm fun sealable => tagged sealable.1

theorem get?_of_sealable? (members : Table Json) (value : Json)
    (tagged : sealable? members = some value) : Table.get? members valueKey = some value :=
  ((sealable?_eq_some_iff members value).mp tagged).2.1

theorem sealable_at_eq_some_iff (visit : Json.Visit) (found : Pointer × Json) :
    sealableAt visit = some found ↔
      found.1 = visit.pointer ++ [valueKey] ∧ sealable? visit.members = some found.2 := by
  obtain ⟨pointer, value⟩ := found
  simp only [sealableAt, Option.map_eq_some_iff, Prod.mk.injEq]
  constructor
  · rintro ⟨_, sealable, rfl, rfl⟩
    exact ⟨rfl, sealable⟩
  · rintro ⟨rfl, sealable⟩
    exact ⟨value, sealable, rfl, rfl⟩

theorem at?_of_sealable_at (visit : Json.Visit) (found : Pointer × Json) (value : Json)
    (rest : Pointer) (sealed : sealableAt visit = some found)
    (there : value.at? rest = some (.obj visit.members)) :
    value.at? (rest ++ [valueKey]) = some found.2 := by
  have sealable := ((sealable_at_eq_some_iff visit found).mp sealed).2
  exact Json.at?_member value rest _ _ _ there (get?_of_sealable? _ _ sealable)

theorem located_of_mem_values_from (pointer : Pointer) (value : Json) (found : Pointer × Json)
    (wellFormed : value.WellFormed) (member : found ∈ valuesFrom pointer value) :
    ∃ rest, found.1 = pointer ++ rest ∧ value.at? rest = some found.2 := by
  obtain ⟨visit, visited, sealed⟩ := List.mem_filterMap.mp member
  obtain ⟨rest, eq, there⟩ :=
    Json.located_of_mem_visits_from guide pointer value visit wellFormed visited
  refine ⟨rest ++ [valueKey], ?_, at?_of_sealable_at visit found value rest sealed there⟩
  rw [((sealable_at_eq_some_iff visit found).mp sealed).1, eq, List.append_assoc]

theorem located_of_mem_item_values (pointer : Pointer) (start : Nat) (items : List Json)
    (found : Pointer × Json) (wellFormed : Json.ItemsWellFormed items)
    (member : found ∈ itemValues pointer start items) :
    ∃ (index : Nat) (item : Json) (rest : Pointer), items[index]? = some item ∧
      found.1 = pointer ++ Pointer.indexSegment (start + index) :: rest ∧
      item.at? rest = some found.2 := by
  obtain ⟨visit, visited, sealed⟩ := List.mem_filterMap.mp member
  obtain ⟨index, item, rest, present, eq, there⟩ :=
    Json.located_of_mem_item_visits guide pointer start items visit wellFormed visited
  refine ⟨index, item, rest ++ [valueKey], present, ?_,
    at?_of_sealable_at visit found item rest sealed there⟩
  rw [((sealable_at_eq_some_iff visit found).mp sealed).1, eq, List.append_assoc, List.cons_append]

theorem located_of_mem_member_values (pointer : Pointer) (reach : Json.Reach) (members : Table Json)
    (found : Pointer × Json) (wellFormed : Json.MembersWellFormed members)
    (member : found ∈ memberValues pointer reach members) :
    ∃ entry ∈ members, reach.covers entry.1 = true ∧
      ∃ rest, found.1 = pointer ++ entry.1 :: rest ∧ entry.2.at? rest = some found.2 := by
  obtain ⟨visit, visited, sealed⟩ := List.mem_filterMap.mp member
  obtain ⟨entry, present, covered, rest, eq, there⟩ :=
    Json.located_of_mem_member_visits guide pointer reach members visit wellFormed visited
  refine ⟨entry, present, covered, rest ++ [valueKey], ?_,
    at?_of_sealable_at visit found entry.2 rest sealed there⟩
  rw [((sealable_at_eq_some_iff visit found).mp sealed).1, eq, List.append_assoc, List.cons_append]

theorem below_of_mem_values_from (pointer : Pointer) (segment : String) (value : Json)
    (wellFormed : value.WellFormed) :
    ∀ found ∈ valuesFrom (pointer ++ [segment]) value,
      Pointer.Below pointer (· = segment) found.1 := by
  intro found member
  obtain ⟨rest, eq, -⟩ := located_of_mem_values_from _ value found wellFormed member
  exact Pointer.below_of_prefix pointer found.1 rest segment eq

theorem below_of_mem_item_values (pointer : Pointer) (start : Nat) (items : List Json)
    (wellFormed : Json.ItemsWellFormed items) :
    ∀ found ∈ itemValues pointer start items,
      Pointer.Below pointer (Pointer.IndexFrom start) found.1 := by
  intro found member
  obtain ⟨offset, _, tail, -, eq, -⟩ :=
    located_of_mem_item_values pointer start items found wellFormed member
  exact ⟨_, ⟨start + offset, Nat.le_add_right _ _, rfl⟩, tail, eq⟩

theorem below_of_mem_member_values (pointer : Pointer) (reach : Json.Reach) (members : Table Json)
    (wellFormed : Json.MembersWellFormed members) :
    ∀ found ∈ memberValues pointer reach members,
      Pointer.Below pointer (· ∈ Table.keys members) found.1 := by
  intro found member
  obtain ⟨entry, present, -, tail, eq, -⟩ :=
    located_of_mem_member_values pointer reach members found wellFormed member
  exact ⟨entry.1, List.mem_map_of_mem (f := Prod.fst) present, tail, eq⟩

theorem at?_of_mem_values (document : Json) (found : Pointer × Json)
    (wellFormed : document.WellFormed) (member : found ∈ values document) :
    document.at? found.1 = some found.2 := by
  obtain ⟨rest, eq, there⟩ := located_of_mem_values_from [] document found wellFormed member
  rwa [eq, List.nil_append]

theorem ends_of_mem_values (document : Json) (found : Pointer × Json)
    (member : found ∈ values document) : ∃ front, found.1 = front ++ [valueKey] := by
  obtain ⟨visit, -, sealed⟩ := List.mem_filterMap.mp member
  obtain ⟨value, -, rfl⟩ := Option.map_eq_some_iff.mp sealed
  exact ⟨visit.pointer, rfl⟩

def tagged (value : Json) : Json :=
  .obj [(qualifiersKey, .arr [.obj [(typeKey, .str "confidentiality"), (valueKey, .str "encrypted")]]),
    (valueKey, value)]

abbrev Separate (found other : Pointer × Json) : Prop :=
  Pointer.Apart found.1 other.1

mutual
theorem separate_values_from (pointer : Pointer) (value : Json) (wellFormed : value.WellFormed) :
    (valuesFrom pointer value).Pairwise Separate := by
  cases value with
  | null | bool | num | str => exact List.Pairwise.nil
  | arr items =>
    rw [values_from_arr]
    exact separate_item_values pointer 0 items wellFormed
  | obj members =>
    cases tagged : sealable? members with
    | none =>
      rw [values_from_untagged pointer members tagged]
      exact separate_member_values pointer .all members wellFormed.2 wellFormed.1
    | some value =>
      rw [values_from_tagged pointer members value tagged]
      refine List.pairwise_cons.mpr ⟨fun found member => ?_,
        separate_member_values pointer _ members wellFormed.2 wellFormed.1⟩
      obtain ⟨entry, -, covered, rest, eq, -⟩ :=
        located_of_mem_member_values pointer _ members found wellFormed.2 member
      have different : entry.1 ≠ valueKey := by simpa [Json.Reach.covers] using covered
      rw [Separate, eq]
      exact Pointer.apart_of_segments pointer [] rest valueKey entry.1 (Ne.symm different)
theorem separate_item_values (pointer : Pointer) (start : Nat) (items : List Json)
    (wellFormed : Json.ItemsWellFormed items) :
    (itemValues pointer start items).Pairwise Separate := by
  cases items with
  | nil => exact List.Pairwise.nil
  | cons item tail =>
    rw [item_values_cons]
    refine List.pairwise_append.mpr ⟨separate_values_from _ item wellFormed.1,
      separate_item_values pointer (start + 1) tail wellFormed.2, fun found here other later => ?_⟩
    obtain ⟨rest, eq, -⟩ := located_of_mem_values_from _ item found wellFormed.1 here
    obtain ⟨index, _, back, -, otherEq, -⟩ :=
      located_of_mem_item_values pointer (start + 1) tail other wellFormed.2 later
    rw [Separate, eq, otherEq, Pointer.append_singleton_append]
    apply Pointer.apart_of_segments pointer rest back
    intro same
    have equal := Pointer.index_segment_injective _ _ same
    omega
theorem separate_member_values (pointer : Pointer) (reach : Json.Reach) (members : Table Json)
    (wellFormed : Json.MembersWellFormed members) (differ : (Table.keys members).Nodup) :
    (memberValues pointer reach members).Pairwise Separate := by
  cases members with
  | nil => exact List.Pairwise.nil
  | cons entry tail =>
    obtain ⟨key, value⟩ := entry
    obtain ⟨fresh, restDiffer⟩ := List.nodup_cons.mp differ
    have others := separate_member_values pointer reach tail wellFormed.2 restDiffer
    cases covered : reach.covers key with
    | false => rwa [member_values_skipped pointer reach key value tail covered]
    | true =>
      rw [member_values_covered pointer reach key value tail covered]
      refine List.pairwise_append.mpr ⟨separate_values_from _ value wellFormed.1, others,
        fun found here other later => ?_⟩
      obtain ⟨rest, eq, -⟩ := located_of_mem_values_from _ value found wellFormed.1 here
      obtain ⟨member, present, -, back, otherEq, -⟩ :=
        located_of_mem_member_values pointer reach tail other wellFormed.2 later
      rw [Separate, eq, otherEq, Pointer.append_singleton_append]
      have later := List.mem_map_of_mem (f := Prod.fst) present
      exact Pointer.apart_of_segments pointer rest back key member.1 fun same => fresh (same ▸ later)
end

theorem separate_values (document : Json) (wellFormed : document.WellFormed) :
    (values document).Pairwise Separate :=
  separate_values_from [] document wellFormed

theorem eq_of_prefix (document : Json) (wellFormed : document.WellFormed)
    (found other : Pointer × Json) (member : found ∈ values document)
    (present : other ∈ values document) (within : found.1 <+: other.1) : found = other := by
  have symmetric : Std.Symm Separate := ⟨fun _ _ apart => ⟨apart.2, apart.1⟩⟩
  apply Classical.byContradiction
  intro different
  exact ((separate_values document wellFormed).forall member present different).1 within

theorem nodup_pointers (document : Json) (wellFormed : document.WellFormed) :
    ((values document).map Prod.fst).Nodup := by
  refine List.pairwise_map.mpr ((separate_values document wellFormed).imp ?_)
  intro found other apart same
  exact apart.1 (same ▸ List.prefix_rfl)

theorem mem_visits_from_of_at? (pointer rest : Pointer) (value : Json) (members : Table Json)
    (there : value.at? rest = some (.obj members))
    (outside : ∀ found ∈ valuesFrom pointer value, ¬ found.1 <+: pointer ++ rest) :
    ⟨pointer ++ rest, members⟩ ∈ Json.visitsFrom guide pointer value := by
  induction rest generalizing pointer value with
  | nil =>
    cases there
    rw [List.append_nil, Json.visitsFrom]
    exact List.mem_cons_self
  | cons segment rest ih =>
    obtain ⟨child, childAt, deeper⟩ := Option.bind_eq_some_iff.mp there
    have covered : ∀ inner, value = .obj inner → (guide pointer inner).covers segment = true := by
      rintro inner rfl
      cases tagged : sealable? inner with
      | none => simp only [guide, tagged, Option.isSome_none, Bool.false_eq_true, if_false]; rfl
      | some sealed =>
        have apart : segment ≠ valueKey := by
          rintro rfl
          refine outside (pointer ++ [valueKey], sealed) ?_ ⟨rest, ?_⟩
          · rw [values_from_tagged pointer inner sealed tagged]
            exact List.mem_cons_self
          · exact Pointer.append_singleton_append pointer rest valueKey
        simpa only [guide, tagged, Option.isSome_some, if_true, Json.Reach.covers, decide_eq_true_eq]
          using apart
    have deep := ih (pointer ++ [segment]) child deeper fun found member => by
      rw [Pointer.append_singleton_append]
      obtain ⟨visit, visited, sealed⟩ := List.mem_filterMap.mp member
      exact outside found (List.mem_filterMap.mpr ⟨visit,
        Json.mem_visits_from_of_child guide pointer value segment child visit childAt covered visited,
        sealed⟩)
    rw [Pointer.append_singleton_append] at deep
    exact Json.mem_visits_from_of_child guide pointer value segment child _ childAt covered deep

theorem mem_visits_of_at? (document : Json) (pointer : Pointer) (members : Table Json)
    (there : document.at? pointer = some (.obj members))
    (outside : ∀ found ∈ values document, ¬ found.1 <+: pointer) :
    ⟨pointer, members⟩ ∈ Json.visits guide document :=
  mem_visits_from_of_at? [] pointer document members there outside

-- A place that is neither a tagged value to seal nor inside one.
def Outside (document : Json) (pointer : Pointer) : Prop :=
  ∀ found ∈ values document, ¬ found.1 <+: pointer

theorem mem_values_of_sealable? (document : Json) (pointer : Pointer) (members : Table Json)
    (value : Json) (there : document.at? pointer = some (.obj members))
    (outside : Outside document pointer) (sealable : sealable? members = some value) :
    (pointer ++ [valueKey], value) ∈ values document := by
  refine List.mem_filterMap.mpr ⟨_, mem_visits_of_at? document pointer members there outside, ?_⟩
  rw [sealable, Option.map_some]

theorem value_or_around_of_tagged (document : Json) (pointer : Pointer) (members : Table Json)
    (value : Json) (there : document.at? pointer = some (.obj members))
    (tagged : isTagged members = true) (present : Table.get? members valueKey = some value)
    (unmarked : Marker.isMarker value = false) :
    (pointer ++ [valueKey], value) ∈ values document ∨
      ∃ found ∈ values document, found.1 <+: pointer := by
  by_cases outside : Outside document pointer
  · have sealable := (sealable?_eq_some_iff members value).mpr ⟨tagged, present, unmarked⟩
    exact .inl (mem_values_of_sealable? document pointer members value there outside sealable)
  · refine .inr ?_
    simpa only [Outside, not_forall, not_not, exists_prop] using outside

theorem not_is_marker_of_mem_values (document : Json) (found : Pointer × Json)
    (member : found ∈ values document) : Marker.isMarker found.2 = false := by
  obtain ⟨visit, -, sealed⟩ := List.mem_filterMap.mp member
  obtain ⟨value, sealable, rfl⟩ := Option.map_eq_some_iff.mp sealed
  exact ((sealable?_eq_some_iff visit.members value).mp sealable).2.2

end Envelope.Tag
