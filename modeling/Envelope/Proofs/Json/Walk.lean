import Envelope.Json.Walk
import Envelope.Proofs.Json.Place

set_option autoImplicit false

namespace Envelope.Json

theorem member_visits_eq_flat_map (guide : Guide) (pointer : Pointer) (reach : Reach)
    (members : Table Json) :
    memberVisits guide pointer reach members = members.flatMap fun entry =>
      if reach.covers entry.1 then visitsFrom guide (pointer ++ [entry.1]) entry.2 else [] := by
  induction members with
  | nil => rfl
  | cons entry rest ih => rw [memberVisits, ih, List.flatMap_cons]

theorem item_visits_eq_flat_map (guide : Guide) (pointer : Pointer) (start : Nat) (items : List Json) :
    itemVisits guide pointer start items = (items.zipIdx start).flatMap fun item =>
      visitsFrom guide (pointer ++ [Pointer.indexSegment item.2]) item.1 := by
  induction items generalizing start with
  | nil => rfl
  | cons item rest ih => rw [itemVisits, ih, List.zipIdx_cons, List.flatMap_cons]

theorem mem_member_visits (guide : Guide) (pointer : Pointer) (reach : Reach) (members : Table Json)
    (key : String) (value : Json) (visit : Visit) (present : (key, value) ∈ members)
    (covered : reach.covers key = true)
    (inside : visit ∈ visitsFrom guide (pointer ++ [key]) value) :
    visit ∈ memberVisits guide pointer reach members := by
  rw [member_visits_eq_flat_map]
  refine List.mem_flatMap.mpr ⟨_, present, ?_⟩
  rwa [if_pos covered]

theorem mem_item_visits (guide : Guide) (pointer : Pointer) (start index : Nat) (items : List Json)
    (item : Json) (visit : Visit) (present : items[index]? = some item)
    (inside : visit ∈ visitsFrom guide (pointer ++ [Pointer.indexSegment (start + index)]) item) :
    visit ∈ itemVisits guide pointer start items := by
  rw [item_visits_eq_flat_map]
  exact List.mem_flatMap.mpr ⟨_, List.mk_add_mem_zipIdx_iff_getElem?.mpr present, inside⟩

theorem mem_visits_from_of_child (guide : Guide) (pointer : Pointer) (value : Json)
    (segment : String) (child : Json) (visit : Visit) (childAt : value.child? segment = some child)
    (covered : ∀ members, value = .obj members → (guide pointer members).covers segment = true)
    (inside : visit ∈ visitsFrom guide (pointer ++ [segment]) child) :
    visit ∈ visitsFrom guide pointer value := by
  rcases child?_cases value segment child childAt with ⟨members, rfl, present⟩ |
    ⟨items, index, rfl, named, present⟩
  · rw [visitsFrom]
    exact List.mem_cons_of_mem _ (mem_member_visits guide pointer _ members segment child visit
      (Table.mem_of_get? members segment child present) (covered members rfl) inside)
  · have same := Pointer.eq_index_segment_of_index? segment index named
    rw [visitsFrom]
    apply mem_item_visits guide pointer 0 index items child visit present
    rwa [Nat.zero_add, ← same]

mutual
theorem located_of_mem_visits_from (guide : Guide) (pointer : Pointer) (value : Json) (visit : Visit)
    (wellFormed : value.WellFormed) (member : visit ∈ visitsFrom guide pointer value) :
    ∃ rest, visit.pointer = pointer ++ rest ∧ value.at? rest = some (.obj visit.members) := by
  cases value with
  | null | bool | num | str => simp [visitsFrom] at member
  | arr items =>
    rw [visitsFrom] at member
    obtain ⟨index, item, rest, present, eq, inner⟩ :=
      located_of_mem_item_visits guide pointer 0 items visit wellFormed member
    rw [Nat.zero_add] at eq
    have childAt := child?_index_segment items index item present
    exact ⟨_, eq, (at?_of_child? _ _ item rest childAt).trans inner⟩
  | obj members =>
    rw [visitsFrom] at member
    rcases List.mem_cons.mp member with rfl | inside
    · exact ⟨[], (List.append_nil _).symm, rfl⟩
    · obtain ⟨entry, present, -, rest, eq, inner⟩ :=
        located_of_mem_member_visits guide pointer _ members visit wellFormed.2 inside
      have childAt := child?_of_mem_members members wellFormed.1 entry present
      exact ⟨_, eq, (at?_of_child? _ _ entry.2 rest childAt).trans inner⟩
theorem located_of_mem_item_visits (guide : Guide) (pointer : Pointer) (start : Nat)
    (items : List Json) (visit : Visit) (wellFormed : ItemsWellFormed items)
    (member : visit ∈ itemVisits guide pointer start items) :
    ∃ (index : Nat) (item : Json) (rest : Pointer), items[index]? = some item ∧
      visit.pointer = pointer ++ Pointer.indexSegment (start + index) :: rest ∧
      item.at? rest = some (.obj visit.members) := by
  cases items with
  | nil => cases member
  | cons item tail =>
    rw [itemVisits] at member
    rcases List.mem_append.mp member with here | later
    · obtain ⟨rest, eq, inner⟩ := located_of_mem_visits_from guide _ item visit wellFormed.1 here
      exact ⟨0, item, rest, rfl, by rw [eq, Pointer.append_singleton_append, Nat.add_zero], inner⟩
    · obtain ⟨index, other, rest, present, eq, inner⟩ :=
        located_of_mem_item_visits guide pointer (start + 1) tail visit wellFormed.2 later
      exact ⟨index + 1, other, rest, present, by rw [eq, Nat.add_assoc, Nat.add_comm 1], inner⟩
theorem located_of_mem_member_visits (guide : Guide) (pointer : Pointer) (reach : Reach)
    (members : Table Json) (visit : Visit) (wellFormed : MembersWellFormed members)
    (member : visit ∈ memberVisits guide pointer reach members) :
    ∃ entry ∈ members, reach.covers entry.1 = true ∧
      ∃ rest, visit.pointer = pointer ++ entry.1 :: rest ∧
        entry.2.at? rest = some (.obj visit.members) := by
  cases members with
  | nil => cases member
  | cons entry tail =>
    obtain ⟨key, value⟩ := entry
    rw [memberVisits] at member
    rcases List.mem_append.mp member with here | later
    · cases covered : reach.covers key with
      | false => simp [covered] at here
      | true =>
        simp only [covered, if_true] at here
        obtain ⟨rest, eq, inner⟩ := located_of_mem_visits_from guide _ value visit wellFormed.1 here
        exact ⟨_, List.mem_cons_self, covered, rest,
          by rw [eq, Pointer.append_singleton_append], inner⟩
    · obtain ⟨other, present, below⟩ :=
        located_of_mem_member_visits guide pointer reach tail visit wellFormed.2 later
      exact ⟨other, List.mem_cons_of_mem _ present, below⟩
end

theorem at?_of_mem_visits (guide : Guide) (document : Json) (visit : Visit)
    (wellFormed : document.WellFormed) (member : visit ∈ visits guide document) :
    document.at? visit.pointer = some (.obj visit.members) := by
  obtain ⟨rest, eq, there⟩ := located_of_mem_visits_from guide [] document visit wellFormed member
  rwa [eq, List.nil_append]

mutual
def placesFrom : Pointer → Json → List Pointer
  | pointer, .obj members => pointer :: memberPlaces pointer members
  | pointer, .arr items => pointer :: itemPlaces pointer 0 items
  | pointer, _ => [pointer]
def itemPlaces : Pointer → Nat → List Json → List Pointer
  | _, _, [] => []
  | pointer, index, item :: rest =>
    placesFrom (pointer ++ [Pointer.indexSegment index]) item ++ itemPlaces pointer (index + 1) rest
def memberPlaces : Pointer → List (String × Json) → List Pointer
  | _, [] => []
  | pointer, (key, value) :: rest =>
    placesFrom (pointer ++ [key]) value ++ memberPlaces pointer rest
end

def places (document : Json) : List Pointer :=
  placesFrom [] document

theorem member_places_eq_flat_map (pointer : Pointer) (members : Table Json) :
    memberPlaces pointer members =
      members.flatMap fun entry => placesFrom (pointer ++ [entry.1]) entry.2 := by
  induction members with
  | nil => rfl
  | cons entry rest ih => rw [memberPlaces, ih, List.flatMap_cons]

theorem item_places_eq_flat_map (pointer : Pointer) (start : Nat) (items : List Json) :
    itemPlaces pointer start items = (items.zipIdx start).flatMap fun item =>
      placesFrom (pointer ++ [Pointer.indexSegment item.2]) item.1 := by
  induction items generalizing start with
  | nil => rfl
  | cons item rest ih => rw [itemPlaces, ih, List.zipIdx_cons, List.flatMap_cons]

theorem mem_member_places (pointer place : Pointer) (members : Table Json) (key : String)
    (value : Json) (present : (key, value) ∈ members)
    (inside : place ∈ placesFrom (pointer ++ [key]) value) : place ∈ memberPlaces pointer members := by
  rw [member_places_eq_flat_map]
  exact List.mem_flatMap.mpr ⟨_, present, inside⟩

theorem mem_item_places (pointer place : Pointer) (start index : Nat) (items : List Json)
    (item : Json) (present : items[index]? = some item)
    (inside : place ∈ placesFrom (pointer ++ [Pointer.indexSegment (start + index)]) item) :
    place ∈ itemPlaces pointer start items := by
  rw [item_places_eq_flat_map]
  exact List.mem_flatMap.mpr ⟨_, List.mk_add_mem_zipIdx_iff_getElem?.mpr present, inside⟩

theorem mem_places_from_of_at? (pointer rest : Pointer) (value found : Json)
    (there : value.at? rest = some found) : pointer ++ rest ∈ placesFrom pointer value := by
  induction rest generalizing pointer value with
  | nil =>
    rw [List.append_nil]
    cases value <;> exact List.mem_cons_self
  | cons segment rest ih =>
    obtain ⟨child, childAt, deeper⟩ := Option.bind_eq_some_iff.mp there
    have inside := ih (pointer ++ [segment]) child deeper
    rw [Pointer.append_singleton_append] at inside
    rcases child?_cases value segment child childAt with ⟨members, rfl, present⟩ |
      ⟨items, index, rfl, named, present⟩
    · rw [placesFrom]
      refine List.mem_cons_of_mem _ (mem_member_places pointer _ members segment child ?_ inside)
      exact Table.mem_of_get? members segment child present
    · have same := Pointer.eq_index_segment_of_index? segment index named
      rw [placesFrom]
      refine List.mem_cons_of_mem _ (mem_item_places pointer _ 0 index items child present ?_)
      rwa [Nat.zero_add, ← same]

mutual
theorem visits_from_sublist (guide : Guide) (pointer : Pointer) (value : Json) :
    ((visitsFrom guide pointer value).map Visit.pointer).Sublist (placesFrom pointer value) := by
  cases value with
  | null | bool | num | str => exact List.nil_sublist _
  | arr items =>
    rw [visitsFrom, placesFrom]
    exact (item_visits_sublist guide pointer 0 items).cons _
  | obj members =>
    rw [visitsFrom, placesFrom, List.map_cons]
    exact (member_visits_sublist guide pointer _ members).cons_cons _
theorem item_visits_sublist (guide : Guide) (pointer : Pointer) (index : Nat) (items : List Json) :
    ((itemVisits guide pointer index items).map Visit.pointer).Sublist
      (itemPlaces pointer index items) := by
  cases items with
  | nil => exact List.nil_sublist _
  | cons item rest =>
    rw [itemVisits, itemPlaces, List.map_append]
    exact (visits_from_sublist guide _ item).append (item_visits_sublist guide pointer (index + 1) rest)
theorem member_visits_sublist (guide : Guide) (pointer : Pointer) (reach : Reach)
    (members : Table Json) :
    ((memberVisits guide pointer reach members).map Visit.pointer).Sublist
      (memberPlaces pointer members) := by
  cases members with
  | nil => exact List.nil_sublist _
  | cons entry rest =>
    obtain ⟨key, value⟩ := entry
    rw [memberVisits, memberPlaces, List.map_append]
    refine List.Sublist.append ?_ (member_visits_sublist guide pointer reach rest)
    cases reach.covers key with
    | false => exact List.nil_sublist _
    | true => exact visits_from_sublist guide _ value
end

theorem visits_sublist (guide : Guide) (document : Json) :
    ((visits guide document).map Visit.pointer).Sublist (places document) :=
  visits_from_sublist guide [] document

end Envelope.Json
