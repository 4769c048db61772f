import Envelope.Proofs.Field.Tagged

set_option autoImplicit false

namespace Envelope.Tag

theorem map_split_paths (document : Json) :
    (paths document).map Pointer.split = (values document).map Prod.fst := by
  simp only [paths, List.map_map, Function.comp_def, Pointer.split_text]

theorem nodup_paths (document : Json) (wellFormed : document.WellFormed) :
    (paths document).Nodup := by
  have split : ((paths document).map Pointer.split).Nodup := by
    rw [map_split_paths]
    exact nodup_pointers document wellFormed
  exact List.Pairwise.of_map Pointer.split (fun _ _ apart same => apart (congrArg _ same)) split

theorem owner_of_mem_values (document : Json) (wellFormed : document.WellFormed)
    (found : Pointer × Json) (member : found ∈ values document) :
    ∃ owner members, found.1 = owner ++ [valueKey] ∧ document.at? owner = some (.obj members) ∧
      sealable? members = some found.2 := by
  obtain ⟨visit, visited, sealed⟩ := List.mem_filterMap.mp member
  obtain ⟨place, sealable⟩ := (sealable_at_eq_some_iff visit found).mp sealed
  exact ⟨visit.pointer, visit.members, place,
    Json.at?_of_mem_visits guide document visit wellFormed visited, sealable⟩

theorem owners_sublist (visits : List Json.Visit) :
    ((visits.filterMap sealableAt).map fun found => found.1.dropLast).Sublist
      (visits.map Json.Visit.pointer) := by
  induction visits with
  | nil => exact List.Sublist.refl _
  | cons visit rest ih =>
    rw [List.filterMap_cons, List.map_cons]
    cases sealed : sealableAt visit with
    | none => exact ih.cons _
    | some found =>
      have owner : found.1.dropLast = visit.pointer := by
        rw [((sealable_at_eq_some_iff visit found).mp sealed).1, List.dropLast_concat]
      rw [List.map_cons, owner]
      exact ih.cons_cons _

-- Of two values to seal, one has the other inside its object, or comes before it among some places.
def Ordered (places : List Pointer) (found other : Pointer × Json) : Prop :=
  found.1.dropLast <+: other.1 ∨ [found.1, other.1].Sublist places

theorem ordered_of_sublist (places larger : List Pointer) (within : places.Sublist larger)
    (found other : Pointer × Json) (ordered : Ordered places found other) :
    Ordered larger found other :=
  ordered.imp_right fun before => before.trans within

theorem ordered_append (front back : List (Pointer × Json)) (frontPlaces backPlaces : List Pointer)
    (frontOrdered : front.Pairwise (Ordered frontPlaces))
    (backOrdered : back.Pairwise (Ordered backPlaces))
    (frontThere : ∀ found ∈ front, found.1 ∈ frontPlaces)
    (backThere : ∀ found ∈ back, found.1 ∈ backPlaces) :
    (front ++ back).Pairwise (Ordered (frontPlaces ++ backPlaces)) := by
  refine List.pairwise_append.mpr ⟨frontOrdered.imp ?_, backOrdered.imp ?_, ?_⟩
  · exact ordered_of_sublist _ _ (List.sublist_append_left _ _) _ _
  · exact ordered_of_sublist _ _ (List.sublist_append_right _ _) _ _
  · intro found here other later
    have first := List.singleton_sublist.mpr (frontThere found here)
    exact .inr (first.append (List.singleton_sublist.mpr (backThere other later)))

theorem place_of_mem_values_from (pointer : Pointer) (value : Json) (found : Pointer × Json)
    (wellFormed : value.WellFormed) (member : found ∈ valuesFrom pointer value) :
    found.1 ∈ Json.placesFrom pointer value := by
  obtain ⟨rest, eq, there⟩ := located_of_mem_values_from pointer value found wellFormed member
  exact eq ▸ Json.mem_places_from_of_at? pointer rest value found.2 there

theorem place_of_mem_item_values (pointer : Pointer) (start : Nat) (items : List Json)
    (found : Pointer × Json) (wellFormed : Json.ItemsWellFormed items)
    (member : found ∈ itemValues pointer start items) :
    found.1 ∈ Json.itemPlaces pointer start items := by
  obtain ⟨index, item, rest, present, eq, there⟩ :=
    located_of_mem_item_values pointer start items found wellFormed member
  have inside := Json.mem_places_from_of_at? (pointer ++ [Pointer.indexSegment (start + index)]) rest
    item found.2 there
  rw [Pointer.append_singleton_append, ← eq] at inside
  exact Json.mem_item_places pointer _ start index items item present inside

theorem place_of_mem_member_values (pointer : Pointer) (reach : Json.Reach) (members : Table Json)
    (found : Pointer × Json) (wellFormed : Json.MembersWellFormed members)
    (member : found ∈ memberValues pointer reach members) :
    found.1 ∈ Json.memberPlaces pointer members := by
  obtain ⟨entry, present, -, rest, eq, there⟩ :=
    located_of_mem_member_values pointer reach members found wellFormed member
  have inside := Json.mem_places_from_of_at? (pointer ++ [entry.1]) rest entry.2 found.2 there
  rw [Pointer.append_singleton_append, ← eq] at inside
  exact Json.mem_member_places pointer _ members entry.1 entry.2 present inside

mutual
theorem ordered_values_from (pointer : Pointer) (value : Json) (wellFormed : value.WellFormed) :
    (valuesFrom pointer value).Pairwise (Ordered (Json.placesFrom pointer value)) := by
  cases value with
  | null | bool | num | str => exact List.Pairwise.nil
  | arr items =>
    rw [values_from_arr, Json.placesFrom]
    refine (ordered_item_values pointer 0 items wellFormed).imp ?_
    exact ordered_of_sublist _ _ (List.sublist_cons_self _ _) _ _
  | obj members =>
    rw [Json.placesFrom]
    cases tagged : sealable? members with
    | none =>
      rw [values_from_untagged pointer members tagged]
      refine (ordered_member_values pointer .all members wellFormed.2).imp ?_
      exact ordered_of_sublist _ _ (List.sublist_cons_self _ _) _ _
    | some value =>
      rw [values_from_tagged pointer members value tagged]
      refine List.pairwise_cons.mpr ⟨fun found member => .inl ?_, ?_⟩
      · obtain ⟨entry, -, -, rest, eq, -⟩ :=
          located_of_mem_member_values pointer _ members found wellFormed.2 member
        rw [List.dropLast_concat, eq]
        exact List.prefix_append pointer _
      · refine (ordered_member_values pointer _ members wellFormed.2).imp ?_
        exact ordered_of_sublist _ _ (List.sublist_cons_self _ _) _ _
theorem ordered_item_values (pointer : Pointer) (start : Nat) (items : List Json)
    (wellFormed : Json.ItemsWellFormed items) :
    (itemValues pointer start items).Pairwise (Ordered (Json.itemPlaces pointer start items)) := by
  cases items with
  | nil => exact List.Pairwise.nil
  | cons item tail =>
    rw [item_values_cons, Json.itemPlaces]
    exact ordered_append _ _ _ _ (ordered_values_from _ item wellFormed.1)
      (ordered_item_values pointer (start + 1) tail wellFormed.2)
      (fun found => place_of_mem_values_from _ item found wellFormed.1)
      (fun found => place_of_mem_item_values pointer (start + 1) tail found wellFormed.2)
theorem ordered_member_values (pointer : Pointer) (reach : Json.Reach) (members : Table Json)
    (wellFormed : Json.MembersWellFormed members) :
    (memberValues pointer reach members).Pairwise (Ordered (Json.memberPlaces pointer members)) := by
  cases members with
  | nil => exact List.Pairwise.nil
  | cons entry tail =>
    obtain ⟨key, value⟩ := entry
    have others := ordered_member_values pointer reach tail wellFormed.2
    rw [Json.memberPlaces]
    cases covered : reach.covers key with
    | false =>
      rw [member_values_skipped pointer reach key value tail covered]
      exact others.imp (ordered_of_sublist _ _ (List.sublist_append_right _ _) _ _)
    | true =>
      rw [member_values_covered pointer reach key value tail covered]
      exact ordered_append _ _ _ _ (ordered_values_from _ value wellFormed.1) others
        (fun found => place_of_mem_values_from _ value found wellFormed.1)
        (fun found => place_of_mem_member_values pointer reach tail found wellFormed.2)
end

/-- The paths of the values to seal differ, and none leads into the value of another. Each leads to the
value of a tagged object, and that value does not count as a marker. Every tagged object with such a
value has its path there, or lies inside a value that has. The paths come in the pre-order of the
tagged objects, so that of an object comes before those inside its members, wherever its value stands;
any other two come in the pre-order of the document. -/
theorem paths_outermost (document : Json) (wellFormed : document.WellFormed) :
    (paths document).Nodup ∧
      ((paths document).map Pointer.split).Pairwise Pointer.Apart ∧
      (∀ path ∈ paths document, ∃ owner members value,
        Pointer.split path = owner ++ [valueKey] ∧ document.at? owner = some (.obj members) ∧
          isTagged members = true ∧ Table.get? members valueKey = some value ∧
          document.at? (Pointer.split path) = some value ∧ Marker.isMarker value = false) ∧
      (∀ owner members value, document.at? owner = some (.obj members) →
        isTagged members = true → Table.get? members valueKey = some value →
          Marker.isMarker value = false →
            Pointer.text (owner ++ [valueKey]) ∈ paths document ∨
              ∃ path ∈ paths document, Pointer.split path <+: owner) ∧
      ((paths document).map fun path => (Pointer.split path).dropLast).Sublist document.places ∧
      ((paths document).map Pointer.split).Pairwise fun path later =>
        path.dropLast <+: later ∨ [path, later].Sublist document.places := by
  refine ⟨nodup_paths document wellFormed, ?_, ?_, ?_, ?_, ?_⟩
  · rw [map_split_paths]
    exact List.pairwise_map.mpr (separate_values document wellFormed)
  · intro path member
    obtain ⟨found, inValues, rfl⟩ := List.mem_map.mp member
    obtain ⟨owner, members, place, there, sealable⟩ :=
      owner_of_mem_values document wellFormed found inValues
    obtain ⟨tagged, present, unmarked⟩ := (sealable?_eq_some_iff members found.2).mp sealable
    rw [Pointer.split_text]
    exact ⟨owner, members, found.2, place, there, tagged, present,
      at?_of_mem_values document found wellFormed inValues, unmarked⟩
  · intro owner members value there tagged present unmarked
    rcases value_or_around_of_tagged document owner members value there tagged present unmarked with
      here | ⟨found, inValues, within⟩
    · exact .inl (List.mem_map_of_mem here)
    · refine .inr ⟨_, List.mem_map_of_mem inValues, ?_⟩
      rwa [Pointer.split_text]
  · have owners : ((values document).map fun found => found.1.dropLast).Sublist document.places :=
      (owners_sublist (Json.visits guide document)).trans (Json.visits_sublist guide document)
    simpa only [paths, List.map_map, Function.comp_def, Pointer.split_text] using owners
  · rw [map_split_paths]
    exact List.pairwise_map.mpr (ordered_values_from [] document wellFormed)

-- A tagged object whose value is another one, and comes after a member with a third.
def lateDocument : Json :=
  .obj [("a/b", tagged (.str "bolt")),
    (qualifiersKey, .arr [.obj [(typeKey, .str "confidentiality"), (valueKey, .str "encrypted")]]),
    (valueKey, tagged (.str "nut"))]

theorem well_formed_late_document : lateDocument.WellFormed := by
  simp [lateDocument, tagged, qualifiersKey, typeKey, valueKey, Json.WellFormed,
    Json.MembersWellFormed, Json.ItemsWellFormed, Table.keys]

theorem paths_outermost_late :
    lateDocument.WellFormed ∧ paths lateDocument = ["/value", "/a~1b/value"] ∧
      (∃ owner members value, Pointer.split "/a~1b/value" = owner ++ [valueKey] ∧
        lateDocument.at? owner = some (.obj members) ∧ isTagged members = true ∧
        Table.get? members valueKey = some value ∧ lateDocument.at? ["a/b", "value"] = some value) ∧
      (Pointer.text ["value", "value"] ∈ paths lateDocument ∨
        ∃ path ∈ paths lateDocument, Pointer.split path <+: ["value"]) ∧
      ((paths lateDocument).map fun path => (Pointer.split path).dropLast).Sublist
        lateDocument.places := by
  obtain ⟨-, -, sound, complete, owners, -⟩ := paths_outermost lateDocument well_formed_late_document
  have found : paths lateDocument = ["/value", "/a~1b/value"] := by decide
  have member : "/a~1b/value" ∈ paths lateDocument := by
    rw [found]
    decide
  obtain ⟨owner, members, value, place, there, tagged, present, leads, -⟩ := sound _ member
  exact ⟨well_formed_late_document, found, ⟨owner, members, value, place, there, tagged, present, leads⟩,
    complete ["value"] _ _ rfl (by decide) rfl rfl, owners⟩

-- The value of an object is reported before those of the members that stand before it.
theorem late_value_comes_first :
    paths lateDocument = ["/value", "/a~1b/value"] ∧
      lateDocument.places.idxOf ["a/b", "value"] < lateDocument.places.idxOf ["value"] ∧
      ¬ ((paths lateDocument).map Pointer.split).Sublist lateDocument.places := by
  decide

end Envelope.Tag
