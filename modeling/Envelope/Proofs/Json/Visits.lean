import Envelope.Proofs.Json.Edit

set_option autoImplicit false

namespace Envelope.Json

-- The values that a walk comes to, where it goes on from each visited object to all members but the
-- one that it is told to skip there, and from each array to all items.
inductive Reached (guide : Guide) (document : Json) : Pointer → Json → Prop
  | root : Reached guide document [] document
  | member (pointer : Pointer) (members : Table Json) (key : String) (value : Json)
    (above : Reached guide document pointer (.obj members))
    (covered : (guide pointer members).covers key = true)
    (present : Table.get? members key = some value) :
    Reached guide document (pointer ++ [key]) value
  | item (pointer : Pointer) (items : List Json) (index : Nat) (value : Json)
    (above : Reached guide document pointer (.arr items)) (present : items[index]? = some value) :
    Reached guide document (pointer ++ [Pointer.indexSegment index]) value

theorem mem_visits_of_reached (guide : Guide) (document value : Json) (pointer : Pointer)
    (reached : Reached guide document pointer value) (visit : Visit)
    (inside : visit ∈ visitsFrom guide pointer value) : visit ∈ visits guide document := by
  induction reached with
  | root => exact inside
  | member pointer members key value above covered present ih =>
    refine ih (mem_visits_from_of_child guide pointer _ key value visit present ?_ inside)
    intro others same
    cases same
    exact covered
  | item pointer items index value above present ih =>
    refine ih (mem_visits_from_of_child guide pointer _ _ value visit
      (child?_index_segment items index value present) ?_ inside)
    intro others same
    cases same

theorem reached_of_mem_visits_from (guide : Guide) (document value : Json) (pointer : Pointer)
    (wellFormed : value.WellFormed) (reached : Reached guide document pointer value) (visit : Visit)
    (member : visit ∈ visitsFrom guide pointer value) :
    Reached guide document visit.pointer (.obj visit.members) := by
  induction value generalizing pointer with
  | null | bool | num | str => simp [visitsFrom] at member
  | arr items ih =>
    rw [visitsFrom, item_visits_eq_flat_map] at member
    obtain ⟨⟨item, index⟩, counted, inside⟩ := List.mem_flatMap.mp member
    have present := List.mk_mem_zipIdx_iff_getElem?.mp counted
    have among := List.mem_of_getElem? present
    exact ih item among _ ((items_well_formed_iff items).mp wellFormed item among)
      (.item pointer items index item reached present) inside
  | obj members ih =>
    rw [visitsFrom] at member
    rcases List.mem_cons.mp member with rfl | deeper
    · exact reached
    · rw [member_visits_eq_flat_map] at deeper
      obtain ⟨⟨key, value⟩, among, inside⟩ := List.mem_flatMap.mp deeper
      cases covered : (guide pointer members).covers key with
      | false => simp [covered] at inside
      | true =>
        simp only [covered, if_true] at inside
        exact ih (key, value) among _
          ((members_well_formed_iff members).mp wellFormed.2 (key, value) among)
          (.member pointer members key value reached covered
            (Table.get?_of_mem members key value wellFormed.1 among)) inside

theorem mem_visits_iff_reached (guide : Guide) (document : Json) (wellFormed : document.WellFormed)
    (visit : Visit) :
    visit ∈ visits guide document ↔ Reached guide document visit.pointer (.obj visit.members) := by
  constructor
  · exact reached_of_mem_visits_from guide document document [] wellFormed .root visit
  · intro reached
    refine mem_visits_of_reached guide document _ visit.pointer reached visit ?_
    rw [visitsFrom]
    exact List.mem_cons_self

def ChildBefore : Json → String → String → Prop
  | .obj members, key, other => [key, other].Sublist (Table.keys members)
  | .arr _, segment, other =>
    ∃ i j, i < j ∧ segment = Pointer.indexSegment i ∧ other = Pointer.indexSegment j
  | _, _, _ => False

-- The pre-order of a document: a place comes before those inside it, and of two places that part in
-- a container the one inside the earlier child comes first.
def Before (document : Json) (place later : Pointer) : Prop :=
  (place <+: later ∧ place ≠ later) ∨
    ∃ front container segment other back rest, document.at? front = some container ∧
      ChildBefore container segment other ∧ place = front ++ segment :: back ∧
        later = front ++ other :: rest

theorem not_child_before_self (container : Json) (wellFormed : container.WellFormed)
    (segment : String) : ¬ ChildBefore container segment segment := by
  cases container with
  | null | bool | num | str => exact id
  | arr items =>
    intro ⟨i, j, less, here, there⟩
    exact Nat.ne_of_lt less (Pointer.index_segment_injective i j (here.symm.trans there))
  | obj members =>
    intro twice
    exact absurd (wellFormed.1.sublist twice) (by simp)

theorem ne_of_before (document : Json) (wellFormed : document.WellFormed) (place later : Pointer)
    (before : Before document place later) : place ≠ later := by
  rcases before with ⟨-, differ⟩ |
    ⟨front, container, segment, other, back, rest, there, first, rfl, rfl⟩
  · exact differ
  · intro same
    obtain ⟨rfl, -⟩ := List.cons.inj (List.append_cancel_left same)
    exact not_child_before_self container (well_formed_of_at? document front container there wellFormed)
      segment first

theorem below_of_mem_member_places (pointer place : Pointer) (members : Table Json)
    (every : ∀ entry ∈ members, ∀ inner ∈ placesFrom (pointer ++ [entry.1]) entry.2,
      pointer ++ [entry.1] <+: inner)
    (member : place ∈ memberPlaces pointer members) :
    ∃ entry ∈ members, ∃ tail, place = pointer ++ entry.1 :: tail := by
  rw [member_places_eq_flat_map] at member
  obtain ⟨entry, among, inside⟩ := List.mem_flatMap.mp member
  obtain ⟨tail, rfl⟩ := every entry among place inside
  exact ⟨entry, among, tail, Pointer.append_singleton_append pointer tail entry.1⟩

theorem item_places_eq_member_places (pointer : Pointer) (start : Nat) (items : List Json) :
    itemPlaces pointer start items = memberPlaces pointer (labelled start items) := by
  induction items generalizing start with
  | nil => rfl
  | cons item rest ih => rw [itemPlaces, labelled, memberPlaces, ih]

theorem mem_items_of_labelled (items : List Json) (entry : String × Json)
    (member : entry ∈ labelled 0 items) : entry.2 ∈ items := by
  obtain ⟨index, -, present⟩ := mem_labelled 0 items entry member
  exact List.mem_of_getElem? present

theorem prefix_of_mem_places_from (pointer place : Pointer) (value : Json)
    (member : place ∈ placesFrom pointer value) : pointer <+: place := by
  induction value generalizing pointer place with
  | null | bool | num | str => exact List.mem_singleton.mp member ▸ List.prefix_rfl
  | arr items ih =>
    rw [placesFrom, item_places_eq_member_places] at member
    rcases List.mem_cons.mp member with rfl | deeper
    · exact List.prefix_rfl
    · obtain ⟨entry, -, tail, rfl⟩ := below_of_mem_member_places pointer place _
        (fun entry among inner => ih entry.2 (mem_items_of_labelled items entry among) _ inner) deeper
      exact List.prefix_append pointer _
  | obj members ih =>
    rw [placesFrom] at member
    rcases List.mem_cons.mp member with rfl | deeper
    · exact List.prefix_rfl
    · obtain ⟨entry, -, tail, rfl⟩ := below_of_mem_member_places pointer place members
        (fun entry among inner => ih entry among _ inner) deeper
      exact List.prefix_append pointer _

theorem before_children (document container : Json) (pointer : Pointer) (members : Table Json)
    (there : document.at? pointer = some container)
    (ordered : members.Pairwise fun entry later => ChildBefore container entry.1 later.1)
    (every : ∀ entry ∈ members,
      (placesFrom (pointer ++ [entry.1]) entry.2).Pairwise (Before document)) :
    (pointer :: memberPlaces pointer members).Pairwise (Before document) := by
  have within : ∀ entry : String × Json, ∀ inner ∈ placesFrom (pointer ++ [entry.1]) entry.2,
      ∃ tail, inner = pointer ++ entry.1 :: tail := by
    intro entry inner member
    obtain ⟨tail, rfl⟩ := prefix_of_mem_places_from _ inner entry.2 member
    exact ⟨tail, Pointer.append_singleton_append pointer tail entry.1⟩
  refine List.pairwise_cons.mpr ⟨fun place member => .inl ?_, ?_⟩
  · obtain ⟨entry, -, tail, rfl⟩ := below_of_mem_member_places pointer place members
      (fun entry _ inner => prefix_of_mem_places_from _ inner entry.2) member
    exact ⟨List.prefix_append pointer _, by simp⟩
  · rw [member_places_eq_flat_map]
    refine List.pairwise_flatMap.mpr ⟨every, ordered.imp fun {entry later} first => ?_⟩
    intro place here other below
    obtain ⟨back, rfl⟩ := within entry place here
    obtain ⟨rest, rfl⟩ := within later other below
    exact .inr ⟨pointer, container, entry.1, later.1, back, rest, there, first, rfl, rfl⟩

theorem child_before_labelled (start : Nat) (items others : List Json) :
    (labelled start items).Pairwise fun entry later =>
      ChildBefore (.arr others) entry.1 later.1 := by
  induction items generalizing start with
  | nil => exact List.Pairwise.nil
  | cons item rest ih =>
    refine List.pairwise_cons.mpr ⟨fun later member => ?_, ih (start + 1)⟩
    obtain ⟨index, named, -⟩ := mem_labelled (start + 1) rest later member
    exact ⟨start, start + 1 + index, by omega, rfl, named⟩

theorem before_places_from (document value : Json) (pointer : Pointer)
    (wellFormed : value.WellFormed) (there : document.at? pointer = some value) :
    (placesFrom pointer value).Pairwise (Before document) := by
  induction value generalizing pointer with
  | null | bool | num | str => exact List.pairwise_singleton _ _
  | arr items ih =>
    rw [placesFrom, item_places_eq_member_places]
    refine before_children document _ pointer _ there (child_before_labelled 0 items items)
      fun entry member => ?_
    obtain ⟨index, named, present⟩ := mem_labelled 0 items entry member
    have among := List.mem_of_getElem? present
    refine ih entry.2 among _ ((items_well_formed_iff items).mp wellFormed _ among) ?_
    rw [at?_append, there, named, Nat.zero_add]
    exact at?_of_child? _ _ entry.2 [] (child?_index_segment items index entry.2 present)
  | obj members ih =>
    rw [placesFrom]
    refine before_children document _ pointer members there ?_ fun entry among => ?_
    · refine List.pairwise_iff_forall_sublist.mpr fun {entry later} first => ?_
      exact first.map Prod.fst
    · refine ih entry among _ ((members_well_formed_iff members).mp wellFormed.2 entry among) ?_
      rw [at?_append, there]
      exact at?_of_child? _ _ entry.2 [] (child?_of_mem_members members wellFormed.1 entry among)

theorem before_visits (guide : Guide) (document : Json) (wellFormed : document.WellFormed) :
    ((visits guide document).map Visit.pointer).Pairwise (Before document) :=
  (before_places_from document document [] wellFormed rfl).sublist (visits_sublist guide document)

theorem nodup_visits (guide : Guide) (document : Json) (wellFormed : document.WellFormed) :
    ((visits guide document).map Visit.pointer).Nodup :=
  (before_visits guide document wellFormed).imp fun {place later} before =>
    ne_of_before document wellFormed place later before

theorem nodup_texts (pointers : List Pointer) (differ : pointers.Nodup) :
    (pointers.map Pointer.text).Nodup :=
  List.pairwise_map.mpr (differ.imp fun apart same => apart (Pointer.text_injective _ _ same))

def asking (visitor : String → Table Json → Reach) : Guide := fun pointer members =>
  visitor (Pointer.text pointer) members

-- What a walk with one text for its pointers has: the text as it stands, and what it has passed.
structure Tour where
  written : String
  passed : List (String × Table Json)

namespace Tour

def enter (tour : Tour) (segment : String) : Tour :=
  { tour with written := Pointer.join tour.written segment }

def leave (tour : Tour) (length : Nat) : Tour :=
  { tour with written := String.ofList (tour.written.toList.take length) }

def pass (tour : Tour) (members : Table Json) : Tour :=
  { tour with passed := tour.passed ++ [(tour.written, members)] }

variable (visitor : String → Table Json → Reach)

mutual
def through : Json → Tour → Tour
  | .obj members, tour =>
    throughMembers (visitor tour.written members) members (tour.pass members)
  | .arr items, tour => throughItems 0 items tour
  | _, tour => tour
def throughItems : Nat → List Json → Tour → Tour
  | _, [], tour => tour
  | index, item :: rest, tour =>
    let inside := through item (tour.enter (Pointer.indexSegment index))
    throughItems (index + 1) rest (inside.leave tour.written.length)
def throughMembers : Reach → List (String × Json) → Tour → Tour
  | _, [], tour => tour
  | reach, (key, value) :: rest, tour =>
    if reach.covers key then
      throughMembers reach rest ((through value (tour.enter key)).leave tour.written.length)
    else throughMembers reach rest tour
end

def shown (visit : Visit) : String × Table Json :=
  (Pointer.text visit.pointer, visit.members)

theorem leave_text (pointer : Pointer) (segment : String) (passed : List (String × Table Json)) :
    leave ⟨Pointer.text (pointer ++ [segment]), passed⟩ (Pointer.text pointer).length =
      ⟨Pointer.text pointer, passed⟩ := by
  rw [leave, Pointer.text_append, Pointer.to_list_join, ← String.length_toList, List.take_left,
    String.ofList_toList]

mutual
-- Whatever a walk passes inside a value, it leaves the text as it was before the value.
theorem through_eq (pointer : Pointer) (value : Json) (passed : List (String × Table Json)) :
    through visitor value ⟨Pointer.text pointer, passed⟩ =
      ⟨Pointer.text pointer,
        passed ++ (visitsFrom (asking visitor) pointer value).map shown⟩ := by
  cases value with
  | null | bool | num | str => simp only [through, visitsFrom, List.map_nil, List.append_nil]
  | arr items =>
    rw [through, visitsFrom]
    exact through_items_eq pointer 0 items passed
  | obj members =>
    rw [through, visitsFrom, List.map_cons, ← List.singleton_append, ← List.append_assoc]
    exact through_members_eq pointer _ members (passed ++ [(Pointer.text pointer, members)])
theorem through_items_eq (pointer : Pointer) (index : Nat) (items : List Json)
    (passed : List (String × Table Json)) :
    throughItems visitor index items ⟨Pointer.text pointer, passed⟩ =
      ⟨Pointer.text pointer,
        passed ++ (itemVisits (asking visitor) pointer index items).map shown⟩ := by
  cases items with
  | nil => simp only [throughItems, itemVisits, List.map_nil, List.append_nil]
  | cons item rest =>
    rw [throughItems, enter, ← Pointer.text_append, through_eq, leave_text, through_items_eq,
      itemVisits, List.map_append, List.append_assoc]
theorem through_members_eq (pointer : Pointer) (reach : Reach) (members : Table Json)
    (passed : List (String × Table Json)) :
    throughMembers visitor reach members ⟨Pointer.text pointer, passed⟩ =
      ⟨Pointer.text pointer,
        passed ++ (memberVisits (asking visitor) pointer reach members).map shown⟩ := by
  cases members with
  | nil => simp only [throughMembers, memberVisits, List.map_nil, List.append_nil]
  | cons member rest =>
    obtain ⟨key, value⟩ := member
    rw [throughMembers, memberVisits]
    by_cases covered : reach.covers key = true
    · rw [if_pos covered, if_pos covered, enter, ← Pointer.text_append, through_eq, leave_text,
        through_members_eq, List.map_append, List.append_assoc]
    · rw [if_neg covered, if_neg covered, through_members_eq, List.nil_append]
end

end Tour

/-- A walk visits the objects that are reached without entering what a visited object skips, and no
other: no pointer twice, and in the pre-order of the document. Each pointer leads to the object that
is visited there, and they are the pointers that one text has, to which the walk adds each segment
and from which it cuts it again. Where nothing is skipped, a walk that may change the document, and
does not, visits the same. -/
theorem visits_what_is_reached (visitor : String → Table Json → Reach) (document : Json)
    (wellFormed : document.WellFormed) :
    (∀ visit, visit ∈ visits (asking visitor) document ↔
        Reached (asking visitor) document visit.pointer (.obj visit.members)) ∧
      ((visits (asking visitor) document).map fun visit => Pointer.text visit.pointer).Nodup ∧
      ((visits (asking visitor) document).map Visit.pointer).Pairwise (Before document) ∧
      (∀ visit ∈ visits (asking visitor) document,
        document.at? (Pointer.split (Pointer.text visit.pointer)) = some (.obj visit.members)) ∧
      Tour.through visitor document ⟨"", []⟩ =
        ⟨"", (visits (asking visitor) document).map Tour.shown⟩ ∧
      ∀ (σ ε : Type) (note : σ → Visit → σ) (fuel : Nat) (state : σ), document.depth ≤ fuel →
        editFrom (watching note : Visitor σ ε) fuel [] document state =
          ⟨document, (visits (asking fun _ _ => .all) document).foldl note state, none⟩ := by
  refine ⟨mem_visits_iff_reached _ document wellFormed, ?_, before_visits _ document wellFormed,
    fun visit member => ?_, Tour.through_eq visitor [] document [],
    fun σ ε note fuel state enough => ?_⟩
  · have differ := nodup_texts _ (nodup_visits (asking visitor) document wellFormed)
    rwa [List.map_map] at differ
  · rw [Pointer.split_text]
    exact at?_of_mem_visits _ document visit wellFormed member
  · exact edit_from_watching note fuel document state enough

def tangledDocument : Json :=
  .obj [("value", .obj [("in", .obj [])]), ("a/b", .arr [.num (.int 3), .obj [("~", .obj [])]])]

theorem well_formed_tangled_document : tangledDocument.WellFormed := by
  simp [tangledDocument, WellFormed, MembersWellFormed, ItemsWellFormed, Table.keys]

def skippingValue : String → Table Json → Reach := fun written _ =>
  if written = "" then .skip "value" else .all

theorem visits_what_is_reached_tangled :
    tangledDocument.WellFormed ∧ tangledDocument.depth ≤ 4 ∧
      (visits (asking skippingValue) tangledDocument).map Tour.shown =
        [("", [("value", .obj [("in", .obj [])]),
            ("a/b", .arr [.num (.int 3), .obj [("~", .obj [])]])]),
          ("/a~1b/1", [("~", .obj [])]), ("/a~1b/1/~0", [])] ∧
      Reached (asking skippingValue) tangledDocument ["a/b", "1", "~"] (.obj []) ∧
      tangledDocument.at? (Pointer.split "/a~1b/1/~0") = some (.obj []) ∧
      editFrom (watching fun count _ => count + 1 : Visitor Nat Unit) 4 [] tangledDocument 0 =
        ⟨tangledDocument, 5, none⟩ := by
  obtain ⟨reached, -, -, leads, -, unchanged⟩ :=
    visits_what_is_reached skippingValue tangledDocument well_formed_tangled_document
  have member : (⟨["a/b", "1", "~"], []⟩ : Visit) ∈ visits (asking skippingValue) tangledDocument := by
    decide
  exact ⟨well_formed_tangled_document, by decide, by decide, (reached _).mp member, leads _ member,
    unchanged Nat Unit (fun count _ => count + 1) 4 0 (by decide)⟩

end Envelope.Json
