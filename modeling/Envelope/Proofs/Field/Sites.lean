import Envelope.Field.Marker
import Envelope.Proofs.Json.Rewrite

set_option autoImplicit false

namespace Envelope.Marker

def members (marker : Marker) : Table Json :=
  [(refKey, .str marker.refId), (hashKey, .str marker.hash), (algorithmKey, .str marker.algorithm),
    (versionKey, .str marker.version)]

theorem ref_of?_members (marker : Marker) : refOf? marker.members = some marker.refId := rfl

theorem to_json_injective (marker other : Marker) (same : marker.toJson = other.toJson) :
    marker = other := by
  obtain ⟨refId, hash, algorithm, version⟩ := marker
  cases same
  rfl

theorem well_formed_to_json (marker : Marker) : marker.toJson.WellFormed := by
  simp [toJson, Json.WellFormed, Json.MembersWellFormed, Table.keys, refKey, hashKey, algorithmKey,
    versionKey]

theorem eq_nil_of_at?_to_json (marker : Marker) (path : Pointer) (inner : Table Json)
    (there : marker.toJson.at? path = some (.obj inner)) : path = [] := by
  cases path with
  | nil => rfl
  | cons segment rest =>
    obtain ⟨child, childAt, deeper⟩ := Option.bind_eq_some_iff.mp there
    have entry := Table.mem_of_get? marker.members segment child childAt
    obtain ⟨text, rfl⟩ : ∃ text, child = .str text := by
      simp only [members, List.mem_cons, Prod.mk.injEq, List.not_mem_nil, or_false] at entry
      rcases entry with ⟨-, rfl⟩ | ⟨-, rfl⟩ | ⟨-, rfl⟩ | ⟨-, rfl⟩ <;> exact ⟨_, rfl⟩
    cases rest with
    | nil => cases deeper
    | cons => cases deeper

structure Site where
  pointer : Pointer
  members : Table Json
  ref : String
deriving DecidableEq

mutual
def sitesFrom : Pointer → Json → List Site
  | pointer, .obj members =>
    match refOf? members with
    | some ref => [⟨pointer, members, ref⟩]
    | none => memberSites pointer members
  | pointer, .arr items => itemSites pointer 0 items
  | _, _ => []
def itemSites : Pointer → Nat → List Json → List Site
  | _, _, [] => []
  | pointer, index, item :: rest =>
    sitesFrom (pointer ++ [Pointer.indexSegment index]) item ++ itemSites pointer (index + 1) rest
def memberSites : Pointer → List (String × Json) → List Site
  | _, [] => []
  | pointer, (key, value) :: rest =>
    sitesFrom (pointer ++ [key]) value ++ memberSites pointer rest
end

def sites (document : Json) : List Site :=
  sitesFrom [] document

theorem sites_from_marker (pointer : Pointer) (members : Table Json) (ref : String)
    (marked : refOf? members = some ref) :
    sitesFrom pointer (.obj members) = [⟨pointer, members, ref⟩] := by
  simp only [sitesFrom, marked]

theorem sites_from_plain (pointer : Pointer) (members : Table Json)
    (plain : refOf? members = none) :
    sitesFrom pointer (.obj members) = memberSites pointer members := by
  simp only [sitesFrom, plain]

mutual
theorem located_of_mem_sites_from (pointer : Pointer) (value : Json) (site : Site)
    (wellFormed : value.WellFormed) (member : site ∈ sitesFrom pointer value) :
    refOf? site.members = some site.ref ∧
      ∃ rest, site.pointer = pointer ++ rest ∧ value.at? rest = some (.obj site.members) := by
  cases value with
  | null | bool | num | str => simp [sitesFrom] at member
  | arr items =>
    rw [sitesFrom] at member
    obtain ⟨marked, index, item, rest, present, eq, inner⟩ :=
      located_of_mem_item_sites pointer 0 items site wellFormed member
    rw [Nat.zero_add] at eq
    have childAt := Json.child?_index_segment items index item present
    exact ⟨marked, _, eq, (Json.at?_of_child? _ _ item rest childAt).trans inner⟩
  | obj members =>
    cases marked : refOf? members with
    | some ref =>
      rw [sites_from_marker pointer members ref marked, List.mem_singleton] at member
      subst member
      exact ⟨marked, [], (List.append_nil _).symm, rfl⟩
    | none =>
      rw [sites_from_plain pointer members marked] at member
      obtain ⟨here, entry, present, rest, eq, inner⟩ :=
        located_of_mem_member_sites pointer members site wellFormed.2 member
      have childAt := Json.child?_of_mem_members members wellFormed.1 entry present
      exact ⟨here, _, eq, (Json.at?_of_child? _ _ entry.2 rest childAt).trans inner⟩
theorem located_of_mem_item_sites (pointer : Pointer) (start : Nat) (items : List Json) (site : Site)
    (wellFormed : Json.ItemsWellFormed items) (member : site ∈ itemSites pointer start items) :
    refOf? site.members = some site.ref ∧
      ∃ (index : Nat) (item : Json) (rest : Pointer), items[index]? = some item ∧
        site.pointer = pointer ++ Pointer.indexSegment (start + index) :: rest ∧
        item.at? rest = some (.obj site.members) := by
  cases items with
  | nil => cases member
  | cons item tail =>
    rw [itemSites] at member
    rcases List.mem_append.mp member with here | later
    · obtain ⟨marked, rest, eq, inner⟩ := located_of_mem_sites_from _ item site wellFormed.1 here
      exact ⟨marked, 0, item, rest, rfl,
        by rw [eq, Pointer.append_singleton_append, Nat.add_zero], inner⟩
    · obtain ⟨marked, index, other, rest, present, eq, inner⟩ :=
        located_of_mem_item_sites pointer (start + 1) tail site wellFormed.2 later
      exact ⟨marked, index + 1, other, rest, present,
        by rw [eq, Nat.add_assoc, Nat.add_comm 1], inner⟩
theorem located_of_mem_member_sites (pointer : Pointer) (members : Table Json) (site : Site)
    (wellFormed : Json.MembersWellFormed members) (member : site ∈ memberSites pointer members) :
    refOf? site.members = some site.ref ∧
      ∃ entry ∈ members, ∃ rest, site.pointer = pointer ++ entry.1 :: rest ∧
        entry.2.at? rest = some (.obj site.members) := by
  cases members with
  | nil => cases member
  | cons entry tail =>
    obtain ⟨key, value⟩ := entry
    rw [memberSites] at member
    rcases List.mem_append.mp member with here | later
    · obtain ⟨marked, rest, eq, inner⟩ := located_of_mem_sites_from _ value site wellFormed.1 here
      exact ⟨marked, _, List.mem_cons_self, rest,
        by rw [eq, Pointer.append_singleton_append], inner⟩
    · obtain ⟨marked, other, present, below⟩ :=
        located_of_mem_member_sites pointer tail site wellFormed.2 later
      exact ⟨marked, other, List.mem_cons_of_mem _ present, below⟩
end

theorem mem_item_sites_iff (pointer : Pointer) (start : Nat) (items : List Json) (site : Site) :
    site ∈ itemSites pointer start items ↔ ∃ (index : Nat) (item : Json), items[index]? = some item ∧
      site ∈ sitesFrom (pointer ++ [Pointer.indexSegment (start + index)]) item := by
  induction items generalizing start with
  | nil => simp [itemSites]
  | cons item rest ih =>
    rw [itemSites, List.mem_append, ih (start + 1)]
    constructor
    · rintro (here | ⟨index, other, present, inside⟩)
      · exact ⟨0, item, rfl, here⟩
      · exact ⟨index + 1, other, present, by rwa [Nat.add_comm index 1, ← Nat.add_assoc]⟩
    · rintro ⟨index, other, present, inside⟩
      cases index with
      | zero =>
        cases present
        exact .inl inside
      | succ index =>
        rw [Nat.add_comm index 1, ← Nat.add_assoc] at inside
        exact .inr ⟨index, other, present, inside⟩

theorem mem_member_sites_iff (pointer : Pointer) (members : Table Json) (site : Site) :
    site ∈ memberSites pointer members ↔
      ∃ entry ∈ members, site ∈ sitesFrom (pointer ++ [entry.1]) entry.2 := by
  induction members with
  | nil => simp [memberSites]
  | cons entry rest ih =>
    simp only [memberSites, List.mem_append, ih, List.mem_cons, or_and_right, exists_or,
      exists_eq_left]

theorem mem_sites_from_iff_child (pointer : Pointer) (value : Json) (site : Site)
    (wellFormed : value.WellFormed)
    (plain : ∀ members, value = .obj members → refOf? members = none) :
    site ∈ sitesFrom pointer value ↔ ∃ segment child, value.child? segment = some child ∧
      site ∈ sitesFrom (pointer ++ [segment]) child := by
  constructor
  · intro member
    cases value with
    | null | bool | num | str => simp [sitesFrom] at member
    | arr items =>
      rw [sitesFrom] at member
      obtain ⟨index, item, present, inside⟩ := (mem_item_sites_iff pointer 0 items site).mp member
      rw [Nat.zero_add] at inside
      exact ⟨_, item, Json.child?_index_segment items index item present, inside⟩
    | obj members =>
      rw [sites_from_plain pointer members (plain members rfl)] at member
      obtain ⟨entry, present, inside⟩ := (mem_member_sites_iff pointer members site).mp member
      exact ⟨entry.1, entry.2, Table.get?_of_mem members entry.1 entry.2 wellFormed.1 present, inside⟩
  · rintro ⟨segment, child, childAt, inside⟩
    rcases Json.child?_cases value segment child childAt with ⟨members, rfl, present⟩ |
      ⟨items, index, rfl, named, present⟩
    · rw [sites_from_plain pointer members (plain members rfl)]
      exact (mem_member_sites_iff pointer members site).mpr
        ⟨_, Table.mem_of_get? members segment child present, inside⟩
    · have same := Pointer.eq_index_segment_of_index? segment index named
      rw [sitesFrom]
      refine (mem_item_sites_iff pointer 0 items site).mpr ⟨index, child, present, ?_⟩
      rwa [Nat.zero_add, ← same]

def Outermost (value : Json) (path : Pointer) : Prop :=
  ∀ front segment back, path = front ++ segment :: back →
    ∀ members, value.at? front = some (.obj members) → refOf? members = none

theorem outermost_cons_iff (value : Json) (segment : String) (rest : Pointer) (child : Json)
    (childAt : value.child? segment = some child)
    (plain : ∀ members, value = .obj members → refOf? members = none) :
    Outermost value (segment :: rest) ↔ Outermost child rest := by
  constructor
  · intro outermost front other back split members there
    apply outermost (segment :: front) other back (by rw [split]; rfl) members
    rwa [Json.at?_of_child? value segment child front childAt]
  · intro outermost front other back split members there
    cases front with
    | nil => exact plain members (Option.some.inj there)
    | cons head front =>
      cases split
      rw [Json.at?_of_child? value _ child front childAt] at there
      exact outermost front other back rfl members there

-- The induction is on the path: a marker above ends the search, and else it goes on in one child.
theorem mem_sites_from_iff (pointer path : Pointer) (value : Json) (members : Table Json)
    (ref : String) (wellFormed : value.WellFormed) :
    ⟨pointer ++ path, members, ref⟩ ∈ sitesFrom pointer value ↔
      value.at? path = some (.obj members) ∧ refOf? members = some ref ∧ Outermost value path := by
  induction path generalizing pointer value with
  | nil =>
    rw [List.append_nil]
    constructor
    · intro member
      obtain ⟨marked, rest, eq, there⟩ := located_of_mem_sites_from pointer value _ wellFormed member
      obtain rfl : rest = [] := by simpa using eq
      exact ⟨there, marked, fun front segment back split => by simp at split⟩
    · rintro ⟨there, marked, -⟩
      cases there
      rw [sites_from_marker pointer members ref marked]
      exact List.mem_singleton_self _
  | cons segment rest ih =>
    by_cases here : ∃ inner other, value = .obj inner ∧ refOf? inner = some other
    · obtain ⟨inner, other, rfl, marked⟩ := here
      constructor
      · intro member
        rw [sites_from_marker pointer inner other marked, List.mem_singleton] at member
        simp at member
      · rintro ⟨-, -, outermost⟩
        rw [outermost [] segment rest rfl inner rfl] at marked
        cases marked
    · have plain : ∀ inner, value = .obj inner → refOf? inner = none := fun inner eq =>
        Option.eq_none_iff_forall_ne_some.mpr fun other marked => here ⟨inner, other, eq, marked⟩
      rw [mem_sites_from_iff_child pointer value _ wellFormed plain]
      constructor
      · rintro ⟨other, child, childAt, inside⟩
        have childWellFormed := Json.well_formed_of_child? value other child childAt wellFormed
        obtain ⟨-, tail, eq, -⟩ := located_of_mem_sites_from _ child _ childWellFormed inside
        have same : segment = other := by
          rw [Pointer.append_singleton_append, List.append_cancel_left_eq, List.cons.injEq] at eq
          exact eq.1
        subst same
        rw [← Pointer.append_singleton_append pointer rest segment] at inside
        obtain ⟨there, marked, outermost⟩ := (ih _ child childWellFormed).mp inside
        refine ⟨?_, marked, (outermost_cons_iff value segment rest child childAt plain).mpr outermost⟩
        rwa [Json.at?_of_child? value segment child rest childAt]
      · rintro ⟨there, marked, outermost⟩
        obtain ⟨child, childAt, deeper⟩ := Option.bind_eq_some_iff.mp there
        have childWellFormed := Json.well_formed_of_child? value segment child childAt wellFormed
        refine ⟨segment, child, childAt, ?_⟩
        rw [← Pointer.append_singleton_append pointer rest segment]
        exact (ih _ child childWellFormed).mpr ⟨deeper, marked,
          (outermost_cons_iff value segment rest child childAt plain).mp outermost⟩

theorem mem_sites_iff (document : Json) (site : Site) (wellFormed : document.WellFormed) :
    site ∈ sites document ↔ document.at? site.pointer = some (.obj site.members) ∧
      refOf? site.members = some site.ref ∧ Outermost document site.pointer :=
  mem_sites_from_iff [] site.pointer document site.members site.ref wellFormed

end Envelope.Marker
