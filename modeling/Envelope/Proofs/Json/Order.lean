import Envelope.Proofs.Json.Tree

set_option autoImplicit false

namespace Envelope.Json

mutual
-- Equal but for the order of the members of objects, at every level. Numbers are equal if they are the
-- same integer, or the same float with the same sign.
def EqualUnordered : Json → Json → Prop
  | .arr items, .arr others => ItemsEqualUnordered items others
  | .obj members, .obj others =>
    (Table.keys members).Perm (Table.keys others) ∧ MembersEqualUnordered members others
  | one, other => one = other
def ItemsEqualUnordered : List Json → List Json → Prop
  | [], [] => True
  | item :: rest, other :: others => EqualUnordered item other ∧ ItemsEqualUnordered rest others
  | _, _ => False
def MembersEqualUnordered : List (String × Json) → Table Json → Prop
  | [], _ => True
  | (key, value) :: rest, others =>
    (∃ other, Table.get? others key = some other ∧ EqualUnordered value other) ∧
      MembersEqualUnordered rest others
end

mutual
def Ordered : Json → Prop
  | .arr items => ItemsOrdered items
  | .obj members => Table.Ascending members ∧ MembersOrdered members
  | _ => True
def ItemsOrdered : List Json → Prop
  | [] => True
  | item :: rest => Ordered item ∧ ItemsOrdered rest
def MembersOrdered : List (String × Json) → Prop
  | [] => True
  | (_, value) :: rest => Ordered value ∧ MembersOrdered rest
end

theorem items_ordered_iff (items : List Json) : ItemsOrdered items ↔ ∀ item ∈ items, Ordered item := by
  induction items with
  | nil => simp [ItemsOrdered]
  | cons item rest ih => simp only [ItemsOrdered, ih, List.forall_mem_cons]

theorem members_ordered_iff (members : Table Json) :
    MembersOrdered members ↔ ∀ member ∈ members, Ordered member.2 := by
  induction members with
  | nil => simp [MembersOrdered]
  | cons member rest ih => simp only [MembersOrdered, ih, List.forall_mem_cons]

theorem members_equal_unordered_iff (members others : Table Json) :
    MembersEqualUnordered members others ↔ ∀ member ∈ members, ∃ other,
      Table.get? others member.1 = some other ∧ EqualUnordered member.2 other := by
  induction members with
  | nil => simp [MembersEqualUnordered]
  | cons member rest ih => simp only [MembersEqualUnordered, ih, List.forall_mem_cons]

theorem items_equal_unordered_iff (items others : List Json)
    (each : ∀ item ∈ items, ∀ other ∈ others,
      EqualUnordered item other ↔ sortKeys item = sortKeys other) :
    ItemsEqualUnordered items others ↔ sortItems items = sortItems others := by
  induction items generalizing others with
  | nil => cases others <;> simp [ItemsEqualUnordered, sortItems]
  | cons item rest ih =>
    cases others with
    | nil => simp [ItemsEqualUnordered, sortItems]
    | cons other others =>
      have here := each item List.mem_cons_self other List.mem_cons_self
      have later := ih others fun next member another present =>
        each next (List.mem_cons_of_mem _ member) another (List.mem_cons_of_mem _ present)
      simp only [ItemsEqualUnordered, sortItems, List.cons.injEq, here, later]

theorem sorted_sort_members_eq_iff (members others : Table Json) (differ : (Table.keys members).Nodup)
    (otherDiffer : (Table.keys others).Nodup) :
    Table.sorted (sortMembers members) = Table.sorted (sortMembers others) ↔
      ∀ key, (Table.get? members key).map sortKeys = (Table.get? others key).map sortKeys := by
  rw [Table.sorted_eq_iff _ _ (by rwa [keys_sort_members]) (by rwa [keys_sort_members])]
  simp only [sort_members_eq_map, Table.get?_map]

theorem keys_perm_of_get? (members others : Table Json) (differ : (Table.keys members).Nodup)
    (otherDiffer : (Table.keys others).Nodup)
    (same : ∀ key, (Table.get? members key).map sortKeys = (Table.get? others key).map sortKeys) :
    (Table.keys members).Perm (Table.keys others) := by
  apply (List.perm_ext_iff_of_nodup differ otherDiffer).mpr
  intro key
  have present := congrArg Option.isSome (same key)
  simp only [Option.isSome_map] at present
  rw [← Table.get?_is_some_iff, ← Table.get?_is_some_iff, present]

theorem objects_equal_unordered_iff (members others : Table Json)
    (differ : (Table.keys members).Nodup) (otherDiffer : (Table.keys others).Nodup)
    (each : ∀ member ∈ members, ∀ other ∈ others,
      EqualUnordered member.2 other.2 ↔ sortKeys member.2 = sortKeys other.2) :
    EqualUnordered (.obj members) (.obj others) ↔
      ∀ key, (Table.get? members key).map sortKeys = (Table.get? others key).map sortKeys := by
  simp only [EqualUnordered, members_equal_unordered_iff]
  constructor
  · rintro ⟨reordered, inner⟩ key
    cases found : Table.get? members key with
    | none =>
      have absent := (Table.get?_eq_none_iff members key).mp found
      rw [(Table.get?_eq_none_iff others key).mpr fun present => absent (reordered.mem_iff.mpr present)]
    | some value =>
      have member := Table.mem_of_get? members key value found
      obtain ⟨other, there, equal⟩ := inner (key, value) member
      have present := Table.mem_of_get? others key other there
      rw [there, Option.map_some, Option.map_some, (each _ member (key, other) present).mp equal]
  · intro same
    refine ⟨keys_perm_of_get? members others differ otherDiffer same, fun member present => ?_⟩
    have here := same member.1
    rw [Table.get?_of_mem members member.1 member.2 differ present, Option.map_some] at here
    obtain ⟨other, there, equal⟩ := Option.map_eq_some_iff.mp here.symm
    exact ⟨other, there,
      (each member present _ (Table.mem_of_get? others member.1 other there)).mpr equal.symm⟩

/-- Values are equal but for the order of members exactly if sorting their keys makes them equal. -/
theorem equal_unordered_iff (value other : Json) (wellFormed : WellFormed value)
    (otherWellFormed : WellFormed other) :
    EqualUnordered value other ↔ sortKeys value = sortKeys other := by
  -- Only one side is recursed on: the value under a key is found in the other, wherever it stands.
  induction value generalizing other with
  | null | bool | num | str => cases other <;> simp [EqualUnordered, sortKeys]
  | arr items ih =>
    cases other with
    | arr others =>
      have inner := (items_well_formed_iff items).mp wellFormed
      have otherInner := (items_well_formed_iff others).mp otherWellFormed
      simp only [EqualUnordered, sortKeys, Json.arr.injEq]
      exact items_equal_unordered_iff items others fun item member other present =>
        ih item member other (inner item member) (otherInner other present)
    | null | bool | num | str | obj => simp [EqualUnordered, sortKeys]
  | obj members ih =>
    cases other with
    | obj others =>
      have inner := (members_well_formed_iff members).mp wellFormed.2
      have otherInner := (members_well_formed_iff others).mp otherWellFormed.2
      simp only [sortKeys, Json.obj.injEq]
      rw [sorted_sort_members_eq_iff members others wellFormed.1 otherWellFormed.1]
      exact objects_equal_unordered_iff members others wellFormed.1 otherWellFormed.1
        fun member present other there =>
          ih member present other.2 (inner member present) (otherInner other there)
    | null | bool | num | str | arr => simp [EqualUnordered, sortKeys]

theorem same_content_iff (value other : Json) (wellFormed : WellFormed value)
    (otherWellFormed : WellFormed other) :
    sameContent value other = true ↔ EqualUnordered value other := by
  rw [sameContent, decide_eq_true_eq, equal_unordered_iff value other wellFormed otherWellFormed]

theorem well_formed_of_ordered (value : Json) (ordered : Ordered value) : WellFormed value := by
  induction value with
  | null | bool | num | str => trivial
  | arr items ih =>
    have inner := (items_ordered_iff items).mp ordered
    exact (items_well_formed_iff items).mpr fun item member => ih item member (inner item member)
  | obj members ih =>
    have inner := (members_ordered_iff members).mp ordered.2
    exact ⟨Table.nodup_of_ascending members ordered.1, (members_well_formed_iff members).mpr
      fun member present => ih member present (inner member present)⟩

theorem ordered_sort_keys (value : Json) (wellFormed : WellFormed value) :
    Ordered (sortKeys value) := by
  induction value with
  | null | bool | num | str => trivial
  | arr items ih =>
    have inner := (items_well_formed_iff items).mp wellFormed
    simp only [sortKeys, Ordered, items_ordered_iff, sort_items_eq_map, List.forall_mem_map]
    exact fun item member => ih item member (inner item member)
  | obj members ih =>
    obtain ⟨differ, inner⟩ := wellFormed
    rw [members_well_formed_iff] at inner
    refine ⟨Table.ascending_sorted _, (members_ordered_iff _).mpr fun member present => ?_⟩
    obtain ⟨old, oldPresent, rfl⟩ := (mem_sorted_iff members differ member).mp present
    exact ih old oldPresent (inner old oldPresent)

theorem sort_keys_of_ordered (value : Json) (ordered : Ordered value) : sortKeys value = value := by
  induction value with
  | null | bool | num | str => rfl
  | arr items ih =>
    have inner := (items_ordered_iff items).mp ordered
    rw [sortKeys, sort_items_eq_map, List.map_congr_left fun item member => ih item member
      (inner item member), List.map_id']
  | obj members ih =>
    have inner := (members_ordered_iff members).mp ordered.2
    have same : (members.map fun member => (member.1, sortKeys member.2)) = members := by
      rw [List.map_congr_left fun member present => congrArg (Prod.mk member.1)
        (ih member present (inner member present)), List.map_id']
    rw [sortKeys, sort_members_eq_map, same, Table.sorted_of_ascending members ordered.1]

/-- Sorting the keys of a value gives the one ordered value that differs from it in nothing else. -/
theorem eq_sort_keys_iff (value other : Json) (wellFormed : WellFormed value) :
    other = sortKeys value ↔ EqualUnordered value other ∧ Ordered other := by
  constructor
  · rintro rfl
    exact ⟨(equal_unordered_iff value _ wellFormed (well_formed_sort_keys value wellFormed)).mpr
      (sort_keys_sort_keys value).symm, ordered_sort_keys value wellFormed⟩
  · rintro ⟨equal, ordered⟩
    have same := (equal_unordered_iff value other wellFormed (well_formed_of_ordered other ordered)).mp
      equal
    rw [same, sort_keys_of_ordered other ordered]

end Envelope.Json
