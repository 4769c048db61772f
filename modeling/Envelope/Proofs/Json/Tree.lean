import Envelope.Json.Printer
import Envelope.Proofs.Table

set_option autoImplicit false

namespace Envelope.Json

-- The items of an array and the values of an object are smaller than it.
@[elab_as_elim, induction_eliminator]
theorem induct {motive : Json → Prop} (null : motive .null) (bool : ∀ b, motive (.bool b))
    (num : ∀ n, motive (.num n)) (str : ∀ s, motive (.str s))
    (arr : ∀ items, (∀ item ∈ items, motive item) → motive (.arr items))
    (obj : ∀ members, (∀ member ∈ members, motive member.2) → motive (.obj members)) :
    (value : Json) → motive value
  | .null => null
  | .bool b => bool b
  | .num n => num n
  | .str s => str s
  | .arr items => arr items fun item _member => induct null bool num str arr obj item
  | .obj members => obj members fun member _member => induct null bool num str arr obj member.2
termination_by value => sizeOf value
decreasing_by
  · have smaller := List.sizeOf_lt_of_mem _member
    simp only [Json.arr.sizeOf_spec]
    omega
  · have smaller := List.sizeOf_lt_of_mem _member
    obtain ⟨key, value⟩ := member
    simp only [Json.obj.sizeOf_spec, Prod.mk.sizeOf_spec] at smaller ⊢
    omega

theorem items_well_formed_iff (items : List Json) :
    ItemsWellFormed items ↔ ∀ item ∈ items, WellFormed item := by
  induction items with
  | nil => simp [ItemsWellFormed]
  | cons item rest ih => simp [ItemsWellFormed, ih]

theorem members_well_formed_iff (members : Table Json) :
    MembersWellFormed members ↔ ∀ member ∈ members, WellFormed member.2 := by
  induction members with
  | nil => simp [MembersWellFormed]
  | cons member rest ih => simp only [MembersWellFormed, ih, List.forall_mem_cons]

theorem items_depth_le_iff (items : List Json) (n : Nat) :
    itemsDepth items ≤ n ↔ ∀ item ∈ items, depth item ≤ n := by
  induction items with
  | nil => simp [itemsDepth]
  | cons item rest ih => simp only [itemsDepth, Nat.max_le, ih, List.forall_mem_cons]

theorem members_depth_le_iff (members : Table Json) (n : Nat) :
    membersDepth members ≤ n ↔ ∀ member ∈ members, depth member.2 ≤ n := by
  induction members with
  | nil => simp [membersDepth]
  | cons member rest ih => simp only [membersDepth, Nat.max_le, ih, List.forall_mem_cons]

mutual
def numbers : Json → List Number
  | .num n => [n]
  | .arr items => itemsNumbers items
  | .obj members => membersNumbers members
  | _ => []
def itemsNumbers : List Json → List Number
  | [] => []
  | item :: rest => numbers item ++ itemsNumbers rest
def membersNumbers : List (String × Json) → List Number
  | [] => []
  | (_, value) :: rest => numbers value ++ membersNumbers rest
end

theorem mem_items_numbers_iff (items : List Json) (n : Number) :
    n ∈ itemsNumbers items ↔ ∃ item ∈ items, n ∈ numbers item := by
  induction items with
  | nil => simp [itemsNumbers]
  | cons item rest ih => simp [itemsNumbers, ih]

theorem mem_members_numbers_iff (members : Table Json) (n : Number) :
    n ∈ membersNumbers members ↔ ∃ member ∈ members, n ∈ numbers member.2 := by
  induction members with
  | nil => simp [membersNumbers]
  | cons member rest ih => simp [membersNumbers, ih, -Prod.exists]

theorem sort_items_eq_map (items : List Json) : sortItems items = items.map sortKeys := by
  induction items with
  | nil => rfl
  | cons item rest ih => simp only [sortItems, ih, List.map_cons]

theorem sort_members_eq_map (members : Table Json) :
    sortMembers members = members.map fun member => (member.1, sortKeys member.2) := by
  induction members with
  | nil => rfl
  | cons member rest ih => simp only [sortMembers, ih, List.map_cons]

theorem keys_sort_members (members : Table Json) :
    Table.keys (sortMembers members) = Table.keys members := by
  simp [sort_members_eq_map, Table.keys]

theorem mem_sorted_iff (members : Table Json) (differ : (Table.keys members).Nodup)
    (member : String × Json) :
    member ∈ Table.sorted (sortMembers members) ↔
      ∃ old ∈ members, (old.1, sortKeys old.2) = member := by
  have perm := Table.sorted_perm (sortMembers members) (by rwa [keys_sort_members])
  rw [perm.mem_iff, sort_members_eq_map, List.mem_map]

theorem get?_sorted (members : Table Json) (differ : (Table.keys members).Nodup) (key : String) :
    Table.get? (Table.sorted (sortMembers members)) key = (Table.get? members key).map sortKeys := by
  rw [sort_members_eq_map, Table.sorted_map, Table.get?_map, Table.get?_sorted members differ]

theorem text?_sort_keys (value : Json) : (sortKeys value).text? = value.text? := by
  cases value <;> rfl

theorem well_formed_sort_keys (value : Json) (wellFormed : WellFormed value) :
    WellFormed (sortKeys value) := by
  induction value with
  | null | bool | num | str => trivial
  | arr items ih =>
    simp only [sortKeys, WellFormed, items_well_formed_iff, sort_items_eq_map] at wellFormed ⊢
    intro item member
    obtain ⟨old, present, rfl⟩ := List.mem_map.mp member
    exact ih old present (wellFormed old present)
  | obj members ih =>
    obtain ⟨differ, inner⟩ := wellFormed
    refine ⟨Table.nodup_of_ascending _ (Table.ascending_sorted _), ?_⟩
    rw [members_well_formed_iff] at inner ⊢
    intro member present
    obtain ⟨old, oldPresent, rfl⟩ := (mem_sorted_iff members differ member).mp present
    exact ih old oldPresent (inner old oldPresent)

theorem depth_sort_keys_le_iff (value : Json) (wellFormed : WellFormed value) (levels : Nat) :
    depth (sortKeys value) ≤ levels ↔ depth value ≤ levels := by
  induction value generalizing levels with
  | null | bool | num | str => exact Iff.rfl
  | arr items ih =>
    have inner := (items_well_formed_iff items).mp wellFormed
    cases levels with
    | zero => exact iff_of_false (Nat.not_succ_le_zero _) (Nat.not_succ_le_zero _)
    | succ levels =>
      simp only [sortKeys, depth, Nat.add_le_add_iff_right, sort_items_eq_map, items_depth_le_iff,
        List.forall_mem_map]
      exact forall₂_congr fun item member => ih item member (inner item member) levels
  | obj members ih =>
    obtain ⟨differ, inner⟩ := wellFormed
    rw [members_well_formed_iff] at inner
    cases levels with
    | zero => exact iff_of_false (Nat.not_succ_le_zero _) (Nat.not_succ_le_zero _)
    | succ levels =>
      simp only [sortKeys, depth, Nat.add_le_add_iff_right, members_depth_le_iff,
        mem_sorted_iff members differ, forall_exists_index, and_imp, forall_apply_eq_imp_iff₂]
      exact forall₂_congr fun member present => ih member present (inner member present) levels

theorem mem_numbers_sort_keys (value : Json) (wellFormed : WellFormed value) (n : Number)
    (member : n ∈ numbers (sortKeys value)) : n ∈ numbers value := by
  induction value with
  | null | bool | num | str => exact member
  | arr items ih =>
    have inner := (items_well_formed_iff items).mp wellFormed
    simp only [sortKeys, numbers, sort_items_eq_map, mem_items_numbers_iff] at member ⊢
    obtain ⟨item, sorted, inItem⟩ := member
    obtain ⟨old, present, rfl⟩ := List.mem_map.mp sorted
    exact ⟨old, present, ih old present (inner old present) inItem⟩
  | obj members ih =>
    obtain ⟨differ, inner⟩ := wellFormed
    rw [members_well_formed_iff] at inner
    simp only [sortKeys, numbers, mem_members_numbers_iff] at member ⊢
    obtain ⟨entry, sorted, inEntry⟩ := member
    obtain ⟨old, present, rfl⟩ := (mem_sorted_iff members differ entry).mp sorted
    exact ⟨old, present, ih old present (inner old present) inEntry⟩

theorem sort_keys_sort_keys (value : Json) : sortKeys (sortKeys value) = sortKeys value := by
  induction value with
  | null | bool | num | str => rfl
  | arr items ih =>
    simp only [sortKeys, sort_items_eq_map, List.map_map, Json.arr.injEq]
    exact List.map_congr_left fun item member => ih item member
  | obj members ih =>
    have again : (sortMembers members).map (fun member => (member.1, sortKeys member.2)) =
        sortMembers members := by
      simp only [sort_members_eq_map, List.map_map]
      exact List.map_congr_left fun member present => congrArg (Prod.mk member.1) (ih member present)
    have ascending := Table.ascending_sorted (sortMembers members)
    simp only [sortKeys, Json.obj.injEq]
    rw [sort_members_eq_map (Table.sorted _), ← Table.sorted_map, again,
      Table.sorted_of_ascending _ ascending]

end Envelope.Json
