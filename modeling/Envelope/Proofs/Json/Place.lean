import Envelope.Json.Pointer
import Envelope.Proofs.Json.Numbers
import Envelope.Proofs.Json.Tree

set_option autoImplicit false

namespace Envelope

namespace Pointer

theorem index?_index_segment (index : Nat) : index? (indexSegment index) = some index := by
  have digits : ∀ c ∈ Nat.toDigits 10 index, c.isDigit = true := fun c member =>
    Nat.isDigit_of_mem_toDigits (by decide) (by decide) member
  have noZero : ¬ ((Nat.toDigits 10 index).length > 1 ∧
      (Nat.toDigits 10 index).head? = some '0') := by
    rintro ⟨long, zero⟩
    by_cases positive : index = 0
    · simp [positive] at long
    · exact Json.Numeral.head_to_digits index positive zero
  have someDigit : (Nat.toDigits 10 index).isEmpty = false := by
    simp [List.isEmpty_eq_false_iff, Nat.toDigits_ne_nil]
  have noSign : (Nat.toDigits 10 index).any (fun c => !c.isDigit) = false := by
    simpa using digits
  simp only [index?, indexSegment, String.toList_ofList, someDigit, noSign, Bool.false_eq_true,
    false_or, if_neg noZero, Nat.ofDigitChars_ten_toDigits]

theorem index_segment_injective (i j : Nat) (same : indexSegment i = indexSegment j) : i = j := by
  have eq := congrArg index? same
  simpa only [index?_index_segment, Option.some.injEq] using eq

theorem to_digits_of_is_digit (c : Char) (digit : c.isDigit = true) :
    Nat.toDigits 10 (c.toNat - '0'.toNat) = [c] := by
  have every : ∀ d : Fin 10, (Nat.digitChar d).toNat = d + 48 := by decide
  have low : 48 ≤ c.toNat ∧ c.toNat ≤ 57 := by
    simpa [Char.isDigit, UInt32.le_iff_toNat_le] using digit
  have small : c.toNat - 48 < 10 := by omega
  have same := every ⟨c.toNat - 48, small⟩
  change Nat.toDigits 10 (c.toNat - 48) = [c]
  rw [Nat.toDigits_of_lt_base small]
  refine congrArg (fun d => [d]) (Char.toNat_inj.mp ?_)
  rw [same]
  exact Nat.sub_add_cancel low.1

theorem to_digits_of_digit_chars (digits : List Char) (n : Nat) (positive : 0 < n)
    (every : ∀ c ∈ digits, c.isDigit = true) :
    Nat.toDigits 10 (Nat.ofDigitChars 10 digits n) = Nat.toDigits 10 n ++ digits := by
  induction digits generalizing n with
  | nil => simp
  | cons c rest ih =>
    have digit := every c List.mem_cons_self
    have small : c.toNat - '0'.toNat < 10 := by
      have low : 48 ≤ c.toNat ∧ c.toNat ≤ 57 := by
        simpa [Char.isDigit, UInt32.le_iff_toNat_le] using digit
      change c.toNat - 48 < 10
      omega
    rw [Nat.ofDigitChars_cons, ih _ (by omega) fun d member => every d (List.mem_cons_of_mem _ member),
      ← Nat.toDigits_append_toDigits (by decide) positive small, to_digits_of_is_digit c digit,
      List.append_assoc, List.singleton_append]

theorem eq_index_segment_of_index? (segment : String) (index : Nat)
    (named : index? segment = some index) : segment = indexSegment index := by
  simp only [index?] at named
  split at named
  · cases named
  · rename_i plain
    simp only [not_or, not_and, List.isEmpty_iff, Option.some.injEq] at plain named
    obtain ⟨someDigit, noSign, noZero⟩ := plain
    have every : ∀ c ∈ segment.toList, c.isDigit = true := by simpa using noSign
    have digits : Nat.toDigits 10 index = segment.toList := by
      rw [← named]
      cases text : segment.toList with
      | nil => exact absurd text someDigit
      | cons c rest =>
        rw [text] at every noZero
        have first := to_digits_of_is_digit c (every c List.mem_cons_self)
        rw [Nat.ofDigitChars_cons, Nat.mul_zero, Nat.zero_add]
        by_cases zero : c = '0'
        · have alone : rest = [] := by
            cases rest with
            | nil => rfl
            | cons d tail => exact absurd (congrArg some zero) (noZero (by simp))
          rw [alone, Nat.ofDigitChars_nil, first]
        · have positive : 0 < c.toNat - '0'.toNat := by
            refine Nat.pos_of_ne_zero fun none => zero ?_
            rw [none, Nat.toDigits_zero, List.cons.injEq] at first
            exact first.1.symm
          rw [to_digits_of_digit_chars rest _ positive fun d member =>
            every d (List.mem_cons_of_mem _ member), first, List.singleton_append]
    rw [indexSegment, digits, String.ofList_toList]

theorem append_singleton_append (pointer rest : Pointer) (segment : String) :
    pointer ++ [segment] ++ rest = pointer ++ segment :: rest := by
  simp

def Apart (a b : Pointer) : Prop :=
  ¬ a <+: b ∧ ¬ b <+: a

theorem apart_of_segments (pointer left right : Pointer) (one other : String)
    (different : one ≠ other) : Apart (pointer ++ one :: left) (pointer ++ other :: right) := by
  refine ⟨fun within => different ?_, fun within => different ?_⟩
  · exact (List.cons_prefix_cons.mp ((List.prefix_append_right_inj pointer).mp within)).1
  · exact (List.cons_prefix_cons.mp ((List.prefix_append_right_inj pointer).mp within)).1.symm

def Below (pointer : Pointer) (segments : String → Prop) (place : Pointer) : Prop :=
  ∃ segment, segments segment ∧ ∃ tail, place = pointer ++ segment :: tail

def IndexFrom (start : Nat) (segment : String) : Prop :=
  ∃ index, start ≤ index ∧ segment = indexSegment index

theorem below_of_prefix (pointer place rest : Pointer) (segment : String)
    (eq : place = pointer ++ [segment] ++ rest) : Below pointer (· = segment) place :=
  ⟨segment, rfl, rest, by rw [eq, append_singleton_append]⟩

theorem not_below_self (pointer : Pointer) (segments : String → Prop) :
    ¬ Below pointer segments pointer := by
  rintro ⟨segment, -, tail, eq⟩
  simp at eq

theorem segment_of_below (pointer tail : Pointer) (segments : String → Prop) (segment : String)
    (below : Below pointer segments (pointer ++ segment :: tail)) : segments segment := by
  obtain ⟨other, allowed, rest, eq⟩ := below
  rw [List.append_cancel_left_eq, List.cons.injEq] at eq
  exact eq.1 ▸ allowed

end Pointer

namespace Json

theorem child?_cases (value : Json) (segment : String) (child : Json)
    (found : value.child? segment = some child) :
    (∃ members, value = .obj members ∧ Table.get? members segment = some child) ∨
      ∃ items index, value = .arr items ∧ Pointer.index? segment = some index ∧
        items[index]? = some child := by
  cases value with
  | null | bool | num | str => cases found
  | obj members => exact .inl ⟨members, rfl, found⟩
  | arr items =>
    obtain ⟨index, named, present⟩ := Option.bind_eq_some_iff.mp found
    exact .inr ⟨items, index, rfl, named, present⟩

theorem at?_of_child? (value : Json) (segment : String) (child : Json) (rest : Pointer)
    (childAt : value.child? segment = some child) : value.at? (segment :: rest) = child.at? rest := by
  rw [at?, childAt, Option.bind_some]

theorem at?_member (document : Json) (pointer : Pointer) (members : Table Json) (key : String)
    (value : Json) (there : document.at? pointer = some (.obj members))
    (present : Table.get? members key = some value) :
    document.at? (pointer ++ [key]) = some value := by
  rw [at?_append, there, Option.bind_some, at?, child?, present]
  rfl

theorem at?_inherits (motive : Json → Prop)
    (inherits : ∀ value segment child, value.child? segment = some child → motive value →
      motive child)
    (value : Json) (pointer : Pointer) (found : Json) (there : value.at? pointer = some found)
    (whole : motive value) : motive found := by
  induction pointer generalizing value with
  | nil =>
    cases there
    exact whole
  | cons segment rest ih =>
    obtain ⟨child, childAt, deeper⟩ := Option.bind_eq_some_iff.mp there
    exact ih child deeper (inherits value segment child childAt whole)

theorem well_formed_of_child? (value : Json) (segment : String) (child : Json)
    (childAt : value.child? segment = some child) (wellFormed : value.WellFormed) :
    child.WellFormed := by
  rcases child?_cases value segment child childAt with ⟨members, rfl, present⟩ |
    ⟨items, index, rfl, -, present⟩
  · exact (members_well_formed_iff members).mp wellFormed.2 _ (Table.mem_of_get? members _ _ present)
  · exact (items_well_formed_iff items).mp wellFormed child (List.mem_of_getElem? present)

theorem well_formed_of_at? (value : Json) (pointer : Pointer) (found : Json)
    (there : value.at? pointer = some found) (wellFormed : value.WellFormed) :
    found.WellFormed :=
  at?_inherits WellFormed well_formed_of_child? value pointer found there wellFormed

theorem depth_lt_of_child? (value : Json) (segment : String) (child : Json)
    (childAt : value.child? segment = some child) : child.depth < value.depth := by
  rcases child?_cases value segment child childAt with ⟨members, rfl, present⟩ |
    ⟨items, index, rfl, -, present⟩
  · have below := (members_depth_le_iff members _).mp (Nat.le_refl _) _
      (Table.mem_of_get? members _ _ present)
    exact Nat.lt_succ_of_le below
  · have below := (items_depth_le_iff items _).mp (Nat.le_refl _) child
      (List.mem_of_getElem? present)
    exact Nat.lt_succ_of_le below

theorem length_add_depth_le (value : Json) (pointer : Pointer) (found : Json)
    (there : value.at? pointer = some found) : pointer.length + found.depth ≤ value.depth := by
  induction pointer generalizing value with
  | nil =>
    cases there
    exact Nat.le_of_eq (Nat.zero_add _)
  | cons segment rest ih =>
    obtain ⟨child, childAt, deeper⟩ := Option.bind_eq_some_iff.mp there
    have below := depth_lt_of_child? value segment child childAt
    have within := ih child deeper
    rw [List.length_cons]
    omega

theorem depth_le_of_at? (value : Json) (pointer : Pointer) (found : Json)
    (there : value.at? pointer = some found) (n : Nat) (shallow : value.depth ≤ n) :
    found.depth ≤ n := by
  have within := length_add_depth_le value pointer found there
  omega

theorem child?_index_segment (items : List Json) (index : Nat) (item : Json)
    (present : items[index]? = some item) :
    (arr items).child? (Pointer.indexSegment index) = some item := by
  rw [child?, Pointer.index?_index_segment, Option.bind_some, present]

theorem child?_of_mem_items (items : List Json) (item : Json) (member : item ∈ items) :
    ∃ segment, (arr items).child? segment = some item := by
  obtain ⟨index, present⟩ := List.getElem?_of_mem member
  exact ⟨Pointer.indexSegment index, child?_index_segment items index item present⟩

theorem child?_of_mem_members (members : Table Json) (differ : (Table.keys members).Nodup)
    (member : String × Json) (present : member ∈ members) :
    (obj members).child? member.1 = some member.2 :=
  Table.get?_of_mem members member.1 member.2 differ present

theorem exists_deepest_child (value : Json) (wellFormed : value.WellFormed) (n : Nat)
    (deep : value.depth = n + 2) :
    ∃ segment child, value.child? segment = some child ∧ child.depth = n + 1 := by
  refine Classical.byContradiction fun none => ?_
  have shallow : ∀ segment child, value.child? segment = some child → child.depth ≤ n := by
    intro segment child childAt
    have below := depth_lt_of_child? value segment child childAt
    have other : child.depth ≠ n + 1 := fun same => none ⟨segment, child, childAt, same⟩
    omega
  cases value with
  | null | bool | num | str => cases deep
  | arr items =>
    have every := (items_depth_le_iff items n).mpr fun item member => by
      obtain ⟨segment, childAt⟩ := child?_of_mem_items items item member
      exact shallow segment item childAt
    rw [depth] at deep
    omega
  | obj members =>
    have every := (members_depth_le_iff members n).mpr fun member present =>
      shallow member.1 member.2 (child?_of_mem_members members wellFormed.1 member present)
    rw [depth] at deep
    omega

theorem exists_deepest (value : Json) (wellFormed : value.WellFormed) (n : Nat)
    (deep : value.depth = n + 1) :
    ∃ pointer found, value.at? pointer = some found ∧ pointer.length = n ∧ 0 < found.depth := by
  induction n generalizing value with
  | zero => exact ⟨[], value, rfl, rfl, by omega⟩
  | succ n ih =>
    obtain ⟨segment, child, childAt, childDeep⟩ := exists_deepest_child value wellFormed n deep
    obtain ⟨pointer, found, there, length, container⟩ :=
      ih child (well_formed_of_child? value segment child childAt wellFormed) childDeep
    rw [← at?_of_child? value segment child pointer childAt] at there
    exact ⟨segment :: pointer, found, there, by rw [List.length_cons, length], container⟩

theorem mem_numbers_of_at? (value : Json) (pointer : Pointer) (found : Json)
    (there : value.at? pointer = some found) (n : Number) (member : n ∈ numbers found) :
    n ∈ numbers value := by
  refine at?_inherits (fun inner => ∀ n ∈ numbers inner, n ∈ numbers value)
    (fun parent segment child childAt whole n inChild => whole n ?_) value pointer found there
    (fun _ here => here) n member
  rcases child?_cases parent segment child childAt with ⟨members, rfl, present⟩ |
    ⟨items, index, rfl, -, present⟩
  · rw [numbers, mem_members_numbers_iff]
    exact ⟨_, Table.mem_of_get? members _ _ present, inChild⟩
  · rw [numbers, mem_items_numbers_iff]
    exact ⟨child, List.mem_of_getElem? present, inChild⟩

theorem exists_number_at (value : Json) (wellFormed : value.WellFormed) (n : Number)
    (member : n ∈ numbers value) : ∃ pointer, value.at? pointer = some (.num n) := by
  induction value with
  | null | bool | str => cases member
  | num other =>
    obtain rfl := List.mem_singleton.mp member
    exact ⟨[], rfl⟩
  | arr items ih =>
    obtain ⟨item, present, inside⟩ := (mem_items_numbers_iff items n).mp member
    obtain ⟨pointer, there⟩ := ih item present ((items_well_formed_iff items).mp wellFormed item present)
      inside
    obtain ⟨segment, childAt⟩ := child?_of_mem_items items item present
    exact ⟨segment :: pointer, (at?_of_child? _ segment item pointer childAt).trans there⟩
  | obj members ih =>
    obtain ⟨entry, present, inside⟩ := (mem_members_numbers_iff members n).mp member
    obtain ⟨pointer, there⟩ := ih entry present
      ((members_well_formed_iff members).mp wellFormed.2 entry present) inside
    have childAt := child?_of_mem_members members wellFormed.1 entry present
    exact ⟨entry.1 :: pointer, (at?_of_child? _ entry.1 entry.2 pointer childAt).trans there⟩

end Json

end Envelope
