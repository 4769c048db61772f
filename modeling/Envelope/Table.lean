set_option autoImplicit false

namespace Envelope

abbrev Table (α : Type) := List (String × α)

namespace Table

variable {α : Type}

def keys (table : Table α) : List String :=
  table.map Prod.fst

def get? : Table α → String → Option α
  | [], _ => none
  | (k, value) :: rest, key => if k = key then some value else get? rest key

def put : Table α → String → α → Table α
  | [], key, value => [(key, value)]
  | (k, old) :: rest, key, value =>
    if k = key then (k, value) :: rest else (k, old) :: put rest key value

def place : Table α → String → α → Table α
  | [], key, value => [(key, value)]
  | (k, old) :: rest, key, value =>
    if k = key then (k, value) :: rest
    else if key < k then (key, value) :: (k, old) :: rest
    else (k, old) :: place rest key value

-- Puts entries one after the other: a key keeps its first place and its last value.
def putAll (table entries : Table α) : Table α :=
  entries.foldl (fun table entry => put table entry.1 entry.2) table

def sorted (entries : Table α) : Table α :=
  entries.foldl (fun table entry => place table entry.1 entry.2) []

def Ascending (table : Table α) : Prop :=
  (keys table).Pairwise (· < ·)

theorem get?_eq_none_iff (table : Table α) (key : String) :
    get? table key = none ↔ key ∉ keys table := by
  induction table with
  | nil => simp [get?, keys]
  | cons entry rest ih =>
    obtain ⟨k, value⟩ := entry
    by_cases same : k = key
    · simp [get?, keys, same]
    · simp only [keys, List.map_cons, List.mem_cons, not_or] at ih ⊢
      simp only [get?, if_neg same, ih, Ne.symm same, not_false_eq_true, true_and]

theorem get?_is_some_iff (table : Table α) (key : String) :
    (get? table key).isSome ↔ key ∈ keys table := by
  rw [Option.isSome_iff_ne_none, ne_eq, get?_eq_none_iff, Decidable.not_not]

theorem get?_put (table : Table α) (key other : String) (value : α) :
    get? (put table key value) other = if key = other then some value else get? table other := by
  induction table with
  | nil => simp [put, get?]
  | cons entry rest ih =>
    obtain ⟨k, old⟩ := entry
    by_cases same : k = key
    · subst same
      by_cases found : k = other <;> simp [put, get?, found]
    · by_cases found : k = other
      · subst found
        simp [put, get?, same, Ne.symm same]
      · simp [put, get?, same, found, ih]

theorem get?_place (table : Table α) (key other : String) (value : α) :
    get? (place table key value) other = if key = other then some value else get? table other := by
  induction table with
  | nil => simp [place, get?]
  | cons entry rest ih =>
    obtain ⟨k, old⟩ := entry
    by_cases same : k = key
    · subst same
      by_cases found : k = other <;> simp [place, get?, found]
    · by_cases before : key < k
      · by_cases found : k = other
        · subst found
          simp [place, get?, same, Ne.symm same, before]
        · simp [place, get?, same, found, before]
      · by_cases found : k = other
        · subst found
          simp [place, get?, same, Ne.symm same, before]
        · simp [place, get?, same, found, before, ih]

theorem mem_keys_place (table : Table α) (key other : String) (value : α) :
    other ∈ keys (place table key value) ↔ other = key ∨ other ∈ keys table := by
  rw [← get?_is_some_iff, ← get?_is_some_iff, get?_place]
  by_cases same : key = other
  · simp [same]
  · simp [same, Ne.symm same]

theorem ascending_place (table : Table α) (key : String) (value : α) (h : Ascending table) :
    Ascending (place table key value) := by
  induction table with
  | nil => simp [place, Ascending, keys]
  | cons entry rest ih =>
    obtain ⟨k, old⟩ := entry
    obtain ⟨above, restAscending⟩ := List.pairwise_cons.mp h
    by_cases same : k = key
    · subst same
      simpa [place, Ascending, keys] using h
    · by_cases before : key < k
      · simp only [place, if_neg same, if_pos before]
        refine List.pairwise_cons.mpr ⟨fun other member => ?_, h⟩
        rcases List.mem_cons.mp member with eq | inRest
        · exact eq ▸ before
        · exact String.lt_trans before (above other inRest)
      · simp only [place, if_neg same, if_neg before]
        refine List.pairwise_cons.mpr ⟨fun other member => ?_, ih restAscending⟩
        rcases (mem_keys_place rest key other value).mp member with eq | inRest
        · subst eq
          refine Decidable.byContradiction fun notAfter => same ?_
          exact String.le_antisymm (String.not_lt.mp before) (String.not_lt.mp notAfter)
        · exact above other inRest

theorem ascending_foldl_place (entries table : Table α) (h : Ascending table) :
    Ascending (entries.foldl (fun table entry => place table entry.1 entry.2) table) := by
  induction entries generalizing table with
  | nil => exact h
  | cons entry rest ih => exact ih _ (ascending_place table entry.1 entry.2 h)

theorem ascending_sorted (entries : Table α) : Ascending (sorted entries) :=
  ascending_foldl_place entries [] List.Pairwise.nil

end Table

end Envelope
