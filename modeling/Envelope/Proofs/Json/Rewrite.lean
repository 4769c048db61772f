import Envelope.Proofs.Json.Place

set_option autoImplicit false

namespace Envelope

namespace Json

abbrev Replacement := Pointer → Json → Option Json

mutual
def rewriteFrom (replacement : Replacement) : Pointer → Json → Json
  | pointer, .arr items =>
    (replacement pointer (.arr items)).getD (.arr (rewriteItems replacement pointer 0 items))
  | pointer, .obj members =>
    (replacement pointer (.obj members)).getD (.obj (rewriteMembers replacement pointer members))
  | pointer, value => (replacement pointer value).getD value
def rewriteItems (replacement : Replacement) : Pointer → Nat → List Json → List Json
  | _, _, [] => []
  | pointer, index, item :: rest =>
    rewriteFrom replacement (pointer ++ [Pointer.indexSegment index]) item ::
      rewriteItems replacement pointer (index + 1) rest
def rewriteMembers (replacement : Replacement) :
    Pointer → List (String × Json) → List (String × Json)
  | _, [] => []
  | pointer, (key, value) :: rest =>
    (key, rewriteFrom replacement (pointer ++ [key]) value) ::
      rewriteMembers replacement pointer rest
end

def rewrite (replacement : Replacement) (document : Json) : Json :=
  rewriteFrom replacement [] document

def putting (entries : List (Pointer × Json)) : Replacement := fun pointer _ =>
  (entries.find? fun entry => entry.1 = pointer).map Prod.snd

theorem putting_append (front back : List (Pointer × Json)) (pointer : Pointer) (value : Json) :
    putting (front ++ back) pointer value =
      (putting front pointer value).or (putting back pointer value) := by
  simp only [putting, List.find?_append, Option.map_or]

theorem putting_cons (entry : Pointer × Json) (rest : List (Pointer × Json)) (pointer : Pointer)
    (value : Json) :
    putting (entry :: rest) pointer value =
      (putting [entry] pointer value).or (putting rest pointer value) :=
  putting_append [entry] rest pointer value

theorem putting_eq_none (entries : List (Pointer × Json)) (pointer : Pointer) (value : Json)
    (elsewhere : ∀ entry ∈ entries, entry.1 ≠ pointer) : putting entries pointer value = none := by
  have nowhere : entries.find? (fun entry => entry.1 = pointer) = none := by
    simpa using elsewhere
  rw [putting, nowhere, Option.map_none]

theorem putting_eq_none_iff (entries : List (Pointer × Json)) (pointer : Pointer) (value : Json) :
    putting entries pointer value = none ↔ pointer ∉ entries.map Prod.fst := by
  simp only [putting, Option.map_eq_none_iff, List.find?_eq_none, decide_eq_true_eq, List.mem_map,
    not_exists, not_and]

theorem putting_map (f : Json → Json) (entries : List (Pointer × Json)) (pointer : Pointer)
    (value : Json) :
    putting (entries.map fun entry => (entry.1, f entry.2)) pointer value =
      (putting entries pointer value).map f := by
  simp only [putting, List.find?_map, Option.map_map]
  rfl

theorem putting_cons_self (pointer : Pointer) (new value : Json) (rest : List (Pointer × Json)) :
    putting ((pointer, new) :: rest) pointer value = some new := by
  simp [putting]

theorem putting_cons_other (other : Pointer) (new : Json) (rest : List (Pointer × Json))
    (pointer : Pointer) (value : Json) (different : other ≠ pointer) :
    putting ((other, new) :: rest) pointer value = putting rest pointer value := by
  simp [putting, different]

theorem putting_of_mem (entries : List (Pointer × Json)) (pointer : Pointer) (new value : Json)
    (differ : (entries.map Prod.fst).Nodup) (member : (pointer, new) ∈ entries) :
    putting entries pointer value = some new := by
  induction entries with
  | nil => cases member
  | cons entry rest ih =>
    obtain ⟨fresh, restDiffer⟩ := List.nodup_cons.mp differ
    rcases List.mem_cons.mp member with rfl | later
    · exact putting_cons_self pointer new value rest
    · have different : entry.1 ≠ pointer := fun same =>
        fresh (same ▸ List.mem_map_of_mem (f := Prod.fst) later)
      rw [putting_cons_other entry.1 entry.2 rest pointer value different, ih restDiffer later]

theorem putting_middle (entry : Pointer × Json) (front back : List (Pointer × Json))
    (elsewhere : ∀ other ∈ front, other.1 ≠ entry.1) :
    putting (front ++ entry :: back) = putting (entry :: (front ++ back)) := by
  funext pointer value
  rw [putting_cons, putting_append, putting_append, putting_cons entry back]
  by_cases here : entry.1 = pointer
  · have none := putting_eq_none front pointer value fun other member => here ▸ elsewhere other member
    rw [none, Option.none_or, Option.none_or]
  · have none : putting [entry] pointer value = none :=
      putting_eq_none [entry] pointer value fun other one => by rwa [List.mem_singleton.mp one]
    rw [none, Option.none_or, Option.none_or]

theorem putting_above (entries : List (Pointer × Json)) (pointer : Pointer)
    (segments : String → Prop) (value : Json)
    (below : ∀ entry ∈ entries, Pointer.Below pointer segments entry.1) :
    putting entries pointer value = none :=
  putting_eq_none entries pointer value fun entry member same =>
    Pointer.not_below_self pointer segments (same ▸ below entry member)

theorem putting_below_other (entries : List (Pointer × Json)) (pointer : Pointer)
    (segments : String → Prop) (below : ∀ entry ∈ entries, Pointer.Below pointer segments entry.1)
    (segment : String) (other : ¬ segments segment) (tail : Pointer) (value : Json) :
    putting entries (pointer ++ segment :: tail) value = none :=
  putting_eq_none entries _ value fun entry member same =>
    other (Pointer.segment_of_below pointer tail segments segment (same ▸ below entry member))

theorem rewrite_from_eq_some (replacement : Replacement) (pointer : Pointer) (value new : Json)
    (replaced : replacement pointer value = some new) :
    rewriteFrom replacement pointer value = new := by
  cases value <;> simp only [rewriteFrom, replaced, Option.getD_some]

theorem rewrite_from_arr (replacement : Replacement) (pointer : Pointer) (items : List Json)
    (kept : replacement pointer (.arr items) = none) :
    rewriteFrom replacement pointer (.arr items) =
      .arr (rewriteItems replacement pointer 0 items) := by
  simp only [rewriteFrom, kept, Option.getD_none]

theorem rewrite_from_obj (replacement : Replacement) (pointer : Pointer) (members : Table Json)
    (kept : replacement pointer (.obj members) = none) :
    rewriteFrom replacement pointer (.obj members) =
      .obj (rewriteMembers replacement pointer members) := by
  simp only [rewriteFrom, kept, Option.getD_none]

mutual
theorem rewrite_from_congr (f g : Replacement) (pointer : Pointer) (value : Json)
    (same : ∀ rest inner, f (pointer ++ rest) inner = g (pointer ++ rest) inner) :
    rewriteFrom f pointer value = rewriteFrom g pointer value := by
  have here := same []
  simp only [List.append_nil] at here
  cases value with
  | null | bool | num | str => simp only [rewriteFrom, here]
  | arr items =>
    simp only [rewriteFrom, here]
    rw [rewrite_items_congr f g pointer 0 items fun index _ rest inner => same _ inner]
  | obj members =>
    simp only [rewriteFrom, here]
    rw [rewrite_members_congr f g pointer members fun key _ rest inner => same _ inner]
theorem rewrite_items_congr (f g : Replacement) (pointer : Pointer) (start : Nat) (items : List Json)
    (same : ∀ index, start ≤ index → ∀ rest inner,
      f (pointer ++ Pointer.indexSegment index :: rest) inner =
        g (pointer ++ Pointer.indexSegment index :: rest) inner) :
    rewriteItems f pointer start items = rewriteItems g pointer start items := by
  cases items with
  | nil => rfl
  | cons item tail =>
    have first := rewrite_from_congr f g (pointer ++ [Pointer.indexSegment start]) item
      fun rest inner => by
        simpa only [Pointer.append_singleton_append] using same start (Nat.le_refl _) rest inner
    have others := rewrite_items_congr f g pointer (start + 1) tail fun index later =>
      same index (by omega)
    simp only [rewriteItems, first, others]
theorem rewrite_members_congr (f g : Replacement) (pointer : Pointer) (members : Table Json)
    (same : ∀ key ∈ Table.keys members, ∀ rest inner,
      f (pointer ++ key :: rest) inner = g (pointer ++ key :: rest) inner) :
    rewriteMembers f pointer members = rewriteMembers g pointer members := by
  cases members with
  | nil => rfl
  | cons member tail =>
    have first := rewrite_from_congr f g (pointer ++ [member.1]) member.2 fun rest inner => by
      simpa only [Pointer.append_singleton_append] using same member.1 List.mem_cons_self rest inner
    have others := rewrite_members_congr f g pointer tail fun key later =>
      same key (List.mem_cons_of_mem _ later)
    simp only [rewriteMembers, first, others]
end

mutual
-- Replacing twice is replacing once if both replace in the same places.
theorem rewrite_from_rewrite_from (first second whole : Replacement) (pointer : Pointer) (value : Json)
    (put : ∀ place inner new, first place inner = some new →
      ∃ last, second place new = some last ∧ whole place inner = some last)
    (kept : ∀ place inner, first place inner = none →
      whole place inner = none ∧ ∀ other, second place other = none) :
    rewriteFrom second pointer (rewriteFrom first pointer value) = rewriteFrom whole pointer value := by
  cases replaced : first pointer value with
  | some new =>
    obtain ⟨last, again, once⟩ := put pointer value new replaced
    rw [rewrite_from_eq_some first pointer value new replaced,
      rewrite_from_eq_some second pointer new last again,
      rewrite_from_eq_some whole pointer value last once]
  | none =>
    obtain ⟨once, again⟩ := kept pointer value replaced
    cases value with
    | null | bool | num | str => simp only [rewriteFrom, replaced, once, again, Option.getD_none]
    | arr items =>
      rw [rewrite_from_arr first pointer items replaced, rewrite_from_arr second pointer _ (again _),
        rewrite_from_arr whole pointer items once,
        rewrite_items_rewrite_items first second whole pointer 0 items put kept]
    | obj members =>
      rw [rewrite_from_obj first pointer members replaced, rewrite_from_obj second pointer _ (again _),
        rewrite_from_obj whole pointer members once,
        rewrite_members_rewrite_members first second whole pointer members put kept]
theorem rewrite_items_rewrite_items (first second whole : Replacement) (pointer : Pointer) (start : Nat)
    (items : List Json)
    (put : ∀ place inner new, first place inner = some new →
      ∃ last, second place new = some last ∧ whole place inner = some last)
    (kept : ∀ place inner, first place inner = none →
      whole place inner = none ∧ ∀ other, second place other = none) :
    rewriteItems second pointer start (rewriteItems first pointer start items) =
      rewriteItems whole pointer start items := by
  cases items with
  | nil => rfl
  | cons item rest =>
    rw [rewriteItems, rewriteItems, rewriteItems,
      rewrite_from_rewrite_from first second whole _ item put kept,
      rewrite_items_rewrite_items first second whole pointer (start + 1) rest put kept]
theorem rewrite_members_rewrite_members (first second whole : Replacement) (pointer : Pointer)
    (members : Table Json)
    (put : ∀ place inner new, first place inner = some new →
      ∃ last, second place new = some last ∧ whole place inner = some last)
    (kept : ∀ place inner, first place inner = none →
      whole place inner = none ∧ ∀ other, second place other = none) :
    rewriteMembers second pointer (rewriteMembers first pointer members) =
      rewriteMembers whole pointer members := by
  cases members with
  | nil => rfl
  | cons member rest =>
    obtain ⟨key, value⟩ := member
    rw [rewriteMembers, rewriteMembers, rewriteMembers,
      rewrite_from_rewrite_from first second whole _ value put kept,
      rewrite_members_rewrite_members first second whole pointer rest put kept]
end

theorem rewrite_items_cons (f front back : Replacement) (pointer : Pointer) (start : Nat) (item : Json)
    (rest : List Json)
    (here : ∀ tail inner, f (pointer ++ Pointer.indexSegment start :: tail) inner =
      front (pointer ++ Pointer.indexSegment start :: tail) inner)
    (later : ∀ index, start < index → ∀ tail inner,
      f (pointer ++ Pointer.indexSegment index :: tail) inner =
        back (pointer ++ Pointer.indexSegment index :: tail) inner) :
    rewriteItems f pointer start (item :: rest) =
      rewriteFrom front (pointer ++ [Pointer.indexSegment start]) item ::
        rewriteItems back pointer (start + 1) rest := by
  have first := rewrite_from_congr f front (pointer ++ [Pointer.indexSegment start]) item
    fun tail inner => by simpa only [Pointer.append_singleton_append] using here tail inner
  rw [rewriteItems, first, rewrite_items_congr f back pointer (start + 1) rest later]

theorem rewrite_members_cons (f front back : Replacement) (pointer : Pointer) (key : String)
    (value : Json) (rest : Table Json)
    (here : ∀ tail inner, f (pointer ++ key :: tail) inner = front (pointer ++ key :: tail) inner)
    (later : ∀ other ∈ Table.keys rest, ∀ tail inner,
      f (pointer ++ other :: tail) inner = back (pointer ++ other :: tail) inner) :
    rewriteMembers f pointer ((key, value) :: rest) =
      (key, rewriteFrom front (pointer ++ [key]) value) :: rewriteMembers back pointer rest := by
  have first := rewrite_from_congr f front (pointer ++ [key]) value fun tail inner => by
    simpa only [Pointer.append_singleton_append] using here tail inner
  rw [rewriteMembers, first, rewrite_members_congr f back pointer rest later]

-- Entries below the first child and entries below the others rewrite each their own part.
theorem rewrite_items_putting_append (front back : List (Pointer × Json)) (pointer : Pointer)
    (start : Nat) (item : Json) (rest : List Json)
    (first : ∀ entry ∈ front, Pointer.Below pointer (· = Pointer.indexSegment start) entry.1)
    (others : ∀ entry ∈ back, Pointer.Below pointer (Pointer.IndexFrom (start + 1)) entry.1) :
    rewriteItems (putting (front ++ back)) pointer start (item :: rest) =
      rewriteFrom (putting front) (pointer ++ [Pointer.indexSegment start]) item ::
        rewriteItems (putting back) pointer (start + 1) rest := by
  apply rewrite_items_cons _ _ _ pointer start item rest
  · intro tail inner
    have notLater : ¬ Pointer.IndexFrom (start + 1) (Pointer.indexSegment start) := by
      rintro ⟨index, after, same⟩
      have equal := Pointer.index_segment_injective _ _ same
      omega
    rw [putting_append, putting_below_other back pointer _ others _ notLater, Option.or_none]
  · intro index after tail inner
    have notFirst : ¬ Pointer.indexSegment index = Pointer.indexSegment start := fun same => by
      have equal := Pointer.index_segment_injective _ _ same
      omega
    rw [putting_append, putting_below_other front pointer _ first _ notFirst, Option.none_or]

theorem rewrite_members_putting_append (front back : List (Pointer × Json)) (pointer : Pointer)
    (key : String) (value : Json) (rest : Table Json) (fresh : key ∉ Table.keys rest)
    (first : ∀ entry ∈ front, Pointer.Below pointer (· = key) entry.1)
    (others : ∀ entry ∈ back, Pointer.Below pointer (· ∈ Table.keys rest) entry.1) :
    rewriteMembers (putting (front ++ back)) pointer ((key, value) :: rest) =
      (key, rewriteFrom (putting front) (pointer ++ [key]) value) ::
        rewriteMembers (putting back) pointer rest := by
  apply rewrite_members_cons _ _ _ pointer key value rest
  · intro tail inner
    rw [putting_append, putting_below_other back pointer _ others key fresh, Option.or_none]
  · intro other present tail inner
    have notFirst : ¬ other = key := fun same => fresh (same ▸ present)
    rw [putting_append, putting_below_other front pointer _ first other notFirst, Option.none_or]

mutual
theorem rewrite_from_none (pointer : Pointer) (value : Json) :
    rewriteFrom (fun _ _ => none) pointer value = value := by
  cases value with
  | null | bool | num | str => rfl
  | arr items => simp only [rewriteFrom, Option.getD_none, rewrite_items_none]
  | obj members => simp only [rewriteFrom, Option.getD_none, rewrite_members_none]
theorem rewrite_items_none (pointer : Pointer) (start : Nat) (items : List Json) :
    rewriteItems (fun _ _ => none) pointer start items = items := by
  cases items with
  | nil => rfl
  | cons item tail => rw [rewriteItems, rewrite_from_none, rewrite_items_none]
theorem rewrite_members_none (pointer : Pointer) (members : Table Json) :
    rewriteMembers (fun _ _ => none) pointer members = members := by
  cases members with
  | nil => rfl
  | cons member tail =>
    obtain ⟨key, value⟩ := member
    rw [rewriteMembers, rewrite_from_none, rewrite_members_none]
end

theorem rewrite_members_putting_one (pointer : Pointer) (key : String) (new : Json)
    (members : Table Json) (differ : (Table.keys members).Nodup)
    (present : key ∈ Table.keys members) :
    rewriteMembers (putting [(pointer ++ [key], new)]) pointer members =
      Table.put members key new := by
  have below : ∀ entry ∈ [(pointer ++ [key], new)], Pointer.Below pointer (· = key) entry.1 := by
    intro entry one
    rw [List.mem_singleton.mp one]
    exact ⟨key, rfl, [], rfl⟩
  induction members with
  | nil => cases present
  | cons member rest ih =>
    obtain ⟨k, value⟩ := member
    obtain ⟨fresh, restDiffer⟩ := List.nodup_cons.mp differ
    by_cases same : k = key
    · subst same
      have split := rewrite_members_putting_append [(pointer ++ [k], new)] [] pointer k value rest
        fresh below (by simp)
      rw [List.append_nil] at split
      rw [split, rewrite_from_eq_some _ _ value new (putting_cons_self _ _ _ _), Table.put, if_pos rfl]
      exact congrArg _ (rewrite_members_none pointer rest)
    · have later : key ∈ Table.keys rest := by simpa [Table.keys, Ne.symm same] using present
      have inRest : ∀ entry ∈ [(pointer ++ [key], new)],
          Pointer.Below pointer (· ∈ Table.keys rest) entry.1 := fun entry one => by
        obtain ⟨_, rfl, deeper⟩ := below entry one
        exact ⟨_, later, deeper⟩
      have split := rewrite_members_putting_append [] [(pointer ++ [key], new)] pointer k value rest
        fresh (by simp) inRest
      rw [List.nil_append] at split
      rw [split, ih restDiffer later, Table.put, if_neg same]
      exact congrArg (fun first => (k, first) :: _) (rewrite_from_none _ value)

theorem get?_rewrite_members (replacement : Replacement) (pointer : Pointer) (members : Table Json)
    (key : String) :
    Table.get? (rewriteMembers replacement pointer members) key =
      (Table.get? members key).map fun value =>
        rewriteFrom replacement (pointer ++ [key]) value := by
  induction members with
  | nil => rfl
  | cons member rest ih =>
    obtain ⟨k, value⟩ := member
    by_cases same : k = key
    · subst same
      simp only [rewriteMembers, Table.get?, if_pos, Option.map_some]
    · simp only [rewriteMembers, Table.get?, if_neg same, ih]

theorem get_elem?_rewrite_items (replacement : Replacement) (pointer : Pointer) (start index : Nat)
    (items : List Json) :
    (rewriteItems replacement pointer start items)[index]? =
      items[index]?.map fun item =>
        rewriteFrom replacement (pointer ++ [Pointer.indexSegment (start + index)]) item := by
  induction items generalizing start index with
  | nil => rfl
  | cons item rest ih =>
    cases index with
    | zero => rfl
    | succ index =>
      simp only [rewriteItems, List.getElem?_cons_succ, ih, Nat.add_assoc, Nat.add_comm 1]

theorem child?_rewrite_from (replacement : Replacement) (pointer : Pointer) (value : Json)
    (segment : String) (kept : replacement pointer value = none) :
    (rewriteFrom replacement pointer value).child? segment =
      (value.child? segment).map fun child =>
        rewriteFrom replacement (pointer ++ [segment]) child := by
  cases value with
  | null | bool | num | str => simp only [rewriteFrom, kept, Option.getD_none, child?, Option.map_none]
  | arr items =>
    rw [rewrite_from_arr replacement pointer items kept]
    cases named : Pointer.index? segment with
    | none => simp only [child?, named, Option.bind_none, Option.map_none]
    | some index =>
      have same := Pointer.eq_index_segment_of_index? segment index named
      simp only [child?, named, Option.bind_some, get_elem?_rewrite_items, Nat.zero_add,
        ← same]
  | obj members =>
    rw [rewrite_from_obj replacement pointer members kept]
    exact get?_rewrite_members replacement pointer members segment

theorem at?_rewrite_from_kept (replacement : Replacement) (pointer rest : Pointer) (value : Json)
    (above : ∀ front segment back, rest = front ++ segment :: back →
      ∀ inner, replacement (pointer ++ front) inner = none) :
    (rewriteFrom replacement pointer value).at? rest =
      (value.at? rest).map fun found => rewriteFrom replacement (pointer ++ rest) found := by
  induction rest generalizing pointer value with
  | nil => simp only [at?, Option.map_some, List.append_nil]
  | cons segment rest ih =>
    have kept := above [] segment rest rfl value
    rw [List.append_nil] at kept
    rw [at?, at?, child?_rewrite_from replacement pointer value segment kept]
    cases value.child? segment with
    | none => rfl
    | some child =>
      have deeper := ih (pointer ++ [segment]) child fun front other back eq inner => by
        rw [Pointer.append_singleton_append]
        exact above (segment :: front) other back (by rw [eq]; rfl) inner
      rwa [Pointer.append_singleton_append] at deeper

theorem at?_rewrite_from (replacement : Replacement) (pointer rest : Pointer)
    (value found new : Json) (there : value.at? rest = some found)
    (replaced : replacement (pointer ++ rest) found = some new)
    (above : ∀ front segment back, rest = front ++ segment :: back →
      ∀ inner, replacement (pointer ++ front) inner = none) :
    (rewriteFrom replacement pointer value).at? rest = some new := by
  rw [at?_rewrite_from_kept replacement pointer rest value above, there, Option.map_some,
    rewrite_from_eq_some replacement _ found new replaced]

theorem text?_rewrite_from (replacement : Replacement) (pointer : Pointer) (value : Json)
    (textless : ∀ new, replacement pointer value = some new → new.text? = none)
    (untexted : value.text? = none) : (rewriteFrom replacement pointer value).text? = none := by
  cases replaced : replacement pointer value with
  | some new =>
    rw [rewrite_from_eq_some replacement pointer value new replaced]
    exact textless new replaced
  | none =>
    cases value with
    | str text => cases untexted
    | null | bool | num | arr | obj => simp only [rewriteFrom, replaced, Option.getD_none, text?]

theorem keys_rewrite_members (replacement : Replacement) (pointer : Pointer) (members : Table Json) :
    Table.keys (rewriteMembers replacement pointer members) = Table.keys members := by
  induction members with
  | nil => rfl
  | cons member rest ih => exact congrArg (member.1 :: ·) ih

mutual
theorem well_formed_rewrite_from (replacement : Replacement) (pointer : Pointer) (value : Json)
    (sound : ∀ place inner new, replacement place inner = some new → new.WellFormed)
    (wellFormed : value.WellFormed) : (rewriteFrom replacement pointer value).WellFormed := by
  cases replaced : replacement pointer value with
  | some new =>
    rw [rewrite_from_eq_some replacement pointer value new replaced]
    exact sound pointer value new replaced
  | none =>
    cases value with
    | null | bool | num | str => simp only [rewriteFrom, replaced, Option.getD_none, WellFormed]
    | arr items =>
      rw [rewrite_from_arr replacement pointer items replaced]
      exact well_formed_rewrite_items replacement pointer 0 items sound wellFormed
    | obj members =>
      rw [rewrite_from_obj replacement pointer members replaced]
      refine ⟨?_, well_formed_rewrite_members replacement pointer members sound wellFormed.2⟩
      rw [keys_rewrite_members]
      exact wellFormed.1
theorem well_formed_rewrite_items (replacement : Replacement) (pointer : Pointer) (start : Nat)
    (items : List Json)
    (sound : ∀ place inner new, replacement place inner = some new → new.WellFormed)
    (wellFormed : ItemsWellFormed items) :
    ItemsWellFormed (rewriteItems replacement pointer start items) := by
  cases items with
  | nil => trivial
  | cons item rest =>
    exact ⟨well_formed_rewrite_from replacement _ item sound wellFormed.1,
      well_formed_rewrite_items replacement pointer (start + 1) rest sound wellFormed.2⟩
theorem well_formed_rewrite_members (replacement : Replacement) (pointer : Pointer)
    (members : Table Json)
    (sound : ∀ place inner new, replacement place inner = some new → new.WellFormed)
    (wellFormed : MembersWellFormed members) :
    MembersWellFormed (rewriteMembers replacement pointer members) := by
  cases members with
  | nil => trivial
  | cons member rest =>
    exact ⟨well_formed_rewrite_from replacement _ member.2 sound wellFormed.1,
      well_formed_rewrite_members replacement pointer rest sound wellFormed.2⟩
end

mutual
theorem sort_keys_rewrite_from (replacement : Replacement) (pointer : Pointer) (value : Json)
    (same : ∀ place inner new, replacement place inner = some new → sortKeys new = sortKeys inner) :
    sortKeys (rewriteFrom replacement pointer value) = sortKeys value := by
  cases replaced : replacement pointer value with
  | some new =>
    rw [rewrite_from_eq_some replacement pointer value new replaced]
    exact same pointer value new replaced
  | none =>
    cases value with
    | null | bool | num | str => simp only [rewriteFrom, replaced, Option.getD_none]
    | arr items =>
      rw [rewrite_from_arr replacement pointer items replaced, sortKeys, sortKeys,
        sort_items_rewrite_items replacement pointer 0 items same]
    | obj members =>
      rw [rewrite_from_obj replacement pointer members replaced, sortKeys, sortKeys,
        sort_members_rewrite_members replacement pointer members same]
theorem sort_items_rewrite_items (replacement : Replacement) (pointer : Pointer) (start : Nat)
    (items : List Json)
    (same : ∀ place inner new, replacement place inner = some new → sortKeys new = sortKeys inner) :
    sortItems (rewriteItems replacement pointer start items) = sortItems items := by
  cases items with
  | nil => rfl
  | cons item rest =>
    rw [rewriteItems, sortItems, sortItems, sort_keys_rewrite_from replacement _ item same,
      sort_items_rewrite_items replacement pointer (start + 1) rest same]
theorem sort_members_rewrite_members (replacement : Replacement) (pointer : Pointer)
    (members : Table Json)
    (same : ∀ place inner new, replacement place inner = some new → sortKeys new = sortKeys inner) :
    sortMembers (rewriteMembers replacement pointer members) = sortMembers members := by
  cases members with
  | nil => rfl
  | cons member rest =>
    obtain ⟨key, value⟩ := member
    rw [rewriteMembers, sortMembers, sortMembers, sort_keys_rewrite_from replacement _ value same,
      sort_members_rewrite_members replacement pointer rest same]
end

end Json

end Envelope
