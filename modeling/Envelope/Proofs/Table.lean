import Envelope.Table

set_option autoImplicit false

namespace Envelope.Table

variable {α β : Type}

theorem get?_of_mem (table : Table α) (key : String) (value : α) (differ : (keys table).Nodup)
    (member : (key, value) ∈ table) : get? table key = some value := by
  induction table with
  | nil => cases member
  | cons entry rest ih =>
    obtain ⟨fresh, restDiffer⟩ := List.nodup_cons.mp differ
    rcases List.mem_cons.mp member with here | later
    · cases here
      simp only [get?, if_pos]
    · have other : entry.1 ≠ key := fun same =>
        fresh (same ▸ List.mem_map_of_mem (f := Prod.fst) later)
      simp only [get?, if_neg other]
      exact ih restDiffer later

theorem mem_of_get? (table : Table α) (key : String) (value : α)
    (found : get? table key = some value) : (key, value) ∈ table := by
  induction table with
  | nil => cases found
  | cons entry rest ih =>
    obtain ⟨k, old⟩ := entry
    by_cases same : k = key
    · simp only [get?, if_pos same, Option.some.injEq] at found
      simp [same, found]
    · simp only [get?, if_neg same] at found
      exact List.mem_cons_of_mem _ (ih found)

theorem get?_eq_some_iff (table : Table α) (key : String) (value : α)
    (differ : (keys table).Nodup) : get? table key = some value ↔ (key, value) ∈ table :=
  ⟨mem_of_get? table key value, get?_of_mem table key value differ⟩

theorem get?_append (front back : Table α) (key : String) :
    get? (front ++ back) key = (get? front key).or (get? back key) := by
  induction front with
  | nil => rfl
  | cons entry rest ih =>
    by_cases same : entry.1 = key
    · simp only [List.cons_append, get?, if_pos same, Option.some_or]
    · simp only [List.cons_append, get?, if_neg same, ih]

theorem get?_map (f : α → β) (table : Table α) (key : String) :
    get? (table.map fun entry => (entry.1, f entry.2)) key = (get? table key).map f := by
  induction table with
  | nil => rfl
  | cons entry rest ih =>
    by_cases same : entry.1 = key
    · simp only [List.map_cons, get?, if_pos same, Option.map_some]
    · simp only [List.map_cons, get?, if_neg same, ih]

theorem get?_of_perm (table other : Table α) (reordered : table.Perm other)
    (differ : (keys table).Nodup) (key : String) : get? table key = get? other key := by
  have otherDiffer : (keys other).Nodup := (reordered.map Prod.fst).nodup_iff.mp differ
  apply Option.ext
  intro value
  rw [get?_eq_some_iff table key value differ, get?_eq_some_iff other key value otherDiffer,
    reordered.mem_iff]

theorem put_of_fresh (table : Table α) (key : String) (value : α) (fresh : key ∉ keys table) :
    put table key value = table ++ [(key, value)] := by
  induction table with
  | nil => rfl
  | cons entry rest ih =>
    obtain ⟨k, old⟩ := entry
    simp only [keys, List.map_cons, List.mem_cons, not_or] at fresh
    simp only [put, if_neg (Ne.symm fresh.1), List.cons_append]
    rw [ih fresh.2]

theorem keys_put_of_mem (table : Table α) (key : String) (value : α) (there : key ∈ keys table) :
    keys (put table key value) = keys table := by
  induction table with
  | nil => cases there
  | cons entry rest ih =>
    obtain ⟨k, old⟩ := entry
    by_cases same : k = key
    · simp only [put, if_pos same, keys, List.map_cons]
    · have later : key ∈ keys rest := (List.mem_cons.mp there).resolve_left (Ne.symm same)
      simp only [put, if_neg same]
      exact congrArg (k :: ·) (ih later)

theorem put_of_get? (table : Table α) (key : String) (value : α)
    (found : get? table key = some value) : put table key value = table := by
  induction table with
  | nil => cases found
  | cons entry rest ih =>
    obtain ⟨k, old⟩ := entry
    by_cases same : k = key
    · simp only [get?, if_pos same, Option.some.injEq] at found
      simp only [put, if_pos same, found]
    · simp only [get?, if_neg same] at found
      simp only [put, if_neg same, ih found]

theorem mem_put (table : Table α) (key : String) (value : α) (entry : String × α)
    (member : entry ∈ put table key value) : entry = (key, value) ∨ entry ∈ table := by
  induction table with
  | nil => exact .inl (List.mem_singleton.mp member)
  | cons first rest ih =>
    obtain ⟨k, old⟩ := first
    by_cases same : k = key
    · simp only [put, if_pos same] at member
      rcases List.mem_cons.mp member with rfl | later
      · exact .inl (by rw [same])
      · exact .inr (List.mem_cons_of_mem _ later)
    · simp only [put, if_neg same] at member
      rcases List.mem_cons.mp member with rfl | later
      · exact .inr List.mem_cons_self
      · exact (ih later).imp_right (List.mem_cons_of_mem _)

theorem mem_put_all (entries table : Table α) (entry : String × α)
    (member : entry ∈ putAll table entries) : entry ∈ entries ∨ entry ∈ table := by
  induction entries generalizing table with
  | nil => exact .inr member
  | cons first rest ih =>
    rcases ih (put table first.1 first.2) member with later | there
    · exact .inl (List.mem_cons_of_mem _ later)
    · rcases mem_put table first.1 first.2 entry there with rfl | before
      · exact .inl List.mem_cons_self
      · exact .inr before

theorem nodup_keys_put (table : Table α) (key : String) (value : α)
    (differ : (keys table).Nodup) : (keys (put table key value)).Nodup := by
  by_cases there : key ∈ keys table
  · rwa [keys_put_of_mem table key value there]
  · rw [put_of_fresh table key value there, keys, List.map_append]
    exact (List.perm_append_singleton key _).nodup_iff.mpr (List.nodup_cons.mpr ⟨there, differ⟩)

theorem nodup_keys_put_all (entries table : Table α) (differ : (keys table).Nodup) :
    (keys (putAll table entries)).Nodup := by
  induction entries generalizing table with
  | nil => exact differ
  | cons entry rest ih => exact ih _ (nodup_keys_put table entry.1 entry.2 differ)

theorem put_all_of_nodup (entries table : Table α) (differ : (keys (table ++ entries)).Nodup) :
    putAll table entries = table ++ entries := by
  induction entries generalizing table with
  | nil => simp [putAll]
  | cons entry rest ih =>
    have fresh : entry.1 ∉ keys table := by
      intro member
      simp only [keys, List.map_append, List.map_cons, List.nodup_append] at differ
      exact differ.2.2 entry.1 member entry.1 List.mem_cons_self rfl
    have grown : (keys (table ++ [entry] ++ rest)).Nodup := by
      simpa only [List.append_assoc, List.singleton_append] using differ
    change putAll (put table entry.1 entry.2) rest = table ++ entry :: rest
    rw [put_of_fresh table entry.1 entry.2 fresh, ih _ grown]
    simp

theorem place_perm (table : Table α) (key : String) (value : α) (fresh : key ∉ keys table) :
    (place table key value).Perm ((key, value) :: table) := by
  induction table with
  | nil => exact List.Perm.refl _
  | cons entry rest ih =>
    obtain ⟨k, old⟩ := entry
    simp only [keys, List.map_cons, List.mem_cons, not_or] at fresh
    by_cases before : key < k
    · simp only [place, if_neg (Ne.symm fresh.1), if_pos before]
      exact List.Perm.refl _
    · simp only [place, if_neg (Ne.symm fresh.1), if_neg before]
      exact ((ih fresh.2).cons _).trans (List.Perm.swap _ _ _)

theorem foldl_place_perm (entries table : Table α) (differ : (keys (table ++ entries)).Nodup) :
    (entries.foldl (fun table entry => place table entry.1 entry.2) table).Perm
      (table ++ entries) := by
  induction entries generalizing table with
  | nil => simp
  | cons entry rest ih =>
    have fresh : entry.1 ∉ keys table := by
      intro member
      simp only [keys, List.map_append, List.map_cons, List.nodup_append] at differ
      exact differ.2.2 entry.1 member entry.1 List.mem_cons_self rfl
    have placed := place_perm table entry.1 entry.2 fresh
    have moved : (place table entry.1 entry.2 ++ rest).Perm (table ++ entry :: rest) :=
      (placed.append_right rest).trans List.perm_middle.symm
    have placedDiffer : (keys (place table entry.1 entry.2 ++ rest)).Nodup :=
      ((moved.map Prod.fst).nodup_iff).mpr differ
    exact (ih _ placedDiffer).trans moved

theorem sorted_perm (entries : Table α) (differ : (keys entries).Nodup) :
    (sorted entries).Perm entries :=
  foldl_place_perm entries [] differ

theorem nodup_of_ascending (table : Table α) (ascending : Ascending table) :
    (keys table).Nodup := by
  refine List.Pairwise.imp ?_ ascending
  intro key other below same
  exact String.lt_irrefl _ (same ▸ below)

-- In ascending order the entry that a search stops at has the least key of those it could stop at.
theorem find_some?_eq_some_iff (f : α → Option β) (table : Table α) (ascending : Ascending table)
    (result : β) :
    table.findSome? (fun entry => f entry.2) = some result ↔
      ∃ key value, get? table key = some value ∧ f value = some result ∧
        ∀ earlier other, earlier < key → get? table earlier = some other → f other = none := by
  have differ := nodup_of_ascending table ascending
  have below : table.Pairwise fun a b => a.1 < b.1 := List.pairwise_map.mp ascending
  constructor
  · intro found
    obtain ⟨front, entry, back, rfl, taken, passed⟩ := List.findSome?_eq_some_iff.mp found
    have present := get?_of_mem _ entry.1 entry.2 differ
      (List.mem_append_right front List.mem_cons_self)
    refine ⟨entry.1, entry.2, present, taken, fun earlier other less there => ?_⟩
    rcases List.mem_append.mp (mem_of_get? _ earlier other there) with before | after
    · exact passed _ before
    · have above := (List.pairwise_cons.mp (List.pairwise_append.mp below).2.1).1
      rcases List.mem_cons.mp after with same | later
      · exact absurd less (same ▸ String.lt_irrefl _)
      · exact absurd less (String.lt_asymm (above _ later))
  · rintro ⟨key, value, present, taken, passed⟩
    obtain ⟨front, back, rfl⟩ := List.append_of_mem (mem_of_get? table key value present)
    refine List.findSome?_eq_some_iff.mpr
      ⟨front, (key, value), back, rfl, taken, fun entry before => ?_⟩
    have less := (List.pairwise_append.mp below).2.2 entry before (key, value) List.mem_cons_self
    exact passed entry.1 entry.2 less (get?_of_mem _ _ _ differ (List.mem_append_left _ before))

theorem place_after (table : Table α) (key : String) (value : α)
    (last : ∀ other ∈ keys table, other < key) :
    place table key value = table ++ [(key, value)] := by
  induction table with
  | nil => rfl
  | cons entry rest ih =>
    obtain ⟨k, old⟩ := entry
    have below : k < key := last k List.mem_cons_self
    have different : k ≠ key := fun same => String.lt_irrefl _ (same ▸ below)
    simp only [place, if_neg different, if_neg (String.lt_asymm below), List.cons_append]
    rw [ih fun other member => last other (List.mem_cons_of_mem _ member)]

theorem foldl_place_of_ascending (entries table : Table α)
    (ascending : Ascending (table ++ entries)) :
    entries.foldl (fun table entry => place table entry.1 entry.2) table = table ++ entries := by
  induction entries generalizing table with
  | nil => simp
  | cons entry rest ih =>
    have last : ∀ other ∈ keys table, other < entry.1 := by
      intro other member
      simp only [Ascending, keys, List.map_append, List.map_cons, List.pairwise_append] at ascending
      exact ascending.2.2 other member entry.1 List.mem_cons_self
    have grown : Ascending (table ++ [entry] ++ rest) := by
      simpa only [List.append_assoc, List.singleton_append] using ascending
    rw [List.foldl_cons, place_after table entry.1 entry.2 last, ih _ grown]
    simp

theorem sorted_of_ascending (entries : Table α) (ascending : Ascending entries) :
    sorted entries = entries :=
  foldl_place_of_ascending entries [] ascending

-- Of a repeated key the last entry counts.
theorem get?_foldl_place (entries table : Table α) (key : String) :
    get? (entries.foldl (fun table entry => place table entry.1 entry.2) table) key =
      (get? entries.reverse key).or (get? table key) := by
  induction entries generalizing table with
  | nil => rfl
  | cons entry rest ih =>
    rw [List.foldl_cons, ih, get?_place, List.reverse_cons, get?_append, Option.or_assoc]
    by_cases same : entry.1 = key
    · simp [get?, same]
    · simp [get?, same]

theorem get?_sorted_eq_last (entries : Table α) (key : String) :
    get? (sorted entries) key = get? entries.reverse key := by
  rw [sorted, get?_foldl_place]
  exact Option.or_none

theorem get?_sorted (entries : Table α) (differ : (keys entries).Nodup) (key : String) :
    get? (sorted entries) key = get? entries key :=
  get?_of_perm _ entries (sorted_perm entries differ)
    (nodup_of_ascending _ (ascending_sorted entries)) key

theorem nodup_of_keys (table : Table α) (differ : (keys table).Nodup) : table.Nodup :=
  List.Pairwise.of_map Prod.fst (fun _ _ apart same => apart (congrArg Prod.fst same)) differ

theorem perm_of_get? (table other : Table α) (differ : (keys table).Nodup)
    (otherDiffer : (keys other).Nodup) (same : ∀ key, get? table key = get? other key) :
    table.Perm other := by
  apply (List.perm_ext_iff_of_nodup (nodup_of_keys table differ)
    (nodup_of_keys other otherDiffer)).mpr
  rintro ⟨key, value⟩
  rw [← get?_eq_some_iff table key value differ, ← get?_eq_some_iff other key value otherDiffer,
    same key]

theorem eq_of_get? (table other : Table α) (differ : (keys table).Nodup)
    (sameKeys : keys other = keys table) (same : ∀ key, get? other key = get? table key) :
    other = table := by
  induction table generalizing other with
  | nil => exact List.map_eq_nil_iff.mp sameKeys
  | cons entry rest ih =>
    cases other with
    | nil => cases sameKeys
    | cons twin others =>
      obtain ⟨fresh, restDiffer⟩ := List.nodup_cons.mp differ
      obtain ⟨sameKey, sameRest⟩ := List.cons.inj sameKeys
      have here := same entry.1
      simp only [get?, if_pos sameKey, if_true, Option.some.injEq] at here
      rw [Prod.ext sameKey here]
      refine congrArg (entry :: ·) (ih others restDiffer sameRest fun key => ?_)
      by_cases first : entry.1 = key
      · have absent : key ∉ keys rest := first ▸ fresh
        have absentToo : key ∉ keys others := by rwa [keys, sameRest]
        rw [(get?_eq_none_iff rest key).mpr absent, (get?_eq_none_iff _ key).mpr absentToo]
      · have later := same key
        simpa only [get?, sameKey, if_neg first] using later

theorem eq_of_perm_of_ascending (table other : Table α) (ascending : Ascending table)
    (otherAscending : Ascending other) (reordered : table.Perm other) : table = other := by
  have below : table.Pairwise fun a b => a.1 < b.1 := List.pairwise_map.mp ascending
  have otherBelow : other.Pairwise fun a b => a.1 < b.1 := List.pairwise_map.mp otherAscending
  refine List.Perm.eq_of_pairwise ?_ below otherBelow reordered
  exact fun _ _ _ _ less greater => absurd greater (String.lt_asymm less)

theorem eq_of_ascending (table other : Table α) (ascending : Ascending table)
    (otherAscending : Ascending other) (same : ∀ key, get? table key = get? other key) :
    table = other :=
  eq_of_perm_of_ascending table other ascending otherAscending
    (perm_of_get? table other (nodup_of_ascending table ascending)
      (nodup_of_ascending other otherAscending) same)

theorem sorted_eq_iff (table other : Table α) (differ : (keys table).Nodup)
    (otherDiffer : (keys other).Nodup) :
    sorted table = sorted other ↔ ∀ key, get? table key = get? other key := by
  constructor
  · intro same key
    rw [← get?_sorted table differ, same, get?_sorted other otherDiffer]
  · intro same
    apply eq_of_ascending _ _ (ascending_sorted table) (ascending_sorted other)
    intro key
    rw [get?_sorted table differ, get?_sorted other otherDiffer, same key]

theorem place_map (f : α → β) (table : Table α) (key : String) (value : α) :
    place (table.map fun entry => (entry.1, f entry.2)) key (f value) =
      (place table key value).map fun entry => (entry.1, f entry.2) := by
  induction table with
  | nil => rfl
  | cons entry rest ih =>
    obtain ⟨k, old⟩ := entry
    by_cases same : k = key
    · simp [place, same]
    · by_cases before : key < k
      · simp [place, same, before]
      · simp [place, same, before, ih]

theorem keys_place_congr (table : Table α) (other : Table β) (key : String) (value : α) (twin : β)
    (same : keys table = keys other) : keys (place table key value) = keys (place other key twin) := by
  have bare {γ : Type} (table : Table γ) (value : γ) :
      keys (place ((keys table).map fun k => (k, ())) key ()) = keys (place table key value) := by
    have erased := congrArg keys (place_map (fun _ => ()) table key value)
    simpa [keys, Function.comp_def] using erased
  rw [← bare table value, same, bare other twin]

theorem sorted_map (f : α → β) (entries : Table α) :
    sorted (entries.map fun entry => (entry.1, f entry.2)) =
      (sorted entries).map fun entry => (entry.1, f entry.2) := by
  have folded : ∀ table : Table α,
      (entries.map fun entry => (entry.1, f entry.2)).foldl
          (fun table entry => place table entry.1 entry.2)
          (table.map fun entry => (entry.1, f entry.2)) =
        (entries.foldl (fun table entry => place table entry.1 entry.2) table).map
          fun entry => (entry.1, f entry.2) := by
    induction entries with
    | nil => exact fun _ => rfl
    | cons entry rest ih =>
      intro table
      simp only [List.map_cons, List.foldl_cons, place_map]
      exact ih _
  exact folded []

end Envelope.Table
