import Envelope.Proofs.Json.Visits

set_option autoImplicit false

namespace Envelope.Json

def Insertions.addedAt (insertions : Insertions) (pointer : Pointer) : Table Json :=
  (Table.get? insertions (Pointer.text pointer)).getD []

def Insertions.share (entry : String × Table Json) (pointer : Pointer) : Nat :=
  if pointer <+: Pointer.split entry.1 then membersDepth entry.2 else 0

def Insertions.weight : Insertions → Pointer → Nat
  | [], _ => 0
  | entry :: rest, pointer => Insertions.share entry pointer + Insertions.weight rest pointer

theorem weight_root (insertions : Insertions) : insertions.weight [] = insertions.depth := by
  induction insertions with
  | nil => rfl
  | cons entry rest ih =>
    rw [Insertions.weight, Insertions.share, if_pos List.nil_prefix, ih]
    rfl

theorem share_below_le (entry : String × Table Json) (pointer : Pointer) (segment : String) :
    Insertions.share entry (pointer ++ [segment]) ≤ Insertions.share entry pointer := by
  by_cases within : pointer ++ [segment] <+: Pointer.split entry.1
  · have above := (List.prefix_append pointer [segment]).trans within
    exact Nat.le_of_eq ((if_pos within).trans (if_pos above).symm)
  · rw [Insertions.share, if_neg within]
    exact Nat.zero_le _

theorem share_here (entry : String × Table Json) (pointer : Pointer)
    (here : entry.1 = Pointer.text pointer) :
    Insertions.share entry pointer = membersDepth entry.2 := by
  rw [Insertions.share, here, Pointer.split_text]
  exact if_pos List.prefix_rfl

theorem share_below (entry : String × Table Json) (pointer : Pointer) (segment : String)
    (here : entry.1 = Pointer.text pointer) :
    Insertions.share entry (pointer ++ [segment]) = 0 := by
  rw [Insertions.share, here, Pointer.split_text]
  refine if_neg fun within => ?_
  have longer := within.length_le
  rw [List.length_append, List.length_singleton] at longer
  omega

theorem weight_below_le (insertions : Insertions) (pointer : Pointer) (segment : String) :
    insertions.weight (pointer ++ [segment]) ≤ insertions.weight pointer := by
  induction insertions with
  | nil => exact Nat.le_refl 0
  | cons entry rest ih => exact Nat.add_le_add (share_below_le entry pointer segment) ih

theorem weight_below_add_le (insertions : Insertions) (pointer : Pointer) (segment : String) :
    insertions.weight (pointer ++ [segment]) + membersDepth (insertions.addedAt pointer) ≤
      insertions.weight pointer := by
  induction insertions with
  | nil => exact Nat.le_refl 0
  | cons entry rest ih =>
    rw [Insertions.weight, Insertions.weight, Insertions.addedAt, Table.get?]
    by_cases here : entry.1 = Pointer.text pointer
    · have lighter := weight_below_le rest pointer segment
      rw [if_pos here, Option.getD_some, share_here entry pointer here,
        share_below entry pointer segment here]
      omega
    · have lighter := share_below_le entry pointer segment
      rw [if_neg here, ← Insertions.addedAt]
      omega

theorem inserting_stopped (insertions : Insertions) (pointer : Pointer) (members : Table Json)
    (visited : List Pointer) :
    inserting insertions (some (visited.length + 1)) ⟨pointer, members⟩ visited =
      (visited ++ [pointer], .error ⟨visited.length + 1⟩) := by
  simp [inserting]

theorem inserting_passed (insertions : Insertions) (stopAt : Option Nat) (pointer : Pointer)
    (members : Table Json) (visited : List Pointer) (other : stopAt ≠ some (visited.length + 1)) :
    inserting insertions stopAt ⟨pointer, members⟩ visited =
      (visited ++ [pointer], .ok (Table.putAll members (insertions.addedAt pointer))) := by
  simp only [inserting, List.length_append, List.length_singleton, if_neg other]
  rfl

theorem eq_of_inserting (insertions : Insertions) (stopAt : Option Nat) (pointer : Pointer)
    (members new : Table Json) (visited after : List Pointer)
    (inserted : inserting insertions stopAt ⟨pointer, members⟩ visited = (after, .ok new)) :
    after = visited ++ [pointer] ∧ new = Table.putAll members (insertions.addedAt pointer) := by
  by_cases stopped : stopAt = some (visited.length + 1)
  · rw [stopped, inserting_stopped] at inserted
    cases inserted
  · rw [inserting_passed insertions stopAt pointer members visited stopped] at inserted
    cases inserted
    exact ⟨rfl, rfl⟩

-- Each visit uses up what is inserted there, so that a child has less before it than its parent.
theorem falls_inserting (insertions : Insertions) (stopAt : Option Nat) :
    Falls (inserting insertions stopAt) fun pointer value =>
      value.depth + insertions.weight pointer where
  depth_le _ _ := Nat.le_add_right _ _
  item pointer items index item present := by
    have among := List.mem_of_getElem? present
    have less := (items_depth_le_iff items _).mp (Nat.le_refl _) item among
    have lighter := weight_below_le insertions pointer (Pointer.indexSegment index)
    simp only [depth]
    omega
  member pointer members visited after new inserted entry member := by
    obtain ⟨-, rfl⟩ := eq_of_inserting insertions stopAt pointer members new visited after inserted
    have lighter := weight_below_add_le insertions pointer entry.1
    simp only [depth]
    rcases Table.mem_put_all _ members entry member with added | before
    · have less := (members_depth_le_iff _ _).mp (Nat.le_refl _) entry added
      omega
    · have less := (members_depth_le_iff members _).mp (Nat.le_refl _) entry before
      omega

theorem well_formed_put_all (insertions : Insertions)
    (sound : ∀ entry ∈ insertions, MembersWellFormed entry.2) (pointer : Pointer)
    (members : Table Json) (wellFormed : (Part.children members).WellFormed) :
    (Part.children (Table.putAll members (insertions.addedAt pointer))).WellFormed := by
  refine ⟨Table.nodup_keys_put_all _ members wellFormed.1, (members_well_formed_iff _).mpr ?_⟩
  intro entry member
  rcases Table.mem_put_all _ members entry member with added | before
  · rw [Insertions.addedAt] at added
    cases found : Table.get? insertions (Pointer.text pointer) with
    | none => simp [found] at added
    | some entries =>
      rw [found, Option.getD_some] at added
      have allSound := sound _ (Table.mem_of_get? insertions _ entries found)
      exact (members_well_formed_iff entries).mp allSound entry added
  · exact (members_well_formed_iff members).mp wellFormed.2 entry before

def growing (insertions : Insertions) (place : Pointer) : Replacement := fun pointer value =>
  if pointer = place then
    value.members?.map fun members => .obj (Table.putAll members (insertions.addedAt place))
  else none

theorem growing_elsewhere (insertions : Insertions) (place pointer : Pointer) (value : Json)
    (elsewhere : pointer ≠ place) : growing insertions place pointer value = none :=
  if_neg elsewhere

theorem growing_array (insertions : Insertions) (place pointer : Pointer) (items : List Json) :
    growing insertions place pointer (.arr items) = none :=
  ite_self none

theorem growing_below_other (insertions : Insertions) (place pointer : Pointer)
    (segments : String → Prop) (below : Pointer.Below pointer segments place) (segment : String)
    (other : ¬ segments segment) (tail : Pointer) (value : Json) :
    growing insertions place (pointer ++ segment :: tail) value = none :=
  growing_elsewhere insertions place _ value fun same =>
    other (Pointer.segment_of_below pointer tail segments segment (same ▸ below))

def grownFrom (insertions : Insertions) (pointer : Pointer) (places : List Pointer) (value : Json) :
    Json :=
  places.foldl (fun value place => rewriteFrom (growing insertions place) pointer value) value

def grownMembers (insertions : Insertions) (pointer : Pointer) (places : List Pointer)
    (members : Table Json) : Table Json :=
  places.foldl (fun members place => rewriteMembers (growing insertions place) pointer members) members

theorem grown_from_here (insertions : Insertions) (pointer : Pointer) (places : List Pointer)
    (members : Table Json) :
    grownFrom insertions pointer (pointer :: places) (.obj members) =
      grownFrom insertions pointer places
        (.obj (Table.putAll members (insertions.addedAt pointer))) := by
  have grows := rewrite_from_eq_some (growing insertions pointer) pointer (.obj members) _ (if_pos rfl)
  rw [grownFrom, List.foldl_cons, grows]
  rfl

theorem grown_from_object (insertions : Insertions) (pointer : Pointer) (places : List Pointer)
    (members : Table Json) (elsewhere : ∀ place ∈ places, pointer ≠ place) :
    grownFrom insertions pointer places (.obj members) =
      .obj (grownMembers insertions pointer places members) := by
  induction places generalizing members with
  | nil => rfl
  | cons place rest ih =>
    have kept := growing_elsewhere insertions place pointer (.obj members)
      (elsewhere place List.mem_cons_self)
    rw [grownFrom, List.foldl_cons, rewrite_from_obj _ pointer members kept]
    exact ih _ fun other later => elsewhere other (List.mem_cons_of_mem _ later)

theorem grown_from_array (insertions : Insertions) (pointer : Pointer) (places : List Pointer)
    (items : List Json) :
    grownFrom insertions pointer places (.arr items) =
      .arr ((grownMembers insertions pointer places (labelled 0 items)).map Prod.snd) := by
  induction places generalizing items with
  | nil => exact congrArg Json.arr (map_snd_labelled 0 items).symm
  | cons place rest ih =>
    have kept := growing_array insertions place pointer items
    rw [grownFrom, List.foldl_cons, rewrite_from_arr _ pointer items kept, grownMembers,
      List.foldl_cons, ← labelled_rewrite_items]
    exact ih _

theorem keys_grown_members (insertions : Insertions) (pointer : Pointer) (places : List Pointer)
    (members : Table Json) :
    Table.keys (grownMembers insertions pointer places members) = Table.keys members := by
  induction places generalizing members with
  | nil => rfl
  | cons place rest ih => exact (ih _).trans (keys_rewrite_members _ pointer members)

theorem grown_members_first (insertions : Insertions) (pointer : Pointer) (places : List Pointer)
    (segment : String) (child : Json) (rest : Table Json) (fresh : segment ∉ Table.keys rest)
    (below : ∀ place ∈ places, Pointer.Below pointer (· = segment) place) :
    grownMembers insertions pointer places ((segment, child) :: rest) =
      (segment, grownFrom insertions (pointer ++ [segment]) places child) :: rest := by
  induction places generalizing child with
  | nil => rfl
  | cons place others ih =>
    have grows := rewrite_members_cons (growing insertions place) (growing insertions place)
      (fun _ _ => none) pointer segment child rest (fun _ _ => rfl) fun other present tail inner =>
        growing_below_other insertions place pointer _ (below place List.mem_cons_self) other
          (fun same => fresh (same ▸ present)) tail inner
    rw [grownMembers, List.foldl_cons, grows, rewrite_members_none]
    exact ih _ fun other later => below other (List.mem_cons_of_mem _ later)

theorem grown_members_later (insertions : Insertions) (pointer : Pointer) (places : List Pointer)
    (segment : String) (child : Json) (rest : Table Json) (fresh : segment ∉ Table.keys rest)
    (below : ∀ place ∈ places, Pointer.Below pointer (· ∈ Table.keys rest) place) :
    grownMembers insertions pointer places ((segment, child) :: rest) =
      (segment, child) :: grownMembers insertions pointer places rest := by
  induction places generalizing rest with
  | nil => rfl
  | cons place others ih =>
    have grows := rewrite_members_cons (growing insertions place) (fun _ _ => none)
      (growing insertions place) pointer segment child rest (fun tail inner =>
        growing_below_other insertions place pointer _ (below place List.mem_cons_self) segment fresh
          tail inner) fun _ _ _ _ => rfl
    have same := keys_rewrite_members (growing insertions place) pointer rest
    rw [grownMembers, List.foldl_cons, grows, rewrite_from_none]
    refine ih _ (same ▸ fresh) fun other later => ?_
    rw [same]
    exact below other (List.mem_cons_of_mem _ later)

-- Places below the first child and then places below the others: each child has its own.
theorem grown_members_cons (insertions : Insertions) (pointer : Pointer) (front back : List Pointer)
    (segment : String) (child : Json) (rest : Table Json) (fresh : segment ∉ Table.keys rest)
    (first : ∀ place ∈ front, Pointer.Below pointer (· = segment) place)
    (others : ∀ place ∈ back, Pointer.Below pointer (· ∈ Table.keys rest) place) :
    grownMembers insertions pointer (front ++ back) ((segment, child) :: rest) =
      (segment, grownFrom insertions (pointer ++ [segment]) front child) ::
        grownMembers insertions pointer back rest := by
  have opened := grown_members_first insertions pointer front segment child rest fresh first
  rw [grownMembers] at opened
  rw [grownMembers, List.foldl_append, opened]
  exact grown_members_later insertions pointer back segment _ rest fresh others

def Part.grown (insertions : Insertions) (pointer : Pointer) (places : List Pointer) : Part → Part
  | .value whole => .value (grownFrom insertions pointer places whole)
  | .children members => .children (grownMembers insertions pointer places members)

def Part.places (pointer : Pointer) (part : Part) : List Pointer :=
  (part.visits pointer).map Visit.pointer

theorem below_of_mem_child (pointer place : Pointer) (segment : String) (child : Json)
    (member : place ∈ (Part.value child).places (pointer ++ [segment])) :
    Pointer.Below pointer (· = segment) place := by
  obtain ⟨rest, eq⟩ := prefix_of_mem_places_from _ place child
    ((visits_from_sublist everywhere _ child).subset member)
  exact Pointer.below_of_prefix pointer place rest segment eq.symm

theorem below_of_mem_children (pointer place : Pointer) (members : Table Json)
    (member : place ∈ (Part.children members).places pointer) :
    Pointer.Below pointer (· ∈ Table.keys members) place := by
  obtain ⟨entry, among, tail, eq⟩ := below_of_mem_member_places pointer place members
    (fun entry _ inner => prefix_of_mem_places_from _ inner entry.2)
    ((member_visits_sublist everywhere pointer .all members).subset member)
  exact ⟨entry.1, List.mem_map_of_mem among, tail, eq⟩

-- The places that a walk of a part to its end visits, with what they tell of the walks that are
-- stopped on the way: those that are stopped elsewhere pass here, and those that are stopped here
-- have done what was to be done at the places before.
structure Traced (insertions : Insertions) (pointer : Pointer) (part : Part)
    (visited places : List Pointer) : Prop where
  seen : (part.grown insertions pointer places).places pointer = places
  passes : ∀ stopAt, (∀ n, n < places.length → stopAt ≠ some (visited.length + n + 1)) →
    Walked (inserting insertions stopAt) pointer part visited
      ⟨part.grown insertions pointer places, visited ++ places, none⟩
  stops : ∀ n, n < places.length →
    Walked (inserting insertions (some (visited.length + n + 1))) pointer part visited
      ⟨part.grown insertions pointer (places.take n), visited ++ places.take (n + 1),
        some ⟨visited.length + n + 1⟩⟩

theorem traced_scalar (insertions : Insertions) (pointer : Pointer) (value : Json)
    (visited : List Pointer) (flat : value.depth = 0) :
    Traced insertions pointer (.value value) visited [] where
  seen := by
    change (visitsFrom everywhere pointer value).map Visit.pointer = []
    rw [visits_from_of_flat everywhere pointer value flat, List.map_nil]
  passes stopAt _ := by
    rw [List.append_nil]
    exact .scalar pointer value visited flat
  stops _ less := nomatch less

theorem traced_done (insertions : Insertions) (pointer : Pointer) (visited : List Pointer) :
    Traced insertions pointer (.children []) visited [] where
  seen := rfl
  passes stopAt _ := by
    rw [List.append_nil]
    exact .done pointer visited
  stops _ less := nomatch less

theorem traced_object (insertions : Insertions) (pointer : Pointer) (members : Table Json)
    (visited places : List Pointer)
    (inside : Traced insertions pointer
      (.children (Table.putAll members (insertions.addedAt pointer))) (visited ++ [pointer]) places) :
    Traced insertions pointer (.value (.obj members)) visited (pointer :: places) := by
  have elsewhere : ∀ place ∈ places, pointer ≠ place := by
    intro place member same
    subst same
    rw [← inside.seen] at member
    exact Pointer.not_below_self pointer _ (below_of_mem_children pointer pointer _ member)
  have grown : ∀ front : List Pointer, (∀ place ∈ front, place ∈ places) →
      (Part.value (.obj members)).grown insertions pointer (pointer :: front) =
        .value (.obj (grownMembers insertions pointer front
          (Table.putAll members (insertions.addedAt pointer)))) := by
    intro front among
    rw [Part.grown, grown_from_here, grown_from_object insertions pointer front]
    exact fun place member => elsewhere place (among place member)
  refine ⟨?_, fun stopAt others => ?_, fun n less => ?_⟩
  · have seen := inside.seen
    rw [grown places fun _ => id, Part.places, visits_object, List.map_cons]
    exact congrArg (pointer :: ·) seen
  · have passed := inside.passes stopAt fun n less => by
      have other := others (n + 1) (Nat.succ_lt_succ less)
      rwa [List.length_append, List.length_singleton, Nat.add_assoc visited.length, Nat.add_comm 1 n]
    rw [grown places fun _ => id]
    rw [List.append_assoc] at passed
    exact .object pointer members _ _ visited _ _ none
      (inserting_passed insertions stopAt pointer members visited (others 0 (Nat.succ_pos _))) passed
  · cases n with
    | zero =>
      exact .refused pointer members visited _ _
        (inserting_stopped insertions pointer members visited)
    | succ n =>
      have stopped := inside.stops n (Nat.lt_of_succ_lt_succ less)
      rw [List.length_append, List.length_singleton, Nat.add_assoc visited.length, Nat.add_comm 1 n,
        List.append_assoc] at stopped
      rw [List.take_succ_cons, List.take_succ_cons, grown _ fun _ => List.mem_of_mem_take]
      refine .object pointer members _ _ visited _ _ _
        (inserting_passed insertions _ pointer members visited ?_) stopped
      intro same
      have equal := Option.some.inj same
      omega

theorem traced_array (insertions : Insertions) (pointer : Pointer) (items : List Json)
    (visited places : List Pointer)
    (inside : Traced insertions pointer (.children (labelled 0 items)) visited places) :
    Traced insertions pointer (.value (.arr items)) visited places := by
  have grown : ∀ front, (Part.value (.arr items)).grown insertions pointer front =
      .value (.arr ((grownMembers insertions pointer front (labelled 0 items)).map Prod.snd)) :=
    fun front => congrArg Part.value (grown_from_array insertions pointer front items)
  refine ⟨?_, fun stopAt others => ?_, fun n less => ?_⟩
  · have seen := inside.seen
    rw [grown, Part.places, visits_array,
      labelled_map_snd 0 items _ (keys_grown_members insertions pointer places _)]
    exact seen
  · rw [grown]
    exact .array pointer items _ visited _ _ (inside.passes stopAt others)
  · rw [grown]
    exact .array pointer items _ visited _ _ (inside.stops n less)

theorem traced_cons (insertions : Insertions) (pointer : Pointer) (segment : String) (child : Json)
    (rest : Table Json) (visited front back : List Pointer) (fresh : segment ∉ Table.keys rest)
    (first : Traced insertions (pointer ++ [segment]) (.value child) visited front)
    (others : Traced insertions pointer (.children rest) (visited ++ front) back) :
    Traced insertions pointer (.children ((segment, child) :: rest)) visited (front ++ back) := by
  have firstBelow : ∀ place ∈ front, Pointer.Below pointer (· = segment) place := by
    intro place member
    rw [← first.seen] at member
    exact below_of_mem_child pointer place segment _ member
  have othersBelow : ∀ place ∈ back, Pointer.Below pointer (· ∈ Table.keys rest) place := by
    intro place member
    rw [← others.seen] at member
    have below := below_of_mem_children pointer place _ member
    rwa [keys_grown_members] at below
  have grown : ∀ now later : List Pointer, (∀ place ∈ now, place ∈ front) →
      (∀ place ∈ later, place ∈ back) →
      (Part.children ((segment, child) :: rest)).grown insertions pointer (now ++ later) =
        .children ((segment, grownFrom insertions (pointer ++ [segment]) now child) ::
          grownMembers insertions pointer later rest) := fun now later inFront inBack =>
    congrArg Part.children (grown_members_cons insertions pointer now later segment child rest fresh
      (fun place member => firstBelow place (inFront place member))
      fun place member => othersBelow place (inBack place member))
  refine ⟨?_, fun stopAt elsewhere => ?_, fun n less => ?_⟩
  · have seen := first.seen
    have seenLater := others.seen
    rw [grown front back (fun _ => id) fun _ => id, Part.places, visits_cons, List.map_append]
    exact congr (congrArg (· ++ ·) seen) seenLater
  · have passed := first.passes stopAt fun n less => elsewhere n (by rw [List.length_append]; omega)
    have passedLater := others.passes stopAt fun n less => by
      have other := elsewhere (front.length + n) (by rw [List.length_append]; omega)
      rwa [List.length_append, Nat.add_assoc visited.length]
    rw [grown front back (fun _ => id) fun _ => id]
    rw [List.append_assoc] at passedLater
    exact .goesOn pointer segment child _ rest _ visited _ _ none passed passedLater
  · by_cases early : n < front.length
    · have stopped := first.stops n early
      rw [List.take_append_of_le_length (Nat.le_of_lt early), List.take_append_of_le_length early]
      have here := grown (front.take n) [] (fun _ => List.mem_of_mem_take) fun _ none => nomatch none
      rw [List.append_nil] at here
      rw [here]
      exact .stops pointer segment child _ rest visited _ _ stopped
    · obtain ⟨m, rfl⟩ := Nat.exists_eq_add_of_le (Nat.le_of_not_lt early)
      rw [List.length_append] at less
      have passed := first.passes (some (visited.length + (front.length + m) + 1)) fun n less same => by
        have equal := Option.some.inj same
        omega
      have stopped := others.stops m (by omega)
      rw [List.length_append, Nat.add_assoc visited.length, List.append_assoc] at stopped
      rw [Nat.add_assoc front.length m 1, List.take_length_add_append, List.take_length_add_append,
        grown front (back.take m) (fun _ => id) fun _ => List.mem_of_mem_take]
      exact .goesOn pointer segment child _ rest _ visited _ _ _ passed stopped

theorem exists_traced (insertions : Insertions)
    (sound : ∀ entry ∈ insertions, MembersWellFormed entry.2) (pointer : Pointer) (part : Part)
    (visited : List Pointer) (result : Edited (List Pointer) Stopped Part)
    (wellFormed : part.WellFormed)
    (walked : Walked (inserting insertions none) pointer part visited result) :
    ∃ places, Traced insertions pointer part visited places := by
  induction walked with
  | scalar pointer value visited flat =>
    exact ⟨[], traced_scalar insertions pointer value visited flat⟩
  | refused pointer members visited after failure fails =>
    rw [inserting_passed insertions none pointer members visited nofun] at fails
    cases fails
  | object pointer members new left visited after final failure inserted inside ih =>
    obtain ⟨rfl, rfl⟩ := eq_of_inserting insertions none pointer members new visited after inserted
    obtain ⟨places, traced⟩ := ih (well_formed_put_all insertions sound pointer members wellFormed)
    exact ⟨_, traced_object insertions pointer members visited places traced⟩
  | array pointer items left visited final failure inside ih =>
    obtain ⟨places, traced⟩ := ih
      ⟨nodup_keys_labelled 0 items, (members_well_formed_labelled_iff 0 items).mpr wellFormed⟩
    exact ⟨_, traced_array insertions pointer items visited places traced⟩
  | done pointer visited => exact ⟨[], traced_done insertions pointer visited⟩
  | stops pointer segment child changed rest visited final failure here ih =>
    obtain ⟨places, traced⟩ := ih wellFormed.2.1
    cases Walked.unique _ _ _ _ _ _ here (traced.passes none nofun)
  | goesOn pointer segment child changed rest left visited after final failure here later ih ihLater =>
    obtain ⟨fresh, differ⟩ := List.nodup_cons.mp wellFormed.1
    obtain ⟨front, first⟩ := ih wellFormed.2.1
    cases Walked.unique _ _ _ _ _ _ here (first.passes none nofun)
    obtain ⟨back, others⟩ := ihLater ⟨differ, wellFormed.2.2⟩
    exact ⟨_, traced_cons insertions pointer segment child rest visited front back fresh first others⟩

-- There is as much fuel as the weight counts, so the walk is the one that no fuel bounds.
theorem walked_insert_all_iff (insertions : Insertions) (stopAt : Option Nat) (document : Json)
    (result : Edited (List Pointer) Stopped Json) :
    Walked (inserting insertions stopAt) [] (.value document) [] (result.map .value) ↔
      insertAll insertions stopAt document = result := by
  have falls := falls_inserting insertions stopAt
  have enough : document.depth + insertions.weight [] ≤ document.depth + insertions.depth :=
    Nat.le_of_eq (congrArg (document.depth + ·) (weight_root insertions))
  constructor
  · exact eq_of_walked _ _ falls _ [] document [] enough result
  · intro same
    rw [← same]
    exact walked_edit_from _ _ falls _ [] document [] enough

def grown (insertions : Insertions) (places : List Pointer) (document : Json) : Json :=
  places.foldl (fun document place => rewrite (growing insertions place) document) document

theorem well_formed_insert_all (insertions : Insertions)
    (sound : ∀ entry ∈ insertions, MembersWellFormed entry.2) (stopAt : Option Nat) (document : Json)
    (wellFormed : document.WellFormed) :
    (insertAll insertions stopAt document).value.WellFormed := by
  have walked := (walked_insert_all_iff insertions stopAt document _).mpr rfl
  refine Walked.well_formed _ ?_ [] _ [] _ walked wellFormed
  intro pointer members visited after new membersWellFormed inserted
  obtain ⟨-, rfl⟩ := eq_of_inserting insertions stopAt pointer members new visited after inserted
  exact well_formed_put_all insertions sound pointer members membersWellFormed

/-- A walk that inserts members into the objects that it visits ends, with the one result that a walk
without a bound has. It visits what a walk of the document that it leaves visits, and no pointer
twice. Where it is stopped at a visit, it has visited the same pointers up to there, and has left the
document with what is to be inserted at those before. -/
theorem insert_all_visits_result (insertions : Insertions) (document : Json)
    (sound : ∀ entry ∈ insertions, MembersWellFormed entry.2) (wellFormed : document.WellFormed) :
    (∀ stopAt result,
        Walked (inserting insertions stopAt) [] (.value document) [] (result.map .value) ↔
          insertAll insertions stopAt document = result) ∧
      ∃ places : List Pointer,
        insertAll insertions none document = ⟨grown insertions places document, places, none⟩ ∧
        (visits everywhere (grown insertions places document)).map Visit.pointer = places ∧
        (places.map Pointer.text).Nodup ∧
        (∀ n, n < places.length → insertAll insertions (some (n + 1)) document =
          ⟨grown insertions (places.take n) document, places.take (n + 1), some ⟨n + 1⟩⟩) ∧
        ∀ k, k = 0 ∨ places.length < k →
          insertAll insertions (some k) document = insertAll insertions none document := by
  have ends := walked_insert_all_iff insertions
  obtain ⟨places, traced⟩ := exists_traced insertions sound [] (.value document) [] _ wellFormed
    ((ends none document _).mpr rfl)
  have whole : ∀ stopAt, (∀ n, n < places.length → stopAt ≠ some (0 + n + 1)) →
      insertAll insertions stopAt document = ⟨grown insertions places document, places, none⟩ :=
    fun stopAt elsewhere => (ends stopAt document _).mp (traced.passes stopAt elsewhere)
  refine ⟨fun stopAt => ends stopAt document, places, whole none nofun, traced.seen, ?_,
    fun n less => ?_, fun k outside => ?_⟩
  · have kept := well_formed_insert_all insertions sound none document wellFormed
    rw [whole none nofun] at kept
    have differ := nodup_visits everywhere _ kept
    have seen : (visits everywhere (grown insertions places document)).map Visit.pointer = places :=
      traced.seen
    rw [seen] at differ
    exact nodup_texts places differ
  · have stopped := traced.stops n less
    rw [List.length_nil, Nat.zero_add] at stopped
    exact (ends _ document _).mp stopped
  · rw [whole none nofun, whole (some k) fun n less same => ?_]
    have equal := Option.some.inj same
    omega

def replacedDocument : Json :=
  .obj [("in", .obj [("old", .obj [])]), ("list", .arr [.null, .obj []])]

-- What is inserted is inserted into in turn, and what it replaces is not.
def nestedInsertions : Insertions :=
  [("", [("in", .obj [("new", .obj [])])]), ("/in/new", [("deep", .obj [])]),
    ("/in/old", [("never", .null)])]

theorem insert_all_visits_result_nested :
    (∀ entry ∈ nestedInsertions, MembersWellFormed entry.2) ∧ replacedDocument.WellFormed ∧
      (insertAll nestedInsertions none replacedDocument).state.map Pointer.text =
        ["", "/in", "/in/new", "/in/new/deep", "/list/1"] ∧
      insertAll nestedInsertions (some 3) replacedDocument =
        ⟨.obj [("in", .obj [("new", .obj [])]), ("list", .arr [.null, .obj []])],
          [[], ["in"], ["in", "new"]], some ⟨3⟩⟩ ∧
      insertAll nestedInsertions (some 6) replacedDocument =
        insertAll nestedInsertions none replacedDocument := by
  have sound : ∀ entry ∈ nestedInsertions, MembersWellFormed entry.2 := by
    simp [nestedInsertions, WellFormed, MembersWellFormed, Table.keys]
  have wellFormed : replacedDocument.WellFormed := by
    simp [replacedDocument, WellFormed, MembersWellFormed, ItemsWellFormed, Table.keys]
  obtain ⟨-, places, whole, -, -, stopped, passed⟩ :=
    insert_all_visits_result nestedInsertions replacedDocument sound wellFormed
  have visited : places = [[], ["in"], ["in", "new"], ["in", "new", "deep"], ["list", "1"]] :=
    (congrArg Edited.state whole).symm.trans (by decide)
  subst visited
  refine ⟨sound, wellFormed, by rw [whole]; decide, ?_, passed 6 (by decide)⟩
  rw [stopped 2 (by decide)]
  have left : grown nestedInsertions [[], ["in"]] replacedDocument =
      .obj [("in", .obj [("new", .obj [])]), ("list", .arr [.null, .obj []])] := by decide
  exact congrArg (Edited.mk · _ _) left

end Envelope.Json
