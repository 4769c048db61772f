import Envelope.Json.Edit
import Envelope.Proofs.Json.Rewrite
import Envelope.Proofs.Json.Walk

set_option autoImplicit false

namespace Envelope.Json

def labelled : Nat → List Json → Table Json
  | _, [] => []
  | start, item :: rest => (Pointer.indexSegment start, item) :: labelled (start + 1) rest

theorem map_snd_labelled (start : Nat) (items : List Json) :
    (labelled start items).map Prod.snd = items := by
  induction items generalizing start with
  | nil => rfl
  | cons item rest ih => rw [labelled, List.map_cons, ih]

theorem mem_labelled (start : Nat) (items : List Json) (entry : String × Json)
    (member : entry ∈ labelled start items) :
    ∃ index, entry.1 = Pointer.indexSegment (start + index) ∧ items[index]? = some entry.2 := by
  induction items generalizing start with
  | nil => cases member
  | cons item rest ih =>
    rcases List.mem_cons.mp member with rfl | later
    · exact ⟨0, rfl, rfl⟩
    · obtain ⟨index, named, present⟩ := ih (start + 1) later
      exact ⟨index + 1, by rw [named, Nat.add_assoc, Nat.add_comm 1], present⟩

theorem nodup_keys_labelled (start : Nat) (items : List Json) :
    (Table.keys (labelled start items)).Nodup := by
  induction items generalizing start with
  | nil => exact List.nodup_nil
  | cons item rest ih =>
    refine List.nodup_cons.mpr ⟨fun again => ?_, ih (start + 1)⟩
    obtain ⟨entry, later, same⟩ := List.mem_map.mp again
    obtain ⟨index, named, -⟩ := mem_labelled (start + 1) rest entry later
    have equal := Pointer.index_segment_injective _ _ (named.symm.trans same)
    omega

theorem members_well_formed_labelled_iff (start : Nat) (items : List Json) :
    MembersWellFormed (labelled start items) ↔ ItemsWellFormed items := by
  induction items generalizing start with
  | nil => exact Iff.rfl
  | cons item rest ih => exact and_congr_right fun _ => ih (start + 1)

theorem labelled_map_snd (start : Nat) (items : List Json) (members : Table Json)
    (same : Table.keys members = Table.keys (labelled start items)) :
    labelled start (members.map Prod.snd) = members := by
  induction members generalizing start items with
  | nil => rfl
  | cons member rest ih =>
    cases items with
    | nil => cases same
    | cons item others =>
      obtain ⟨first, later⟩ := List.cons.inj same
      rw [List.map_cons, labelled, ih (start + 1) others later]
      exact congrArg (fun key => (key, member.2) :: rest) first.symm

theorem item_visits_eq_member_visits (guide : Guide) (pointer : Pointer) (start : Nat)
    (items : List Json) :
    itemVisits guide pointer start items = memberVisits guide pointer .all (labelled start items) := by
  induction items generalizing start with
  | nil => rfl
  | cons item rest ih =>
    rw [itemVisits, labelled, memberVisits, ih, Reach.covers, if_pos rfl]

theorem labelled_rewrite_items (replacement : Replacement) (pointer : Pointer) (start : Nat)
    (items : List Json) :
    labelled start (rewriteItems replacement pointer start items) =
      rewriteMembers replacement pointer (labelled start items) := by
  induction items generalizing start with
  | nil => rfl
  | cons item rest ih => rw [rewriteItems, labelled, labelled, rewriteMembers, ih]

section

variable {σ ε : Type}

def Edited.map {α β : Type} (f : α → β) (edited : Edited σ ε α) : Edited σ ε β :=
  ⟨f edited.value, edited.state, edited.failure⟩

theorem sweep_members_labelled (step : Pointer → Json → σ → Edited σ ε Json) (pointer : Pointer)
    (start : Nat) (items : List Json) (state : σ) :
    sweepMembers step pointer (labelled start items) state =
      (sweepItems step pointer start items state).map (labelled start) := by
  induction items generalizing start state with
  | nil => rfl
  | cons item rest ih =>
    rw [labelled, sweepMembers, sweepItems]
    cases failure : (step (pointer ++ [Pointer.indexSegment start]) item state).failure with
    | some cause => simp only [Edited.map, labelled]
    | none => simp only [ih, Edited.map, labelled]

-- What a walk has before it: a value, or children of one, each under its segment.
inductive Part where
  | value (value : Json)
  | children (children : Table Json)

-- What a walk makes of a part: the part that it leaves, the state, and the failure that ended it, if
-- one did.
inductive Walked (visitor : Visitor σ ε) : Pointer → Part → σ → Edited σ ε Part → Prop
  | scalar (pointer : Pointer) (value : Json) (state : σ) (flat : value.depth = 0) :
    Walked visitor pointer (.value value) state ⟨.value value, state, none⟩
  | refused (pointer : Pointer) (members : Table Json) (state after : σ) (failure : ε)
    (fails : visitor ⟨pointer, members⟩ state = (after, .error failure)) :
    Walked visitor pointer (.value (.obj members)) state
      ⟨.value (.obj members), after, some failure⟩
  | object (pointer : Pointer) (members new left : Table Json) (state after final : σ)
    (failure : Option ε) (visited : visitor ⟨pointer, members⟩ state = (after, .ok new))
    (inside : Walked visitor pointer (.children new) after ⟨.children left, final, failure⟩) :
    Walked visitor pointer (.value (.obj members)) state ⟨.value (.obj left), final, failure⟩
  | array (pointer : Pointer) (items : List Json) (left : Table Json) (state final : σ)
    (failure : Option ε)
    (inside : Walked visitor pointer (.children (labelled 0 items)) state
      ⟨.children left, final, failure⟩) :
    Walked visitor pointer (.value (.arr items)) state
      ⟨.value (.arr (left.map Prod.snd)), final, failure⟩
  | done (pointer : Pointer) (state : σ) :
    Walked visitor pointer (.children []) state ⟨.children [], state, none⟩
  | stops (pointer : Pointer) (segment : String) (child changed : Json) (rest : Table Json)
    (state final : σ) (failure : ε)
    (here : Walked visitor (pointer ++ [segment]) (.value child) state
      ⟨.value changed, final, some failure⟩) :
    Walked visitor pointer (.children ((segment, child) :: rest)) state
      ⟨.children ((segment, changed) :: rest), final, some failure⟩
  | goesOn (pointer : Pointer) (segment : String) (child changed : Json) (rest left : Table Json)
    (state after final : σ) (failure : Option ε)
    (here : Walked visitor (pointer ++ [segment]) (.value child) state ⟨.value changed, after, none⟩)
    (later : Walked visitor pointer (.children rest) after ⟨.children left, final, failure⟩) :
    Walked visitor pointer (.children ((segment, child) :: rest)) state
      ⟨.children ((segment, changed) :: left), final, failure⟩

variable (visitor : Visitor σ ε)

theorem Walked.unique (pointer : Pointer) (part : Part) (state : σ) (result other : Edited σ ε Part)
    (walked : Walked visitor pointer part state result)
    (again : Walked visitor pointer part state other) : result = other := by
  induction walked generalizing other with
  | scalar pointer value state flat =>
    cases again with
    | scalar => rfl
    | refused | object | array => cases flat
  | refused pointer members state after failure fails =>
    cases again with
    | scalar _ _ _ flat => cases flat
    | refused _ _ _ _ _ failsToo =>
      cases fails.symm.trans failsToo
      rfl
    | object _ _ _ _ _ _ _ _ visited => cases fails.symm.trans visited
  | object pointer members new left state after final failure visited inside ih =>
    cases again with
    | scalar _ _ _ flat => cases flat
    | refused _ _ _ _ _ fails => cases visited.symm.trans fails
    | object _ _ _ _ _ _ _ _ visitedToo insideToo =>
      cases visited.symm.trans visitedToo
      cases ih _ insideToo
      rfl
  | array pointer items left state final failure inside ih =>
    cases again with
    | scalar _ _ _ flat => cases flat
    | array _ _ _ _ _ _ insideToo =>
      cases ih _ insideToo
      rfl
  | done pointer state =>
    cases again
    rfl
  | stops pointer segment child changed rest state final failure here ih =>
    cases again with
    | stops _ _ _ _ _ _ _ _ hereToo =>
      cases ih _ hereToo
      rfl
    | goesOn _ _ _ _ _ _ _ _ _ _ hereToo => cases ih _ hereToo
  | goesOn pointer segment child changed rest left state after final failure here later ih ihLater =>
    cases again with
    | stops _ _ _ _ _ _ _ _ hereToo => cases ih _ hereToo
    | goesOn _ _ _ _ _ _ _ _ _ _ hereToo laterToo =>
      cases ih _ hereToo
      cases ihLater _ laterToo
      rfl

def Part.segments : Part → List String
  | .value _ => []
  | .children members => Table.keys members

def Part.WellFormed : Part → Prop
  | .value whole => whole.WellFormed
  | .children members => (Table.keys members).Nodup ∧ MembersWellFormed members

theorem Walked.segments (pointer : Pointer) (part : Part) (state : σ) (result : Edited σ ε Part)
    (walked : Walked visitor pointer part state result) :
    result.value.segments = part.segments := by
  induction walked with
  | scalar | refused | object | array | done => rfl
  | stops => rfl
  | goesOn pointer segment child changed rest left state after final failure here later _ ih =>
    exact congrArg (segment :: ·) ih

theorem Walked.well_formed
    (sound : ∀ pointer members state after new, (Part.children members).WellFormed →
      visitor ⟨pointer, members⟩ state = (after, .ok new) → (Part.children new).WellFormed)
    (pointer : Pointer) (part : Part) (state : σ) (result : Edited σ ε Part)
    (walked : Walked visitor pointer part state result) (wellFormed : part.WellFormed) :
    result.value.WellFormed := by
  induction walked with
  | scalar | refused | done => exact wellFormed
  | object pointer members new left state after final failure visited inside ih =>
    exact ih (sound pointer members state after new wellFormed visited)
  | array pointer items left state final failure inside ih =>
    have kept := Walked.segments visitor pointer _ state _ inside
    refine (members_well_formed_labelled_iff 0 _).mp ?_
    rw [labelled_map_snd 0 items left kept]
    exact (ih ⟨nodup_keys_labelled 0 items, (members_well_formed_labelled_iff 0 items).mpr wellFormed⟩).2
  | stops pointer segment child changed rest state final failure here ih =>
    exact ⟨wellFormed.1, ih wellFormed.2.1, wellFormed.2.2⟩
  | goesOn pointer segment child changed rest left state after final failure here later ih ihLater =>
    have kept : Table.keys left = Table.keys rest := Walked.segments visitor pointer _ after _ later
    have restWellFormed := (List.nodup_cons.mp wellFormed.1).2
    refine ⟨?_, ih wellFormed.2.1, (ihLater ⟨restWellFormed, wellFormed.2.2⟩).2⟩
    have differ := wellFormed.1
    rwa [Table.keys, List.map_cons, ← Table.keys, ← kept] at differ

-- A measure that falls from each value to its children, those that its visit has put there included.
structure Falls (visitor : Visitor σ ε) (measure : Pointer → Json → Nat) : Prop where
  depth_le : ∀ pointer value, value.depth ≤ measure pointer value
  item : ∀ pointer items index item, items[index]? = some item →
    measure (pointer ++ [Pointer.indexSegment index]) item < measure pointer (.arr items)
  member : ∀ pointer members state after new, visitor ⟨pointer, members⟩ state = (after, .ok new) →
    ∀ entry ∈ new, measure (pointer ++ [entry.1]) entry.2 < measure pointer (.obj members)

theorem walked_sweep_members (step : Pointer → Json → σ → Edited σ ε Json) (pointer : Pointer)
    (members : Table Json) (state : σ)
    (every : ∀ member ∈ members, ∀ state, Walked visitor (pointer ++ [member.1]) (.value member.2)
      state ((step (pointer ++ [member.1]) member.2 state).map .value)) :
    Walked visitor pointer (.children members) state
      ((sweepMembers step pointer members state).map .children) := by
  induction members generalizing state with
  | nil => exact .done pointer state
  | cons member rest ih =>
    obtain ⟨segment, child⟩ := member
    have here := every (segment, child) List.mem_cons_self state
    rw [sweepMembers]
    cases failed : (step (pointer ++ [segment]) child state).failure with
    | some failure =>
      simp only [Edited.map, failed] at here ⊢
      exact .stops pointer segment child _ rest state _ failure here
    | none =>
      simp only [Edited.map, failed] at here ⊢
      exact .goesOn pointer segment child _ rest _ state _ _ _ here
        (ih _ fun other later => every other (List.mem_cons_of_mem _ later))

-- The induction is on the fuel, of which there is as much as the measure counts.
theorem walked_edit_from (measure : Pointer → Json → Nat) (falls : Falls visitor measure)
    (fuel : Nat) (pointer : Pointer) (value : Json) (state : σ)
    (enough : measure pointer value ≤ fuel) :
    Walked visitor pointer (.value value) state
      ((editFrom visitor fuel pointer value state).map .value) := by
  induction fuel generalizing pointer value state with
  | zero =>
    have flat : value.depth = 0 :=
      Nat.le_zero.mp (Nat.le_trans (falls.depth_le pointer value) enough)
    exact .scalar pointer value state flat
  | succ fuel ih =>
    cases value with
    | null | bool | num | str => exact .scalar pointer _ state rfl
    | arr items =>
      have swept := walked_sweep_members visitor (editFrom visitor fuel) pointer
        (labelled 0 items) state fun entry member state => by
          obtain ⟨index, named, present⟩ := mem_labelled 0 items entry member
          have less := falls.item pointer items index entry.2 present
          rw [Nat.zero_add] at named
          rw [← named] at less
          exact ih _ entry.2 state (by omega)
      rw [sweep_members_labelled] at swept
      have walked := Walked.array pointer items _ state _ _ swept
      simp only [Edited.map, map_snd_labelled] at walked
      exact walked
    | obj members =>
      rw [editFrom]
      rcases visited : visitor ⟨pointer, members⟩ state with ⟨after, outcome⟩
      cases outcome with
      | error failure => exact .refused pointer members state after failure visited
      | ok new =>
        refine .object pointer members new _ state after _ _ visited ?_
        refine walked_sweep_members visitor _ pointer new after fun entry member later => ?_
        have less := falls.member pointer members state after new visited entry member
        exact ih _ entry.2 later (by omega)

theorem eq_of_walked (measure : Pointer → Json → Nat) (falls : Falls visitor measure)
    (fuel : Nat) (pointer : Pointer) (value : Json) (state : σ)
    (enough : measure pointer value ≤ fuel) (result : Edited σ ε Json)
    (walked : Walked visitor pointer (.value value) state (result.map .value)) :
    editFrom visitor fuel pointer value state = result := by
  have same := Walked.unique visitor pointer _ state _ _
    (walked_edit_from visitor measure falls fuel pointer value state enough) walked
  obtain ⟨value, state, failure⟩ := result
  simp only [Edited.map, Edited.mk.injEq, Part.value.injEq] at same
  obtain ⟨values, states, failures⟩ := same
  rw [← values, ← states, ← failures]

def everywhere : Guide := fun _ _ => .all

def Part.visits (pointer : Pointer) : Part → List Visit
  | .value whole => visitsFrom everywhere pointer whole
  | .children members => memberVisits everywhere pointer .all members

def watching (note : σ → Visit → σ) : Visitor σ ε := fun visit state =>
  (note state visit, .ok visit.members)

theorem visits_from_of_flat (guide : Guide) (pointer : Pointer) (value : Json)
    (flat : value.depth = 0) : visitsFrom guide pointer value = [] := by
  cases value with
  | null | bool | num | str => rfl
  | arr | obj => cases flat

theorem visits_array (pointer : Pointer) (items : List Json) :
    (Part.value (.arr items)).visits pointer = (Part.children (labelled 0 items)).visits pointer := by
  rw [Part.visits, visitsFrom, item_visits_eq_member_visits]
  rfl

theorem visits_object (pointer : Pointer) (members : Table Json) :
    (Part.value (.obj members)).visits pointer =
      ⟨pointer, members⟩ :: (Part.children members).visits pointer := by
  rw [Part.visits, visitsFrom]
  rfl

theorem visits_cons (pointer : Pointer) (segment : String) (child : Json) (rest : Table Json) :
    (Part.children ((segment, child) :: rest)).visits pointer =
      (Part.value child).visits (pointer ++ [segment]) ++ (Part.children rest).visits pointer := by
  change memberVisits everywhere pointer .all ((segment, child) :: rest) = _
  rw [memberVisits, Reach.covers, if_pos rfl]
  rfl

theorem eq_of_walked_watching (note : σ → Visit → σ) (pointer : Pointer) (part : Part) (state : σ)
    (result : Edited σ ε Part) (walked : Walked (watching note) pointer part state result) :
    result = ⟨part, (part.visits pointer).foldl note state, none⟩ := by
  induction walked with
  | scalar pointer value state flat =>
    rw [Part.visits, visits_from_of_flat _ pointer value flat]
    rfl
  | refused pointer members state after failure fails => cases fails
  | object pointer members new left state after final failure visited inside ih =>
    cases visited
    cases ih
    rw [visits_object]
    rfl
  | array pointer items left state final failure inside ih =>
    cases ih
    rw [visits_array, map_snd_labelled]
  | done pointer state => rfl
  | stops pointer segment child changed rest state final failure here ih => cases ih
  | goesOn pointer segment child changed rest left state after final failure here later ih ihLater =>
    cases ih
    cases ihLater
    rw [visits_cons, List.foldl_append]

theorem falls_watching (note : σ → Visit → σ) :
    Falls (watching note : Visitor σ ε) fun _ value => value.depth where
  depth_le _ _ := Nat.le_refl _
  item _ items _ item present :=
    Nat.lt_succ_of_le ((items_depth_le_iff items _).mp (Nat.le_refl _) item
      (List.mem_of_getElem? present))
  member pointer members state after new visited entry member := by
    cases visited
    exact Nat.lt_succ_of_le ((members_depth_le_iff members _).mp (Nat.le_refl _) entry member)

theorem edit_from_watching (note : σ → Visit → σ) (fuel : Nat) (document : Json) (state : σ)
    (enough : document.depth ≤ fuel) :
    editFrom (watching note : Visitor σ ε) fuel [] document state =
      ⟨document, (visits everywhere document).foldl note state, none⟩ := by
  have falls : Falls (watching note : Visitor σ ε) fun _ value => value.depth := falls_watching note
  have walked := walked_edit_from _ _ falls fuel [] document state enough
  have same := eq_of_walked_watching note [] _ state _ walked
  rw [same] at walked
  exact eq_of_walked _ _ falls fuel [] document state enough _ walked

end

end Envelope.Json
