import Envelope.Field.Prepared
import Envelope.Proofs.Field.Tagged
import Envelope.Proofs.Json.Rewrite

set_option autoImplicit false

namespace Envelope

def Record.placement (record : Record) : Pointer × Json :=
  (Pointer.split record.path, record.marker.toJson)

namespace Prepared

variable {α : Type} (dek : Dek) (tenant : String)

def sealEach : List (Pointer × Json) → Progress → Json.Edited Progress FieldError (List Record)
  | [], progress => ⟨[], progress, none⟩
  | found :: rest, progress =>
    match sealValue dek tenant found progress.host with
    | (.error cause, host) => ⟨[], ⟨host, progress.records⟩, some cause⟩
    | (.ok record, host) =>
      let others := sealEach rest ⟨host, progress.records ++ [record]⟩
      ⟨record :: others.value, others.state, others.failure⟩

theorem seal_each_append_failed (front back : List (Pointer × Json)) (progress : Progress)
    (cause : FieldError) (failed : (sealEach dek tenant front progress).failure = some cause) :
    sealEach dek tenant (front ++ back) progress = sealEach dek tenant front progress := by
  induction front generalizing progress with
  | nil => cases failed
  | cons found rest ih =>
    rcases result : sealValue dek tenant found progress.host with ⟨outcome, host⟩
    cases outcome with
    | error other => simp only [List.cons_append, sealEach, result]
    | ok record =>
      simp only [sealEach, result] at failed
      simp only [List.cons_append, sealEach, result, ih _ failed]

theorem seal_each_append (front back : List (Pointer × Json)) (progress : Progress)
    (done : (sealEach dek tenant front progress).failure = none) :
    sealEach dek tenant (front ++ back) progress =
      let first := sealEach dek tenant front progress
      let second := sealEach dek tenant back first.state
      ⟨first.value ++ second.value, second.state, second.failure⟩ := by
  induction front generalizing progress with
  | nil => rfl
  | cons found rest ih =>
    rcases result : sealValue dek tenant found progress.host with ⟨outcome, host⟩
    cases outcome with
    | error other => simp only [sealEach, result, reduceCtorEq] at done
    | ok record =>
      simp only [sealEach, result] at done
      simp only [List.cons_append, sealEach, result, ih _ done]

theorem path_of_seal_value (found : Pointer × Json) (host after : Host) (record : Record)
    (result : sealValue dek tenant found host = (.ok record, after)) :
    record.path = Pointer.text found.1 := by
  simp only [sealValue, Action.bind_apply] at result
  split at result
  · split at result
    · have made := Except.ok.inj (congrArg Prod.fst result)
      exact (congrArg Record.path made).symm
    · exact nomatch congrArg Prod.fst result
  · exact nomatch congrArg Prod.fst result

def AtValues (found : List (Pointer × Json)) (records : List Record) : Prop :=
  ∀ entry ∈ records.map Record.placement, ∃ value ∈ found, entry.1 = value.1

theorem at_values_seal_each (found : List (Pointer × Json)) (progress : Progress) :
    AtValues found (sealEach dek tenant found progress).value := by
  induction found generalizing progress with
  | nil => simp [AtValues, sealEach]
  | cons value rest ih =>
    rcases result : sealValue dek tenant value progress.host with ⟨outcome, host⟩
    cases outcome with
    | error cause => simp [AtValues, sealEach, result]
    | ok record =>
      intro entry member
      simp only [sealEach, result, List.map_cons, List.mem_cons] at member
      rcases member with rfl | later
      · have path := path_of_seal_value dek tenant value progress.host host record result
        refine ⟨value, List.mem_cons_self, ?_⟩
        rw [Record.placement, path, Pointer.split_text]
      · obtain ⟨other, present, eq⟩ := ih _ entry later
        exact ⟨other, List.mem_cons_of_mem _ present, eq⟩

theorem places_of_at_values (found : List (Pointer × Json)) (records : List Record)
    (place : Pointer → Prop) (atValues : AtValues found records)
    (every : ∀ value ∈ found, place value.1) :
    ∀ entry ∈ records.map Record.placement, place entry.1 := by
  intro entry member
  obtain ⟨value, present, eq⟩ := atValues entry member
  exact eq ▸ every value present

-- A walk that seals values, and leaves what is made of their records.
def Seals (found : List (Pointer × Json)) (walk : Progress → Json.Edited Progress FieldError α)
    (left : List Record → α) : Prop :=
  ∀ progress, walk progress =
    let done := sealEach dek tenant found progress
    ⟨left done.value, done.state, done.failure⟩

abbrev Step := Pointer → Json → Progress → Json.Edited Progress FieldError Json

def SealsValue (step : Step) (value : Json) : Prop :=
  ∀ pointer, Seals dek tenant (Tag.valuesFrom pointer value) (step pointer value) fun records =>
    Json.rewriteFrom (Json.putting (records.map Record.placement)) pointer value

-- One element is walked, and then the others if nothing failed. The walks of items and of members
-- differ only in what they make of an element.
theorem seals_cons {β : Type} (child : Progress → Json.Edited Progress FieldError Json)
    (others walk : Progress → Json.Edited Progress FieldError (List β)) (element : Json → β)
    (rest : List β) (front back : List (Pointer × Json)) (here : List Record → Json)
    (later left : List Record → List β)
    (stops : ∀ progress cause, (child progress).failure = some cause → walk progress =
      ⟨element (child progress).value :: rest, (child progress).state, some cause⟩)
    (goesOn : ∀ progress, (child progress).failure = none → walk progress =
      let after := others (child progress).state
      ⟨element (child progress).value :: after.value, after.state, after.failure⟩)
    (sealsChild : Seals dek tenant front child here)
    (sealsOthers : Seals dek tenant back others later) (untouched : later [] = rest)
    (joined : ∀ first second, AtValues front first → AtValues back second →
      left (first ++ second) = element (here first) :: later second) :
    Seals dek tenant (front ++ back) walk left := by
  intro progress
  have first := at_values_seal_each dek tenant front progress
  have walked := sealsChild progress
  cases failure : (sealEach dek tenant front progress).failure with
  | some cause =>
    have join := joined _ [] first (by simp [AtValues])
    rw [List.append_nil, untouched] at join
    rw [stops progress cause (by rw [walked]; exact failure), walked]
    simp only [seal_each_append_failed dek tenant front back progress cause failure, failure, join]
  | none =>
    have second := at_values_seal_each dek tenant back (sealEach dek tenant front progress).state
    rw [goesOn progress (by rw [walked]; exact failure), walked]
    simp only [sealsOthers _, seal_each_append dek tenant front back progress failure,
      joined _ _ first second]

-- The lists are walked member by member, so these are inductions on the list; that each member's
-- own walk seals its values is the hypothesis of the induction on the document.
theorem seals_items (step : Step) (pointer : Pointer) (start : Nat) (items : List Json)
    (wellFormed : Json.ItemsWellFormed items)
    (every : ∀ item ∈ items, SealsValue dek tenant step item) :
    Seals dek tenant (Tag.itemValues pointer start items) (Json.sweepItems step pointer start items)
      fun records =>
        Json.rewriteItems (Json.putting (records.map Record.placement)) pointer start items := by
  induction items generalizing start with
  | nil => exact fun _ => rfl
  | cons item rest ih =>
    rw [Tag.item_values_cons]
    have others := ih (start + 1) wellFormed.2 fun value member =>
      every value (List.mem_cons_of_mem _ member)
    refine seals_cons dek tenant _ _ _ id rest _ _ _ _ _
      (fun _ _ failure => by simp only [Json.sweepItems, failure, id])
      (fun _ failure => by simp only [Json.sweepItems, failure, id])
      (every item List.mem_cons_self _) others (Json.rewrite_items_none pointer (start + 1) rest) ?_
    intro first second atFirst atSecond
    rw [List.map_append]
    exact Json.rewrite_items_putting_append _ _ pointer start item rest
      (places_of_at_values _ first _ atFirst (Tag.below_of_mem_values_from pointer _ item wellFormed.1))
      (places_of_at_values _ second _ atSecond
        (Tag.below_of_mem_item_values pointer (start + 1) rest wellFormed.2))

theorem seals_members (step : Step) (pointer : Pointer) (reach : Json.Reach) (members : Table Json)
    (wellFormed : Json.MembersWellFormed members) (differ : (Table.keys members).Nodup)
    (covered : ∀ key ∈ Table.keys members, reach.covers key = true)
    (every : ∀ member ∈ members, SealsValue dek tenant step member.2) :
    Seals dek tenant (Tag.memberValues pointer reach members)
      (Json.sweepMembers step pointer members) fun records =>
        Json.rewriteMembers (Json.putting (records.map Record.placement)) pointer members := by
  induction members with
  | nil => exact fun _ => rfl
  | cons member rest ih =>
    obtain ⟨key, value⟩ := member
    obtain ⟨fresh, restDiffer⟩ := List.nodup_cons.mp differ
    rw [Tag.member_values_covered pointer reach key value rest (covered key List.mem_cons_self)]
    have others := ih wellFormed.2 restDiffer
      (fun other later => covered other (List.mem_cons_of_mem _ later))
      (fun entry later => every entry (List.mem_cons_of_mem _ later))
    refine seals_cons dek tenant _ _ _ (Prod.mk key) rest _ _ _ _ _
      (fun _ _ failure => by simp only [Json.sweepMembers, failure])
      (fun _ failure => by simp only [Json.sweepMembers, failure])
      (every _ List.mem_cons_self _) others (Json.rewrite_members_none pointer rest) ?_
    intro first second atFirst atSecond
    rw [List.map_append]
    exact Json.rewrite_members_putting_append _ _ pointer key value rest fresh
      (places_of_at_values _ first _ atFirst
        (Tag.below_of_mem_values_from pointer key value wellFormed.1))
      (places_of_at_values _ second _ atSecond
        (Tag.below_of_mem_member_values pointer reach rest wellFormed.2))

theorem edit_text {σ ε : Type} (visitor : Json.Visitor σ ε) (fuel : Nat) (pointer : Pointer)
    (text : String) (state : σ) :
    Json.editFrom visitor fuel pointer (.str text) state = ⟨.str text, state, none⟩ := by
  cases fuel <;> rfl

-- The walk goes on into the marker that it has put, and finds nothing there.
theorem edit_marker (fuel : Nat) (pointer : Pointer) (marker : Marker) (progress : Progress) :
    Json.editFrom (sealing dek tenant) fuel pointer marker.toJson progress =
      ⟨marker.toJson, progress, none⟩ := by
  cases fuel with
  | zero => rfl
  | succ fuel =>
    have untagged : Tag.sealable? [(Marker.refKey, .str marker.refId),
        (Marker.hashKey, .str marker.hash), (Marker.algorithmKey, .str marker.algorithm),
        (Marker.versionKey, .str marker.version)] = none := rfl
    simp only [Marker.toJson, Json.editFrom, sealing, untagged, Json.sweepMembers, edit_text]

theorem seals_after_marker (step : Step) (pointer : Pointer) (marker value : Json)
    (rest : Table Json) (wellFormed : Json.MembersWellFormed rest)
    (differ : (Table.keys rest).Nodup) (fresh : Tag.valueKey ∉ Table.keys rest)
    (still : ∀ progress, step (pointer ++ [Tag.valueKey]) marker progress = ⟨marker, progress, none⟩)
    (every : ∀ member ∈ rest, SealsValue dek tenant step member.2) :
    Seals dek tenant (Tag.memberValues pointer (.skip Tag.valueKey) rest)
      (Json.sweepMembers step pointer ((Tag.valueKey, marker) :: rest)) fun records =>
        Json.rewriteMembers
          (Json.putting ((pointer ++ [Tag.valueKey], marker) :: records.map Record.placement))
          pointer ((Tag.valueKey, value) :: rest) := by
  have apart : ∀ other ∈ Table.keys rest, other ≠ Tag.valueKey := fun other later eq =>
    fresh (eq ▸ later)
  have covered : ∀ other ∈ Table.keys rest, (Json.Reach.skip Tag.valueKey).covers other = true :=
    fun other later => by simpa [Json.Reach.covers] using apart other later
  have others := seals_members dek tenant step pointer _ rest wellFormed differ covered every
  apply seals_cons dek tenant _ _ _ (Prod.mk Tag.valueKey) rest [] _ (fun _ => marker) _ _
    (fun _ _ failure => by simp only [Json.sweepMembers, failure])
    (fun _ failure => by simp only [Json.sweepMembers, failure]) (fun progress => still progress)
    others (Json.rewrite_members_none pointer rest)
  intro first second atFirst _
  have none : first.map Record.placement = [] :=
    List.eq_nil_iff_forall_not_mem.mpr fun entry member => by
      obtain ⟨_, absurd, _⟩ := atFirst entry member
      cases absurd
  rw [List.map_append, none, List.nil_append, Json.rewriteMembers,
    Json.rewrite_from_eq_some _ _ value marker (Json.putting_cons_self _ _ _ _)]
  refine congrArg _ (Json.rewrite_members_congr _ _ pointer rest fun other later tail inner => ?_)
  apply Json.putting_cons_other _ marker _ _ inner
  intro same
  rw [List.append_cancel_left_eq, List.cons.injEq] at same
  exact apart other later same.1.symm

theorem seals_beside (step : Step) (pointer : Pointer) (marker : Json) (members : Table Json)
    (wellFormed : Json.MembersWellFormed members) (differ : (Table.keys members).Nodup)
    (present : Tag.valueKey ∈ Table.keys members)
    (still : ∀ progress, step (pointer ++ [Tag.valueKey]) marker progress = ⟨marker, progress, none⟩)
    (every : ∀ member ∈ members, SealsValue dek tenant step member.2) :
    Seals dek tenant (Tag.memberValues pointer (.skip Tag.valueKey) members)
      (Json.sweepMembers step pointer (Table.put members Tag.valueKey marker)) fun records =>
        Json.rewriteMembers
          (Json.putting ((pointer ++ [Tag.valueKey], marker) :: records.map Record.placement))
          pointer members := by
  induction members with
  | nil => cases present
  | cons member rest ih =>
    obtain ⟨key, value⟩ := member
    obtain ⟨fresh, restDiffer⟩ := List.nodup_cons.mp differ
    have everyRest : ∀ entry ∈ rest, SealsValue dek tenant step entry.2 := fun entry later =>
      every entry (List.mem_cons_of_mem _ later)
    by_cases same : key = Tag.valueKey
    · subst same
      rw [Tag.member_values_skipped pointer _ _ value rest (by simp [Json.Reach.covers]),
        Table.put, if_pos rfl]
      exact seals_after_marker dek tenant step pointer marker value rest wellFormed.2 restDiffer fresh
        still everyRest
    · have later : Tag.valueKey ∈ Table.keys rest := by
        simpa [Table.keys, Ne.symm same] using present
      have covered : (Json.Reach.skip Tag.valueKey).covers key = true := by
        simpa [Json.Reach.covers] using same
      rw [Tag.member_values_covered pointer _ key value rest covered, Table.put, if_neg same]
      refine seals_cons dek tenant _ _ _ (Prod.mk key) _ _ _ _ _ _
        (fun _ _ failure => by simp only [Json.sweepMembers, failure])
        (fun _ failure => by simp only [Json.sweepMembers, failure]) (every _ List.mem_cons_self _)
        (ih wellFormed.2 restDiffer later everyRest)
        (Json.rewrite_members_putting_one pointer _ marker rest restDiffer later) ?_
      intro first second atFirst atSecond
      have inFirst := places_of_at_values _ first _ atFirst
        (Tag.below_of_mem_values_from pointer key value wellFormed.1)
      have inSecond := places_of_at_values _ second _ atSecond
        (Tag.below_of_mem_member_values pointer (.skip Tag.valueKey) rest wellFormed.2)
      have atMarker : Pointer.Below pointer (· ∈ Table.keys rest) (pointer ++ [Tag.valueKey]) :=
        ⟨Tag.valueKey, later, [], rfl⟩
      have elsewhere : ∀ entry ∈ first.map Record.placement, entry.1 ≠ pointer ++ [Tag.valueKey] :=
        fun entry member eq => same
          (Pointer.segment_of_below pointer [] _ Tag.valueKey (eq ▸ inFirst entry member)).symm
      have moved := Json.putting_middle (pointer ++ [Tag.valueKey], marker) _
        (second.map Record.placement) elsewhere
      rw [List.map_append, ← moved]
      exact Json.rewrite_members_putting_append _ _ pointer key value rest fresh inFirst
        (List.forall_mem_cons.mpr ⟨atMarker, inSecond⟩)

-- A visit that seals comes before the walk of the members, so the value is sealed first.
theorem seals_tagged (fuel : Nat) (members : Table Json) (value : Json)
    (wellFormed : (Json.obj members).WellFormed) (tagged : Tag.sealable? members = some value)
    (every : ∀ member ∈ members,
      SealsValue dek tenant (Json.editFrom (sealing dek tenant) fuel) member.2) :
    SealsValue dek tenant (Json.editFrom (sealing dek tenant) (fuel + 1)) (.obj members) := by
  intro pointer progress
  have present : Tag.valueKey ∈ Table.keys members := by
    rw [← Table.get?_is_some_iff, Tag.get?_of_sealable? members value tagged, Option.isSome_some]
  rw [Tag.values_from_tagged pointer members value tagged]
  rcases result : sealValue dek tenant (pointer ++ [Tag.valueKey], value) progress.host with
    ⟨outcome, host⟩
  cases outcome with
  | error cause =>
    have unchanged : Json.rewriteFrom (Json.putting []) pointer (.obj members) = .obj members :=
      Json.rewrite_from_none pointer (.obj members)
    simp only [Json.editFrom, sealing, tagged, result, sealEach, List.map_nil, unchanged]
  | ok record =>
    have path := path_of_seal_value dek tenant _ progress.host host record result
    have placement : record.placement = (pointer ++ [Tag.valueKey], record.marker.toJson) := by
      rw [Record.placement, path, Pointer.split_text]
    have beside := seals_beside dek tenant (Json.editFrom (sealing dek tenant) fuel) pointer
      record.marker.toJson members wellFormed.2 wellFormed.1 present
      (edit_marker dek tenant fuel _ record.marker) every ⟨host, progress.records ++ [record]⟩
    have atOthers := at_values_seal_each dek tenant
      (Tag.memberValues pointer (.skip Tag.valueKey) members) ⟨host, progress.records ++ [record]⟩
    have stays : ∀ records,
        AtValues (Tag.memberValues pointer (.skip Tag.valueKey) members) records →
          Json.putting (record.placement :: records.map Record.placement) pointer (.obj members) =
            none := by
      intro records atValues
      have kept := Json.putting_above _ pointer _ (.obj members) (places_of_at_values _ records _
        atValues (Tag.below_of_mem_member_values pointer _ members wellFormed.2))
      rw [placement, Json.putting_cons_other _ _ _ _ _ (by simp), kept]
    simp only [Json.editFrom, sealing, tagged, result, sealEach, beside, List.map_cons,
      Json.rewrite_from_obj _ _ _ (stays _ atOthers)]
    rw [placement]

-- The induction is on the document. A step of the walk either finds nothing to seal at an object and
-- sweeps its members, or seals a value first; both sweeps are the inductions on members above.
theorem seals_value (value : Json) (wellFormed : value.WellFormed) (fuel : Nat)
    (enough : value.depth < fuel) :
    SealsValue dek tenant (Json.editFrom (sealing dek tenant) fuel) value := by
  induction value generalizing fuel with
  | null | bool | num | str =>
    intro pointer progress
    cases fuel <;> rfl
  | arr items ih =>
    obtain ⟨fuel, rfl⟩ := Nat.exists_eq_add_one_of_ne_zero (Nat.ne_of_gt (Nat.zero_lt_of_lt enough))
    have inner := (Json.items_well_formed_iff items).mp wellFormed
    have shallow := (Json.items_depth_le_iff items _).mp (Nat.le_refl _)
    intro pointer progress
    have swept := seals_items dek tenant (Json.editFrom (sealing dek tenant) fuel) pointer 0 items
      wellFormed (fun item member => ih item member (inner item member) fuel
        (Nat.lt_of_le_of_lt (shallow item member) (by simp only [Json.depth] at enough; omega)))
      progress
    have kept := Json.putting_above _ pointer _ (.arr items) (places_of_at_values _ _ _
      (at_values_seal_each dek tenant (Tag.itemValues pointer 0 items) progress)
      (Tag.below_of_mem_item_values pointer 0 items wellFormed))
    rw [Tag.values_from_arr]
    simp only [Json.editFrom, swept, Json.rewrite_from_arr _ _ _ kept]
  | obj members ih =>
    obtain ⟨fuel, rfl⟩ := Nat.exists_eq_add_one_of_ne_zero (Nat.ne_of_gt (Nat.zero_lt_of_lt enough))
    have inner := (Json.members_well_formed_iff members).mp wellFormed.2
    have shallow := (Json.members_depth_le_iff members _).mp (Nat.le_refl _)
    have every : ∀ member ∈ members,
        SealsValue dek tenant (Json.editFrom (sealing dek tenant) fuel) member.2 :=
      fun member present => ih member present (inner member present) fuel
        (Nat.lt_of_le_of_lt (shallow member present) (by simp only [Json.depth] at enough; omega))
    cases tagged : Tag.sealable? members with
    | some value => exact seals_tagged dek tenant fuel members value wellFormed tagged every
    | none =>
      intro pointer progress
      have swept := seals_members dek tenant (Json.editFrom (sealing dek tenant) fuel) pointer .all
        members wellFormed.2 wellFormed.1 (fun _ _ => rfl) every progress
      have kept := Json.putting_above _ pointer _ (.obj members) (places_of_at_values _ _ _
        (at_values_seal_each dek tenant (Tag.memberValues pointer .all members) progress)
        (Tag.below_of_mem_member_values pointer .all members wellFormed.2))
      rw [Tag.values_from_untagged pointer members tagged]
      simp only [Json.editFrom, sealing, tagged, swept, Json.rewrite_from_obj _ _ _ kept]

/-- One walk seals the values that are found beforehand, in their order, and changes nothing but them. -/
theorem seal_all_eq (document : Json) (wellFormed : document.WellFormed) (host : Host) :
    sealAll dek tenant document host =
      let done := sealEach dek tenant (Tag.values document) ⟨host, []⟩
      match done.failure with
      | some cause => (.error cause, done.state.host)
      | none => (.ok (document.rewrite (Json.putting (done.value.map Record.placement)),
          done.state.records), done.state.host) := by
  have walked := seals_value dek tenant document wellFormed (document.depth + 1)
    (Nat.lt_succ_self _) [] ⟨host, []⟩
  rw [Tag.values_eq]
  cases failure : (sealEach dek tenant (Tag.valuesFrom [] document) ⟨host, []⟩).failure with
  | some cause => simp only [sealAll, walked, failure]
  | none => simp only [sealAll, walked, failure, Json.rewrite]

end Prepared

end Envelope
