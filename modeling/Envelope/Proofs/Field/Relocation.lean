import Envelope.Proofs.Field.Marking
import Mathlib.Data.List.Nodup

set_option autoImplicit false

namespace Envelope

-- Every marker stands at the path of the row that it is opened with.
def InPlace (rows : List Record) (document : Json) : Prop :=
  ∀ site ∈ Marker.sites document, ∀ row, LastRow rows site.ref row →
    row.path = Pointer.text site.pointer

def Marker.replacing (contents : Table Json → Json) : Json.Replacement
  | _, .obj members => if (refOf? members).isSome then some (contents members) else none
  | _, _ => none

namespace Opening

mutual
theorem rebuild_replacing (opening : Opening) (contents : Table Json → Json) (pointer : Pointer)
    (value : Json) (opens : ∀ site ∈ Marker.sitesFrom pointer value,
      opening.openMarker site.members site.ref = .ok (contents site.members)) :
    opening.rebuild value = .ok (Json.rewriteFrom (Marker.replacing contents) pointer value) := by
  cases value with
  | null | bool | num | str => rfl
  | arr items =>
    rw [Marker.sitesFrom] at opens
    rw [rebuild, rebuild_items_replacing opening contents pointer 0 items opens,
      Json.rewrite_from_arr _ _ _ rfl]
    rfl
  | obj members =>
    cases marked : Marker.refOf? members with
    | some ref =>
      rw [Marker.sites_from_marker pointer members ref marked] at opens
      have opened := opens _ (List.mem_singleton_self _)
      have replaced : Marker.replacing contents pointer (.obj members) = some (contents members) := by
        simp only [Marker.replacing, marked, Option.isSome_some, if_true]
      rw [rebuild, Json.rewrite_from_eq_some _ _ _ _ replaced]
      simp only [marked, opened]
    | none =>
      rw [Marker.sites_from_plain pointer members marked] at opens
      have kept : Marker.replacing contents pointer (.obj members) = none := by
        simp only [Marker.replacing, marked, Option.isSome_none, Bool.false_eq_true, if_false]
      rw [rebuild, Json.rewrite_from_obj _ _ _ kept]
      simp only [marked, rebuild_members_replacing opening contents pointer members opens]
      rfl
theorem rebuild_items_replacing (opening : Opening) (contents : Table Json → Json)
    (pointer : Pointer) (start : Nat) (items : List Json)
    (opens : ∀ site ∈ Marker.itemSites pointer start items,
      opening.openMarker site.members site.ref = .ok (contents site.members)) :
    opening.rebuildItems items =
      .ok (Json.rewriteItems (Marker.replacing contents) pointer start items) := by
  cases items with
  | nil => rfl
  | cons item rest =>
    rw [Marker.itemSites, List.forall_mem_append] at opens
    rw [rebuildItems, rebuild_replacing opening contents _ item opens.1,
      rebuild_items_replacing opening contents pointer (start + 1) rest opens.2]
    rfl
theorem rebuild_members_replacing (opening : Opening) (contents : Table Json → Json)
    (pointer : Pointer) (members : Table Json)
    (opens : ∀ site ∈ Marker.memberSites pointer members,
      opening.openMarker site.members site.ref = .ok (contents site.members)) :
    opening.rebuildMembers members =
      .ok (Json.rewriteMembers (Marker.replacing contents) pointer members) := by
  cases members with
  | nil => rfl
  | cons member rest =>
    obtain ⟨key, value⟩ := member
    rw [Marker.memberSites, List.forall_mem_append] at opens
    rw [rebuildMembers, rebuild_replacing opening contents _ value opens.1,
      rebuild_members_replacing opening contents pointer rest opens.2]
    rfl
end

def contents (opening : Opening) (members : Table Json) : Json :=
  match Marker.refOf? members with
  | some ref => (opening.openMarker members ref).toOption.getD .null
  | none => .null

theorem open_marker_contents (opening : Opening) (document moved : Json) (value : Json)
    (wellFormed : document.WellFormed) (movedWellFormed : moved.WellFormed)
    (rebuilt : opening.rebuild document = .ok value)
    (known : ∀ site ∈ Marker.sites moved, ∃ origin ∈ Marker.sites document,
      origin.members = site.members) :
    ∀ site ∈ Marker.sites moved,
      opening.openMarker site.members site.ref = .ok (opening.contents site.members) := by
  intro site member
  obtain ⟨origin, present, same⟩ := known site member
  have ref := (Marker.located_of_mem_sites_from [] moved site movedWellFormed member).1
  have originRef := (Marker.located_of_mem_sites_from [] document origin wellFormed present).1
  rw [same, ref] at originRef
  rw [rebuild_eq opening [] document wellFormed] at rebuilt
  cases opened : opening.openEach (Marker.sitesFrom [] document) with
  | error cause => simp only [opened, Except.map, reduceCtorEq] at rebuilt
  | ok entries =>
    obtain ⟨opens, eq⟩ := (open_each_is_ok_iff opening _).mp ⟨entries, opened⟩ origin present
    rw [same, ← Option.some.inj originRef] at eq
    simp only [contents, ref, eq, Except.toOption, Option.getD_some]

end Opening

theorem last_row_of_open_marker (opening : Opening) (site : Marker.Site) (value : Json)
    (opens : opening.openMarker site.members site.ref = .ok value) :
    ∃ row, LastRow opening.rows site.ref row := by
  cases (open_marker_eq_iff opening site _).mp opens with
  | value row fits => exact ⟨row, fits.last⟩

theorem in_place_iff_unmoved (opening : Opening) (document moved : Json)
    (wellFormed : document.WellFormed) (movedWellFormed : moved.WellFormed)
    (inPlace : InPlace opening.rows document)
    (known : ∀ site ∈ Marker.sites moved, ∃ origin ∈ Marker.sites document,
      origin.members = site.members)
    (opens : ∀ site ∈ Marker.sites moved,
      ∃ value, opening.openMarker site.members site.ref = .ok value) :
    InPlace opening.rows moved ↔ ∀ site ∈ Marker.sites moved, site ∈ Marker.sites document := by
  constructor
  · intro movedInPlace site member
    obtain ⟨origin, present, same⟩ := known site member
    have ref := (Marker.located_of_mem_sites_from [] moved site movedWellFormed member).1
    have originRef := (Marker.located_of_mem_sites_from [] document origin wellFormed present).1
    rw [same, ref] at originRef
    have sameRef := Option.some.inj originRef
    obtain ⟨_, opened⟩ := opens site member
    obtain ⟨row, last⟩ := last_row_of_open_marker opening site _ opened
    have here := movedInPlace site member row last
    have there := inPlace origin present row (sameRef ▸ last)
    have samePlace : origin.pointer = site.pointer :=
      Pointer.text_injective _ _ (there.symm.trans here)
    obtain ⟨pointer, members, reference⟩ := site
    obtain ⟨otherPointer, otherMembers, otherReference⟩ := origin
    cases same
    cases sameRef
    cases samePlace
    exact present
  · exact fun unmoved site member => inPlace site (unmoved site member)

theorem in_place_outcome (ring : Keyring) (document : Json) (tenant : String) (host : Host)
    (wellFormed : document.WellFormed)
    (distinct : ((Prepared.outcome ring document tenant host).records.map Record.refId).Nodup)
    (unmarked : ∀ visit ∈ Json.visits Tag.guide document, Marker.refOf? visit.members = none) :
    InPlace (Prepared.outcome ring document tenant host).records
      (Prepared.outcome ring document tenant host).document := by
  intro site member row last
  obtain ⟨record, present, rfl⟩ :=
    (mem_sites_outcome_iff ring document tenant host wellFormed unmarked site).mp member
  obtain ⟨inRows, sameRef⟩ := mem_of_last_row _ _ row last
  obtain rfl : row = record := List.inj_on_of_nodup_map distinct inRows present sameRef
  obtain ⟨found, -, now, entropy, eq⟩ := record_of_mem ring document tenant host row present
  have path : row.path = Pointer.text found.1 := by rw [eq, Prepared.recordOf]
  simp only [Record.site, path, Pointer.split_text]

theorem resolve_relocated (ring : Keyring) (document moved : Json) (tenant : String)
    (rows : List Record) (stored : StoredDek) (host : Host) (value : Json)
    (wellFormed : document.WellFormed) (movedWellFormed : moved.WellFormed) (given : rows ≠ [])
    (resolves : (resolve ring document tenant rows stored host).1 = .ok value)
    (known : ∀ site ∈ Marker.sites moved, ∃ origin ∈ Marker.sites document,
      origin.members = site.members) :
    (∃ contents, value = document.rewrite (Marker.replacing contents) ∧
      (resolve ring moved tenant rows stored host).1 =
        .ok (moved.rewrite (Marker.replacing contents))) ∧
      (InPlace rows document →
        (InPlace rows moved ↔ ∀ site ∈ Marker.sites moved, site ∈ Marker.sites document)) := by
  rw [resolve_fst] at resolves
  obtain ⟨dek, unwraps, rebuilt⟩ :=
    rebuild_of_resolved ring document tenant rows stored value given resolves
  have opens := Opening.open_marker_contents ⟨dek, tenant, rows⟩ document moved value wellFormed
    movedWellFormed rebuilt known
  have original := Opening.open_marker_contents ⟨dek, tenant, rows⟩ document document value wellFormed
    wellFormed rebuilt fun site member => ⟨site, member, rfl⟩
  refine ⟨⟨Opening.contents ⟨dek, tenant, rows⟩, ?_, ?_⟩, fun inPlace => ?_⟩
  · have same := Opening.rebuild_replacing ⟨dek, tenant, rows⟩ _ [] document original
    rw [rebuilt] at same
    exact Except.ok.inj same
  · rw [resolve_fst, resolved_of_unwraps ring moved tenant rows stored dek given unwraps]
    exact Opening.rebuild_replacing ⟨dek, tenant, rows⟩ _ [] moved opens
  · exact in_place_iff_unmoved ⟨dek, tenant, rows⟩ document moved wellFormed movedWellFormed inPlace known
      fun site member => ⟨_, opens site member⟩

-- The marker of the small document, under another key.
def movedDocument : Json :=
  .obj [("elsewhere", smallRecord.marker.toJson)]

def movedSite : Marker.Site :=
  ⟨["elsewhere"], [(Marker.refKey, .str smallRecord.refId), (Marker.hashKey, .str smallRecord.markerHash),
    (Marker.algorithmKey, .str Marker.fieldAlgorithm), (Marker.versionKey, .str Marker.currentVersion)],
    smallRecord.refId⟩

theorem sites_moved_document : Marker.sites movedDocument = [movedSite] := rfl

theorem well_formed_moved_document : movedDocument.WellFormed := by
  simp [movedDocument, Json.WellFormed, Json.MembersWellFormed, Table.keys, Marker.well_formed_to_json]

theorem rebuild_small_record :
    Opening.rebuild ⟨⟨smallHost.entropy.next 32⟩, "acme", smallPrepared.records⟩
      smallRecord.marker.toJson = .ok (.obj [("a", .null), ("b", .num (.int 1))]) := by
  have read := Json.of_bytes?_canonical_bytes (.obj [("b", .num (.int 1)), ("a", .null)])
    (by simp [Json.WellFormed, Json.MembersWellFormed, Table.keys])
    (by simp [Json.numbers, Json.membersNumbers, Number.Legible]) (by decide)
  have sorted : Json.sortKeys (.obj [("b", .num (.int 1)), ("a", .null)]) =
      .obj [("a", .null), ("b", .num (.int 1))] := by decide
  rw [sorted] at read
  have member : smallRecord ∈ smallPrepared.records := by simp [records_small_prepared]
  rw [Opening.rebuild_marker _ smallRecord member distinct_small_prepared rfl rfl]
  exact Opening.open_row_record_of _ "acme" _ .epoch _ _ _ (by decide) read

theorem moved_marker_resolves :
    smallPrepared.records ≠ [] ∧
      (resolve smallRing movedDocument "acme" smallPrepared.records
        (.ofPrepared smallPrepared) smallHost).1 =
        .ok (.obj [("elsewhere", .obj [("a", .null), ("b", .num (.int 1))])]) ∧
      ¬ InPlace smallPrepared.records movedDocument := by
  have given : smallPrepared.records ≠ [] := by simp [records_small_prepared]
  have unwraps : (StoredDek.ofPrepared smallPrepared).Unwraps smallRing
      (.ok ⟨smallHost.entropy.next 32⟩) :=
    unwraps_outcome smallRing smallDocument "acme" smallHost (by decide)
  refine ⟨given, ?_, fun inPlace => ?_⟩
  · rw [resolve_fst, resolved_of_unwraps _ _ _ _ _ _ given unwraps, movedDocument, Opening.rebuild]
    have plain : Marker.refOf? [("elsewhere", smallRecord.marker.toJson)] = none := rfl
    simp only [plain, Opening.rebuildMembers, rebuild_small_record]
    rfl
  · have last : LastRow smallPrepared.records movedSite.ref smallRecord :=
      ⟨[], [], records_small_prepared, rfl, by simp⟩
    have path := inPlace movedSite (by simp [sites_moved_document]) smallRecord last
    exact absurd path (by decide)

theorem document_small_prepared :
    smallPrepared.document =
      .obj [("owner", .str "Ada"),
        ("secret", .obj
          [("qualifiers", .arr [.obj [("type", .str "confidentiality"), ("value", .str "encrypted")]]),
            ("value", smallRecord.marker.toJson)])] := by
  have rewritten : smallPrepared.document =
      smallDocument.rewrite (Json.putting (smallPrepared.records.map Record.placement)) := rfl
  have placement : smallRecord.placement = (["secret", "value"], smallRecord.marker.toJson) := by
    have path : smallRecord.path = Pointer.text ["secret", "value"] := rfl
    rw [Record.placement, path, Pointer.split_text]
  rw [rewritten, records_small_prepared, List.map_singleton, placement]
  rfl

theorem sites_small_prepared :
    Marker.sites smallPrepared.document = [{ movedSite with pointer := ["secret", "value"] }] := by
  rw [document_small_prepared]
  rfl

theorem resolve_relocated_small :
    smallPrepared.document.WellFormed ∧ movedDocument.WellFormed ∧ smallPrepared.records ≠ [] ∧
      (∃ value, (resolve smallRing smallPrepared.document "acme" smallPrepared.records
        (.ofPrepared smallPrepared) smallHost).1 = .ok value) ∧
      InPlace smallPrepared.records smallPrepared.document ∧
      (∀ site ∈ Marker.sites movedDocument, ∃ origin ∈ Marker.sites smallPrepared.document,
        origin.members = site.members) ∧
      (∃ contents, (resolve smallRing movedDocument "acme" smallPrepared.records
        (.ofPrepared smallPrepared) smallHost).1 =
          .ok (movedDocument.rewrite (Marker.replacing contents))) ∧
      (InPlace smallPrepared.records movedDocument ↔
        ∀ site ∈ Marker.sites movedDocument, site ∈ Marker.sites smallPrepared.document) := by
  have wellFormed : smallPrepared.document.WellFormed := by
    rw [document_small_prepared]
    simp [Record.marker, Marker.toJson, Json.WellFormed, Json.MembersWellFormed,
      Json.ItemsWellFormed, Table.keys, Marker.refKey, Marker.hashKey, Marker.algorithmKey,
      Marker.versionKey]
  have given : smallPrepared.records ≠ [] := by simp [records_small_prepared]
  have resolves : (resolve smallRing smallPrepared.document "acme" smallPrepared.records
      (.ofPrepared smallPrepared) smallHost).1 =
        .ok (smallDocument.rewrite (Tag.sorting smallDocument)) := by
    rw [resolve_fst]
    exact resolved_outcome smallRing smallDocument "acme" smallHost well_formed_small_document
      legible_small_document (by decide) sealable_small_document distinct_small_prepared
      (.inr unmarked_small_document)
  have inPlace : InPlace smallPrepared.records smallPrepared.document :=
    in_place_outcome smallRing smallDocument "acme" smallHost well_formed_small_document
      distinct_small_prepared unmarked_small_document
  have known : ∀ site ∈ Marker.sites movedDocument, ∃ origin ∈ Marker.sites smallPrepared.document,
      origin.members = site.members := by
    simp [sites_moved_document, sites_small_prepared]
  obtain ⟨⟨contents, -, moved⟩, unmoved⟩ := resolve_relocated smallRing smallPrepared.document
    movedDocument "acme" smallPrepared.records (.ofPrepared smallPrepared) smallHost _ wellFormed
    well_formed_moved_document given resolves known
  exact ⟨wellFormed, well_formed_moved_document, given, ⟨_, resolves⟩, inPlace, known,
    ⟨contents, moved⟩, unmoved inPlace⟩

end Envelope
