import Envelope.Proofs.Field.RoundTrip

set_option autoImplicit false

namespace Envelope

namespace Tag

theorem index_segment_ne_value_key (index : Nat) : Pointer.indexSegment index ≠ valueKey := by
  intro same
  have named := Pointer.index?_index_segment index
  have unnamed : Pointer.index? valueKey = none := by decide
  rw [same, unnamed] at named
  cases named

theorem outside_above (document : Json) (pointer : Pointer) (outside : Outside document pointer) :
    ∀ front segment back, pointer = front ++ segment :: back → Outside document front := by
  intro front segment back split found member within
  exact outside found member (split ▸ within.trans (List.prefix_append front _))

theorem outside_above_value (document : Json) (wellFormed : document.WellFormed)
    (found : Pointer × Json) (member : found ∈ values document) (front back : Pointer)
    (segment : String) (split : found.1 = front ++ segment :: back) : Outside document front := by
  intro other present within
  have deeper : other.1 <+: found.1 := split ▸ within.trans (List.prefix_append front _)
  have one := eq_of_prefix document wellFormed other found present member deeper
  rw [one, split] at within
  have short := within.length_le
  simp only [List.length_append, List.length_cons] at short
  omega

structure Marks (document : Json) (replacement : Json.Replacement) : Prop where
  put : ∀ pointer value new, replacement pointer value = some new →
    (∃ found ∈ values document, found.1 = pointer) ∧ ∃ marker : Marker, new = marker.toJson
  every : ∀ found ∈ values document, ∃ new, replacement found.1 found.2 = some new

section

variable {document : Json} {replacement : Json.Replacement} (marks : Marks document replacement)

include marks

theorem kept_of_outside (pointer : Pointer) (value : Json) (outside : Outside document pointer) :
    replacement pointer value = none := by
  refine Option.eq_none_iff_forall_ne_some.mpr fun new put => ?_
  obtain ⟨⟨found, member, here⟩, -⟩ := marks.put pointer value new put
  exact outside found member (here ▸ List.prefix_rfl)

theorem kept_of_key (pointer : Pointer) (key : String) (value : Json) (other : key ≠ valueKey) :
    replacement (pointer ++ [key]) value = none := by
  refine Option.eq_none_iff_forall_ne_some.mpr fun new put => ?_
  obtain ⟨⟨found, member, here⟩, -⟩ := marks.put _ value new put
  obtain ⟨front, ends⟩ := ends_of_mem_values document found member
  have same := List.append_inj_right' (here.symm.trans ends) rfl
  exact other (List.singleton_inj.mp same)

theorem well_formed_rewrite (wellFormed : document.WellFormed) :
    (document.rewrite replacement).WellFormed := by
  refine Json.well_formed_rewrite_from replacement [] document (fun place inner new put => ?_) wellFormed
  obtain ⟨-, marker, rfl⟩ := marks.put place inner new put
  exact marker.well_formed_to_json

theorem at?_rewrite (pointer : Pointer)
    (above : ∀ front segment back, pointer = front ++ segment :: back → Outside document front) :
    (document.rewrite replacement).at? pointer =
      (document.at? pointer).map (Json.rewriteFrom replacement pointer) := by
  apply Json.at?_rewrite_from_kept replacement [] pointer document
  intro front segment back split inner
  exact kept_of_outside marks front inner (above front segment back split)

theorem object_rewrite (pointer : Pointer) (members : Table Json)
    (outside : Outside document pointer) (there : document.at? pointer = some (.obj members)) :
    (document.rewrite replacement).at? pointer =
      some (.obj (Json.rewriteMembers replacement pointer members)) := by
  rw [at?_rewrite marks pointer (outside_above document pointer outside), there, Option.map_some,
    Json.rewrite_from_obj replacement pointer members (kept_of_outside marks pointer _ outside)]

theorem value_rewrite (wellFormed : document.WellFormed) (found : Pointer × Json)
    (member : found ∈ values document) :
    ∃ marker : Marker, replacement found.1 found.2 = some marker.toJson ∧
      (document.rewrite replacement).at? found.1 = some marker.toJson := by
  obtain ⟨new, put⟩ := marks.every found member
  obtain ⟨-, marker, rfl⟩ := marks.put found.1 found.2 new put
  refine ⟨marker, put, ?_⟩
  rw [at?_rewrite marks found.1 (fun front segment back split =>
      outside_above_value document wellFormed found member front back segment split),
    at?_of_mem_values document found wellFormed member, Option.map_some,
    Json.rewrite_from_eq_some replacement found.1 found.2 _ put]

theorem at?_rewrite_cases (wellFormed : document.WellFormed) (pointer : Pointer) (inner : Json)
    (there : (document.rewrite replacement).at? pointer = some inner) :
    (∃ found ∈ values document, ∃ path, found.1 ++ path = pointer ∧ ∃ marker : Marker,
        replacement found.1 found.2 = some marker.toJson ∧ marker.toJson.at? path = some inner) ∨
      (Outside document pointer ∧ ∃ old, document.at? pointer = some old ∧
        replacement pointer old = none ∧ inner = Json.rewriteFrom replacement pointer old) := by
  by_cases outside : Outside document pointer
  · rw [at?_rewrite marks pointer (outside_above document pointer outside)] at there
    obtain ⟨old, found, rewritten⟩ := Option.map_eq_some_iff.mp there
    exact .inr ⟨outside, old, found, kept_of_outside marks pointer old outside, rewritten.symm⟩
  · obtain ⟨found, member, path, within⟩ : ∃ found ∈ values document, found.1 <+: pointer := by
      simpa only [Outside, not_forall, not_not, exists_prop] using outside
    obtain ⟨marker, put, placed⟩ := value_rewrite marks wellFormed found member
    rw [← within, Json.at?_append, placed, Option.bind_some] at there
    exact .inl ⟨found, member, path, within, marker, put, there⟩

theorem object_of_at?_rewrite (wellFormed : document.WellFormed) (pointer : Pointer)
    (members : Table Json)
    (there : (document.rewrite replacement).at? pointer = some (.obj members)) :
    (∃ found ∈ values document, found.1 = pointer ∧ ∃ marker : Marker,
        replacement found.1 found.2 = some marker.toJson ∧ members = marker.members) ∨
      (Outside document pointer ∧ ∃ old, document.at? pointer = some (.obj old) ∧
        members = Json.rewriteMembers replacement pointer old) := by
  rcases at?_rewrite_cases marks wellFormed pointer _ there with
    ⟨found, member, path, within, marker, put, inside⟩ | ⟨outside, old, present, kept, same⟩
  · obtain rfl := marker.eq_nil_of_at?_to_json path members inside
    refine .inl ⟨found, member, (List.append_nil _).symm.trans within, marker, put, ?_⟩
    exact (Json.obj.inj (Option.some.inj inside)).symm
  · refine .inr ⟨outside, ?_⟩
    cases old with
    | null | bool | num | str =>
      simp only [Json.rewriteFrom, kept, Option.getD_none, reduceCtorEq] at same
    | arr items =>
      rw [Json.rewrite_from_arr replacement pointer items kept] at same
      cases same
    | obj old =>
      rw [Json.rewrite_from_obj replacement pointer old kept] at same
      exact ⟨old, present, Json.obj.inj same⟩

theorem text_rewrite_members (pointer : Pointer) (members : Table Json) (key : String)
    (other : key ≠ valueKey) :
    (Table.get? (Json.rewriteMembers replacement pointer members) key).bind Json.text? =
      (Table.get? members key).bind Json.text? := by
  rw [Json.get?_rewrite_members]
  cases Table.get? members key with
  | none => rfl
  | some value =>
    have kept := kept_of_key marks pointer key value other
    cases value <;> simp only [Option.map_some, Option.bind_some, Json.rewriteFrom, kept,
      Option.getD_none, Json.text?]

theorem text_of_rewrite_members (pointer : Pointer) (members : Table Json) (key text : String)
    (after : (Table.get? (Json.rewriteMembers replacement pointer members) key).bind Json.text? =
      some text) :
    (Table.get? members key).bind Json.text? = some text := by
  by_cases other : key = valueKey
  · rw [Json.get?_rewrite_members, Option.bind_map] at after
    obtain ⟨value, found, rewritten⟩ := Option.bind_eq_some_iff.mp after
    rw [found, Option.bind_some]
    cases put : replacement (pointer ++ [key]) value with
    | some new =>
      obtain ⟨-, marker, rfl⟩ := marks.put _ value new put
      simp only [Function.comp_apply, Json.rewrite_from_eq_some _ _ _ _ put, Marker.toJson, Json.text?,
        reduceCtorEq] at rewritten
    | none =>
      cases value with
      | str old => simpa only [Function.comp_apply, Json.rewriteFrom, put, Option.getD_none] using rewritten
      | null | bool | num | arr | obj =>
        simp only [Function.comp_apply, Json.rewriteFrom, put, Option.getD_none, Json.text?,
          reduceCtorEq] at rewritten
  · rwa [text_rewrite_members marks pointer members key other] at after

theorem ref_of?_rewrite_members (pointer : Pointer) (members : Table Json) :
    Marker.refOf? (Json.rewriteMembers replacement pointer members) = Marker.refOf? members :=
  text_rewrite_members marks pointer members Marker.refKey (by decide)

theorem hash_of?_rewrite_members (pointer : Pointer) (members : Table Json) :
    Marker.hashOf? (Json.rewriteMembers replacement pointer members) = Marker.hashOf? members :=
  text_rewrite_members marks pointer members Marker.hashKey (by decide)

theorem has_text_of_rewrite_members (pointer : Pointer) (members : Table Json) (key expected : String)
    (after : hasText (Json.rewriteMembers replacement pointer members) key expected = true) :
    hasText members key expected = true := by
  unfold hasText at after ⊢
  cases found : (Table.get? (Json.rewriteMembers replacement pointer members) key).bind Json.text? with
  | none => simp only [found, Bool.false_eq_true] at after
  | some text =>
    rw [found] at after
    rw [text_of_rewrite_members marks pointer members key text found]
    exact after

theorem is_encrypted_qualifier_of_rewrite_from (pointer : Pointer) (qualifier : Json)
    (kept : replacement pointer qualifier = none)
    (after : isEncryptedQualifier (Json.rewriteFrom replacement pointer qualifier) = true) :
    isEncryptedQualifier qualifier = true := by
  cases qualifier with
  | obj members =>
    rw [Json.rewrite_from_obj replacement pointer members kept] at after
    obtain ⟨kind, value⟩ := Bool.and_eq_true_iff.mp after
    exact Bool.and_eq_true_iff.mpr ⟨has_text_of_rewrite_members marks pointer members _ _ kind,
      has_text_of_rewrite_members marks pointer members _ _ value⟩
  | null | bool | num | str | arr =>
    simp only [Json.rewriteFrom, kept, Option.getD_none, isEncryptedQualifier,
      Bool.false_eq_true] at after

-- A qualifier can lose its value to a marker, so an object can cease to be tagged, and none becomes so.
theorem is_tagged_of_rewrite_members (pointer : Pointer) (members : Table Json)
    (after : isTagged (Json.rewriteMembers replacement pointer members) = true) :
    isTagged members = true := by
  unfold isTagged at after ⊢
  rw [Json.get?_rewrite_members] at after
  cases found : Table.get? members qualifiersKey with
  | none => simp only [found, Option.map_none, Option.bind_none, Bool.false_eq_true] at after
  | some qualifiers =>
    have kept := kept_of_key marks pointer qualifiersKey qualifiers (by decide)
    rw [found, Option.map_some, Option.bind_some] at after
    cases qualifiers with
    | arr items =>
      rw [Json.rewrite_from_arr replacement _ items kept] at after
      obtain ⟨rewritten, member, encrypted⟩ := List.any_eq_true.mp after
      obtain ⟨index, there⟩ := List.getElem?_of_mem member
      rw [Json.get_elem?_rewrite_items] at there
      obtain ⟨item, present, rfl⟩ := Option.map_eq_some_iff.mp there
      refine List.any_eq_true.mpr ⟨item, List.mem_of_getElem? present, ?_⟩
      exact is_encrypted_qualifier_of_rewrite_from marks _ item
        (kept_of_key marks _ _ item (index_segment_ne_value_key _)) encrypted
    | null | bool | num | str | obj =>
      simp only [Json.rewriteFrom, kept, Option.getD_none, Json.items?, Bool.false_eq_true] at after

theorem outermost_rewrite_iff (wellFormed : document.WellFormed) (pointer : Pointer)
    (above : ∀ front segment back, pointer = front ++ segment :: back → Outside document front) :
    Marker.Outermost (document.rewrite replacement) pointer ↔ Marker.Outermost document pointer := by
  constructor
  · intro outermost front segment back split members there
    have moved := object_rewrite marks front members (above front segment back split) there
    rw [← ref_of?_rewrite_members marks front members]
    exact outermost front segment back split _ moved
  · intro outermost front segment back split members there
    rcases object_of_at?_rewrite marks wellFormed front members there with
      ⟨found, member, rfl, -⟩ | ⟨-, old, oldThere, rfl⟩
    · exact absurd List.prefix_rfl (above found.1 segment back split found member)
    · rw [ref_of?_rewrite_members marks front old]
      exact outermost front segment back split old oldThere

theorem site_of_stray (wellFormed : document.WellFormed) (origin : Marker.Site)
    (member : origin ∈ Marker.sites document) (outside : Outside document origin.pointer) :
    ⟨origin.pointer, Json.rewriteMembers replacement origin.pointer origin.members, origin.ref⟩ ∈
      Marker.sites (document.rewrite replacement) := by
  obtain ⟨there, marked, outermost⟩ := (Marker.mem_sites_iff document origin wellFormed).mp member
  refine (Marker.mem_sites_iff _ _ (well_formed_rewrite marks wellFormed)).mpr
    ⟨object_rewrite marks origin.pointer origin.members outside there, ?_, ?_⟩
  · rwa [ref_of?_rewrite_members marks]
  · exact (outermost_rewrite_iff marks wellFormed origin.pointer
      (outside_above document origin.pointer outside)).mpr outermost

theorem site_of_value (wellFormed : document.WellFormed) (found : Pointer × Json)
    (member : found ∈ values document) (outermost : Marker.Outermost document found.1) :
    ∃ marker : Marker, replacement found.1 found.2 = some marker.toJson ∧
      ⟨found.1, marker.members, marker.refId⟩ ∈ Marker.sites (document.rewrite replacement) := by
  obtain ⟨marker, put, there⟩ := value_rewrite marks wellFormed found member
  refine ⟨marker, put, (Marker.mem_sites_iff _ _ (well_formed_rewrite marks wellFormed)).mpr
    ⟨there, marker.ref_of?_members, ?_⟩⟩
  exact (outermost_rewrite_iff marks wellFormed found.1 fun front segment back split =>
    outside_above_value document wellFormed found member front back segment split).mpr outermost

theorem site_cases (wellFormed : document.WellFormed) (site : Marker.Site)
    (member : site ∈ Marker.sites (document.rewrite replacement)) :
    (∃ found ∈ values document, ∃ marker : Marker, replacement found.1 found.2 = some marker.toJson ∧
        site = ⟨found.1, marker.members, marker.refId⟩) ∨
      ∃ origin ∈ Marker.sites document, Outside document origin.pointer ∧
        site = ⟨origin.pointer, Json.rewriteMembers replacement origin.pointer origin.members,
          origin.ref⟩ := by
  obtain ⟨pointer, members, ref⟩ := site
  obtain ⟨there, marked, outermost⟩ :=
    (Marker.mem_sites_iff _ _ (well_formed_rewrite marks wellFormed)).mp member
  rcases object_of_at?_rewrite marks wellFormed pointer members there with
    ⟨found, present, rfl, marker, put, rfl⟩ | ⟨outside, old, oldThere, rfl⟩
  · obtain rfl : marker.refId = ref := Option.some.inj marked
    exact .inl ⟨found, present, marker, put, rfl⟩
  · rw [ref_of?_rewrite_members marks] at marked
    have above := (outermost_rewrite_iff marks wellFormed pointer
      (outside_above document pointer outside)).mp outermost
    exact .inr ⟨⟨pointer, old, ref⟩,
      (Marker.mem_sites_iff document _ wellFormed).mpr ⟨oldThere, marked, above⟩, outside, rfl⟩

end

end Tag

def Record.site (record : Record) : Marker.Site :=
  ⟨Pointer.split record.path, record.marker.members, record.refId⟩

section

variable (ring : Keyring) (document : Json) (tenant : String) (host : Host)

theorem put_of_value (wellFormed : document.WellFormed) (found : Pointer × Json)
    (member : found ∈ Tag.values document) :
    ∃ record ∈ (Prepared.outcome ring document tenant host).records, ∃ now entropy,
      record = Prepared.recordOf ⟨host.entropy.next 32⟩ tenant now entropy found ∧
        Json.putting ((Prepared.outcome ring document tenant host).records.map Record.placement)
          found.1 found.2 = some record.marker.toJson := by
  obtain ⟨record, present, now, entropy, eq, placement⟩ :=
    placement_of_value ring document tenant host found member
  refine ⟨record, present, now, entropy, eq, ?_⟩
  exact Json.putting_of_mem _ found.1 _ found.2 (nodup_placements ring document tenant host wellFormed)
    (placement ▸ List.mem_map_of_mem present)

theorem value_of_put (pointer : Pointer) (value new : Json)
    (put : Json.putting ((Prepared.outcome ring document tenant host).records.map Record.placement)
      pointer value = some new) :
    ∃ record ∈ (Prepared.outcome ring document tenant host).records,
      record.placement = (pointer, new) ∧ ∃ found ∈ Tag.values document, found.1 = pointer := by
  obtain ⟨entry, first, rfl⟩ := Option.map_eq_some_iff.mp put
  have here : entry.1 = pointer := by simpa using List.find?_some first
  have placed := List.mem_of_find?_eq_some first
  obtain ⟨found, inValues, eq, -⟩ := value_of_placement ring document tenant host entry placed
  obtain ⟨record, present, rfl⟩ := List.mem_map.mp placed
  exact ⟨record, present, Prod.ext here rfl, found, inValues, eq.symm.trans here⟩

theorem marks_outcome (wellFormed : document.WellFormed) :
    Tag.Marks document
      (Json.putting ((Prepared.outcome ring document tenant host).records.map Record.placement)) where
  put pointer value new put := by
    obtain ⟨record, -, placement, found⟩ :=
      value_of_put ring document tenant host pointer value new put
    exact ⟨found, record.marker, (congrArg Prod.snd placement).symm⟩
  every found member := by
    obtain ⟨record, -, -, -, -, put⟩ := put_of_value ring document tenant host wellFormed found member
    exact ⟨_, put⟩

theorem resolved_outcome_eq (reader : String) (wellFormed : document.WellFormed)
    (tagged : Tag.values document ≠ []) :
    resolved ring (Prepared.outcome ring document tenant host).document reader
        (Prepared.outcome ring document tenant host).records
        (.ofPrepared (Prepared.outcome ring document tenant host)) =
      ((Prepared.openingFor ring document tenant host reader).openEach
        (Marker.sites (Prepared.outcome ring document tenant host).document)).map fun entries =>
          (Prepared.outcome ring document tenant host).document.rewrite (Json.putting entries) :=
  resolved_eq_open_each ring _ reader _ _ _
    (Tag.well_formed_rewrite (marks_outcome ring document tenant host wellFormed) wellFormed)
    (records_ne_nil ring document tenant host tagged) (unwraps_outcome ring document tenant host tagged)

variable (wellFormed : document.WellFormed)
  (unmarked : ∀ visit ∈ Json.visits Tag.guide document, Marker.refOf? visit.members = none)

include wellFormed unmarked

theorem outermost_of_unmarked (found : Pointer × Json) (member : found ∈ Tag.values document) :
    Marker.Outermost document found.1 := by
  intro front segment back split members there
  have outside := Tag.outside_above_value document wellFormed found member front back segment split
  exact unmarked _ (Tag.mem_visits_of_at? document front members there outside)

theorem mem_sites_outcome_iff (site : Marker.Site) :
    site ∈ Marker.sites (Prepared.outcome ring document tenant host).document ↔
      ∃ record ∈ (Prepared.outcome ring document tenant host).records, record.site = site := by
  have marks := marks_outcome ring document tenant host wellFormed
  constructor
  · intro member
    rcases Tag.site_cases marks wellFormed site member with
      ⟨found, -, marker, put, rfl⟩ | ⟨origin, stood, outside, -⟩
    · obtain ⟨record, present, placement, -⟩ := value_of_put ring document tenant host _ _ _ put
      obtain ⟨here, same⟩ := Prod.ext_iff.mp placement
      obtain rfl := Marker.to_json_injective record.marker marker same
      exact ⟨record, present, congrArg (Marker.Site.mk · _ _) here⟩
    · obtain ⟨there, marked, -⟩ := (Marker.mem_sites_iff document origin wellFormed).mp stood
      rw [unmarked _ (Tag.mem_visits_of_at? document _ _ there outside)] at marked
      cases marked
  · rintro ⟨record, member, rfl⟩
    obtain ⟨found, inValues, now, entropy, eq⟩ := record_of_mem ring document tenant host record member
    obtain ⟨marker, put, stands⟩ := Tag.site_of_value marks wellFormed found inValues
      (outermost_of_unmarked document wellFormed unmarked found inValues)
    have here : Pointer.split record.path = found.1 := by rw [eq, Prepared.recordOf, Pointer.split_text]
    have placement : (found.1, record.marker.toJson) ∈
        (Prepared.outcome ring document tenant host).records.map Record.placement :=
      here ▸ List.mem_map_of_mem (f := Record.placement) member
    have placed := Json.putting_of_mem _ found.1 record.marker.toJson found.2
      (nodup_placements ring document tenant host wellFormed) placement
    obtain rfl := Marker.to_json_injective _ _ (Option.some.inj (put.symm.trans placed))
    rwa [Record.site, here]

end

end Envelope
