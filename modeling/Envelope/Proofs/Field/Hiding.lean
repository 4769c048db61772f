import Envelope.Proofs.Field.Marking

set_option autoImplicit false

namespace Envelope

theorem Json.bind_text?_eq_some_iff (found : Option Json) (text : String) :
    found.bind Json.text? = some text ↔ found = some (.str text) := by
  rw [Option.bind_eq_some_iff]
  constructor
  · rintro ⟨value, rfl, texted⟩
    cases value <;> cases texted
    rfl
  · rintro rfl
    exact ⟨_, rfl, rfl⟩

namespace Marker

def HasShape (value : Json) : Prop :=
  ∃ members, value = .obj members ∧
    (Table.keys members).Perm ["enc_ref", "enc_hash", "enc_alg", "enc_v"] ∧
    ∀ key ∈ Table.keys members, ∃ text, Table.get? members key = some (.str text)

theorem has_shape_to_json (marker : Marker) : HasShape marker.toJson := by
  refine ⟨marker.members, rfl, List.Perm.refl _, fun key member => ?_⟩
  simp only [Table.keys, members, List.map_cons, List.map_nil, List.mem_cons, List.not_mem_nil,
    or_false] at member
  rcases member with rfl | rfl | rfl | rfl <;> exact ⟨_, rfl⟩

theorem has_shape_obj_iff (members : Table Json) :
    HasShape (.obj members) ↔
      (Table.keys members).Perm ["enc_ref", "enc_hash", "enc_alg", "enc_v"] ∧
        ∀ key ∈ Table.keys members, ∃ text,
          (Table.get? members key).bind Json.text? = some text := by
  simp only [Json.bind_text?_eq_some_iff]
  constructor
  · rintro ⟨_, ⟨⟩, four, texts⟩
    exact ⟨four, texts⟩
  · exact fun shape => ⟨members, rfl, shape⟩

theorem has_shape_of_mem (members : Table Json) (key : String)
    (four : (Table.keys members).Perm ["enc_ref", "enc_hash", "enc_alg", "enc_v"])
    (present : key ∈ Table.keys members) : key ≠ Tag.valueKey := by
  have one := four.mem_iff.mp present
  rintro rfl
  exact absurd one (by decide)

end Marker

namespace Tag

section

variable {document : Json} {replacement : Json.Replacement} (marks : Marks document replacement)

include marks

theorem has_shape_rewrite_members (pointer : Pointer) (members : Table Json) :
    Marker.HasShape (.obj (Json.rewriteMembers replacement pointer members)) ↔
      Marker.HasShape (.obj members) := by
  rw [Marker.has_shape_obj_iff, Marker.has_shape_obj_iff, Json.keys_rewrite_members]
  refine and_congr_right fun four => forall_congr' fun key => imp_congr_right fun present => ?_
  rw [text_rewrite_members marks pointer members key (Marker.has_shape_of_mem members key four present)]

theorem kept_of_is_marker (wellFormed : document.WellFormed) (pointer : Pointer) (value : Json)
    (there : document.at? pointer = some value) (marker : Marker.isMarker value = true) :
    replacement pointer value = none := by
  refine Option.eq_none_iff_forall_ne_some.mpr fun new put => ?_
  obtain ⟨⟨found, member, rfl⟩, -⟩ := marks.put _ _ new put
  rw [at?_of_mem_values document found wellFormed member] at there
  have unmarked := not_is_marker_of_mem_values document found member
  rw [Option.some.inj there, marker] at unmarked
  cases unmarked

theorem has_shape_of_kept (wellFormed : document.WellFormed) (pointer : Pointer)
    (members : Table Json) (value : Json) (there : document.at? pointer = some (.obj members))
    (present : Table.get? members valueKey = some value) (marker : Marker.isMarker value = true) :
    Marker.HasShape (Json.rewriteFrom replacement (pointer ++ [valueKey]) value) ↔
      Marker.HasShape value := by
  have stood := Json.at?_member document pointer members valueKey value there present
  have kept := kept_of_is_marker marks wellFormed _ value stood marker
  cases value with
  | null | bool | num | str | arr => cases marker
  | obj inner =>
    rw [Json.rewrite_from_obj replacement _ inner kept]
    exact has_shape_rewrite_members marks _ inner

theorem has_shape_iff_of_tagged (wellFormed : document.WellFormed) (pointer : Pointer)
    (members : Table Json) (value : Json)
    (there : (document.rewrite replacement).at? pointer = some (.obj members))
    (tagged : isTagged members = true) (present : Table.get? members valueKey = some value) :
    Marker.HasShape value ↔ ∀ kept, document.at? (pointer ++ [valueKey]) = some kept →
      Marker.isMarker kept = true → Marker.HasShape kept := by
  rcases object_of_at?_rewrite marks wellFormed pointer members there with
    ⟨found, -, -, marker, -, rfl⟩ | ⟨outside, old, oldThere, rfl⟩
  · cases tagged
  · have wasTagged := is_tagged_of_rewrite_members marks pointer old tagged
    rw [Json.get?_rewrite_members] at present
    obtain ⟨before, wasPresent, rfl⟩ := Option.map_eq_some_iff.mp present
    rw [Json.at?_member document pointer old valueKey before oldThere wasPresent]
    simp only [Option.some.injEq, forall_eq']
    cases marker : Marker.isMarker before with
    | true =>
      rw [has_shape_of_kept marks wellFormed pointer old before oldThere wasPresent marker]
      exact ⟨fun shape _ => shape, fun shape => shape rfl⟩
    | false =>
      have sealable := (sealable?_eq_some_iff old before).mpr ⟨wasTagged, wasPresent, marker⟩
      have member := mem_values_of_sealable? document pointer old before oldThere outside sealable
      obtain ⟨new, put, -⟩ := value_rewrite marks wellFormed _ member
      rw [Json.rewrite_from_eq_some replacement _ _ _ put]
      exact iff_of_true new.has_shape_to_json fun unmarked => absurd unmarked Bool.false_ne_true

theorem hidden_of_tagged (wellFormed : document.WellFormed) (pointer : Pointer)
    (members : Table Json) (value : Json) (there : document.at? pointer = some (.obj members))
    (tagged : isTagged members = true) (present : Table.get? members valueKey = some value)
    (unmarked : Marker.isMarker value = false) :
    ∃ place, place <+: pointer ++ [valueKey] ∧ ∃ marker,
      (document.rewrite replacement).at? place = some marker ∧ Marker.HasShape marker := by
  obtain ⟨found, member, within⟩ : ∃ found ∈ values document, found.1 <+: pointer ++ [valueKey] := by
    rcases value_or_around_of_tagged document pointer members value there tagged present unmarked with
      here | ⟨found, member, within⟩
    · exact ⟨_, here, List.prefix_rfl⟩
    · exact ⟨found, member, within.trans (List.prefix_append pointer _)⟩
  obtain ⟨marker, -, placed⟩ := value_rewrite marks wellFormed found member
  exact ⟨found.1, within, _, placed, marker.has_shape_to_json⟩

end

end Tag

theorem prepare_hides (ring : Keyring) (document : Json) (tenant : String) (host after : Host)
    (prepared : Prepared) (wellFormed : document.WellFormed)
    (prepares : prepare ring document tenant host = (.ok prepared, after)) :
    (∀ pointer members value, prepared.document.at? pointer = some (.obj members) →
        Tag.isTagged members = true → Table.get? members Tag.valueKey = some value →
          (Marker.HasShape value ↔ ∀ kept, document.at? (pointer ++ [Tag.valueKey]) = some kept →
            Marker.isMarker kept = true → Marker.HasShape kept)) ∧
      ∀ pointer members value, document.at? pointer = some (.obj members) →
        Tag.isTagged members = true → Table.get? members Tag.valueKey = some value →
          Marker.isMarker value = false →
            ∃ place, place <+: pointer ++ [Tag.valueKey] ∧ ∃ marker,
              prepared.document.at? place = some marker ∧ Marker.HasShape marker := by
  obtain rfl := prepared_eq_outcome ring document tenant host after prepared wellFormed prepares
  have marks := marks_outcome ring document tenant host wellFormed
  exact ⟨fun pointer members value there tagged present =>
      Tag.has_shape_iff_of_tagged marks wellFormed pointer members value there tagged present,
    fun pointer members value there tagged present unmarked =>
      Tag.hidden_of_tagged marks wellFormed pointer members value there tagged present unmarked⟩

theorem prepare_hides_small :
    smallDocument.WellFormed ∧
      (∃ after, prepare smallRing smallDocument "acme" smallHost = (.ok smallPrepared, after)) ∧
      (∀ members value, smallPrepared.document.at? ["secret"] = some (.obj members) →
        Tag.isTagged members = true → Table.get? members Tag.valueKey = some value →
          Marker.HasShape value) ∧
      ∃ place, place <+: ["secret", "value"] ∧ ∃ marker,
        smallPrepared.document.at? place = some marker ∧ Marker.HasShape marker := by
  obtain ⟨tagged, hidden⟩ := prepare_hides smallRing smallDocument "acme" smallHost _ smallPrepared
    well_formed_small_document prepare_small_document
  refine ⟨well_formed_small_document, ⟨_, prepare_small_document⟩, ?_, ?_⟩
  · intro members value there isTagged present
    refine (tagged ["secret"] members value there isTagged present).mpr fun kept stood marker => ?_
    cases stood
    cases marker
  · exact hidden ["secret"] _ _ rfl (by decide) rfl rfl

-- The tagged value is an object with a reference, and with an account number beside it.
def lookalikeDocument : Json :=
  .obj [("account", Tag.tagged (.obj
    [("enc_ref", .str "PO-17"), ("iban", .str "DE89370400440532013000")]))]

theorem well_formed_lookalike_document : lookalikeDocument.WellFormed := by
  simp [lookalikeDocument, Tag.tagged, Tag.qualifiersKey, Tag.typeKey, Tag.valueKey, Json.WellFormed,
    Json.MembersWellFormed, Json.ItemsWellFormed, Table.keys]

theorem lookalike_stays_readable :
    ∃ after prepared members value,
      prepare smallRing lookalikeDocument "acme" smallHost = (.ok prepared, after) ∧
        prepared.document.at? ["account"] = some (.obj members) ∧ Tag.isTagged members = true ∧
        Table.get? members Tag.valueKey = some value ∧ ¬ Marker.HasShape value ∧
        prepared.document.at? ["account", "value", "iban"] =
          some (.str "DE89370400440532013000") := by
  have prepares := (prepare_of_holds smallRing lookalikeDocument "acme" smallHost
    well_formed_lookalike_document (by decide) (by decide)).1
  have untouched := (exact_outcome smallRing lookalikeDocument "acme" smallHost
    well_formed_lookalike_document).untouched (by decide)
  refine ⟨_, _, _, _, Prod.ext prepares rfl, by rw [untouched]; rfl, by decide, rfl, ?_,
    by rw [untouched]; rfl⟩
  rintro ⟨members, ⟨⟩, four, -⟩
  exact absurd four.length_eq (by decide)

end Envelope
