import Envelope.Proofs.Field.Hiding

set_option autoImplicit false

namespace Envelope

namespace Tag

section

variable {document : Json} {replacement : Json.Replacement} (marks : Marks document replacement)

include marks

theorem is_marker_rewrite_from (pointer : Pointer) (value : Json)
    (kept : replacement pointer value = none) :
    Marker.isMarker (Json.rewriteFrom replacement pointer value) = Marker.isMarker value := by
  cases value with
  | null | bool | num | str => simp only [Json.rewriteFrom, kept, Option.getD_none]
  | arr items => simp only [Json.rewrite_from_arr replacement pointer items kept, Marker.isMarker]
  | obj members =>
    simp only [Json.rewrite_from_obj replacement pointer members kept, Marker.isMarker,
      ref_of?_rewrite_members marks pointer members]

theorem sealable?_rewrite_members (wellFormed : document.WellFormed) (pointer : Pointer)
    (members : Table Json) (outside : Outside document pointer)
    (there : document.at? pointer = some (.obj members)) :
    sealable? (Json.rewriteMembers replacement pointer members) = none := by
  refine Option.eq_none_iff_forall_ne_some.mpr fun value sealable => ?_
  obtain ⟨tagged, present, unmarked⟩ := (sealable?_eq_some_iff _ value).mp sealable
  have wasTagged := is_tagged_of_rewrite_members marks pointer members tagged
  rw [Json.get?_rewrite_members] at present
  obtain ⟨before, wasPresent, rfl⟩ := Option.map_eq_some_iff.mp present
  cases marker : Marker.isMarker before with
  | true =>
    have stood := Json.at?_member document pointer members valueKey before there wasPresent
    have kept := kept_of_is_marker marks wellFormed _ before stood marker
    rw [is_marker_rewrite_from marks _ before kept, marker] at unmarked
    cases unmarked
  | false =>
    have wasSealable := (sealable?_eq_some_iff members before).mpr ⟨wasTagged, wasPresent, marker⟩
    have member := mem_values_of_sealable? document pointer members before there outside wasSealable
    obtain ⟨new, put, -⟩ := value_rewrite marks wellFormed _ member
    rw [Json.rewrite_from_eq_some replacement _ before _ put] at unmarked
    cases unmarked

theorem values_rewrite (wellFormed : document.WellFormed) :
    values (document.rewrite replacement) = [] := by
  refine List.filterMap_eq_nil_iff.mpr fun visit visited => ?_
  have there := Json.at?_of_mem_visits guide _ visit (well_formed_rewrite marks wellFormed) visited
  have unsealable : sealable? visit.members = none := by
    rcases object_of_at?_rewrite marks wellFormed visit.pointer visit.members there with
      ⟨_, -, -, marker, -, isMarker⟩ | ⟨outside, old, stood, isOld⟩
    · rw [isMarker]
      rfl
    · rw [isOld]
      exact sealable?_rewrite_members marks wellFormed visit.pointer old outside stood
  rw [unsealable, Option.map_none]

end

end Tag

theorem prepare_of_untagged (ring : Keyring) (document : Json) (tenant : String) (host : Host)
    (wellFormed : document.WellFormed) (untagged : Tag.values document = [])
    (enough : host.entropy.Holds 32) :
    prepare ring document tenant host =
      (.ok ⟨document, [], none⟩, { host with entropy := host.entropy.advance 32 }) := by
  have generated := Action.of_crypto_ok _ _ _ _ (Dek.generate_of_holds host enough)
  have unchanged : document.rewrite (Json.putting []) = document := Json.rewrite_from_none [] document
  simp only [prepare, Action.bind_apply, generated, Prepared.seal_all_eq _ tenant document wellFormed,
    untagged, Prepared.sealEach, List.map_nil, unchanged, List.isEmpty_nil, if_true, Action.pure_apply]

/-- What is prepared has nothing left to seal, and whoever prepares it again gets it back. -/
theorem prepare_again (ring : Keyring) (document : Json) (tenant : String) (host after : Host)
    (prepared : Prepared) (wellFormed : document.WellFormed)
    (prepares : prepare ring document tenant host = (.ok prepared, after)) :
    Tag.paths prepared.document = [] ∧
      ∀ (other : Keyring) (reader : String) (later : Host), later.entropy.Holds 32 →
        prepare other prepared.document reader later =
          (.ok ⟨prepared.document, [], none⟩,
            { later with entropy := later.entropy.advance 32 }) := by
  obtain rfl := prepared_eq_outcome ring document tenant host after prepared wellFormed prepares
  have marks := marks_outcome ring document tenant host wellFormed
  have untagged := Tag.values_rewrite marks wellFormed
  refine ⟨List.map_eq_nil_iff.mpr untagged, fun other reader later enough => ?_⟩
  exact prepare_of_untagged other _ reader later (Tag.well_formed_rewrite marks wellFormed) untagged enough

-- A tagged object whose only qualifier is tagged as well, and loses its value to a marker.
def qualifiedDocument : Json :=
  .obj [("qualifiers", .arr [.obj [("type", .str "confidentiality"), ("value", .str "encrypted"),
      ("qualifiers", .arr [.obj [("type", .str "confidentiality"), ("value", .str "encrypted")]])]]),
    ("value", .str "100")]

def qualifiedHost : Host :=
  ⟨⟨UInt8.ofNat, 0, some 100⟩, .epoch, []⟩

theorem well_formed_qualified_document : qualifiedDocument.WellFormed := by
  simp [qualifiedDocument, Json.WellFormed, Json.MembersWellFormed, Json.ItemsWellFormed, Table.keys]

theorem prepare_again_qualified :
    qualifiedDocument.WellFormed ∧
      Tag.paths qualifiedDocument = ["/value", "/qualifiers/0/value"] ∧
      ∃ prepared after,
        prepare smallRing qualifiedDocument "acme" qualifiedHost = (.ok prepared, after) ∧
          smallHost.entropy.Holds 32 ∧ Tag.paths prepared.document = [] ∧
          prepare smallRing prepared.document "other" smallHost =
            (.ok ⟨prepared.document, [], none⟩,
              { smallHost with entropy := smallHost.entropy.advance 32 }) := by
  have prepares := (prepare_of_holds smallRing qualifiedDocument "acme" qualifiedHost
    well_formed_qualified_document (by decide) (by decide)).1
  obtain ⟨untagged, again⟩ := prepare_again smallRing qualifiedDocument "acme" qualifiedHost _ _
    well_formed_qualified_document (Prod.ext prepares rfl)
  exact ⟨well_formed_qualified_document, by decide, _, _, Prod.ext prepares rfl, by decide, untagged,
    again smallRing "other" smallHost (by decide)⟩

end Envelope
