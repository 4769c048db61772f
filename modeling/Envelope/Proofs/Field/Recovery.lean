import Envelope.Proofs.Field.Marking

set_option autoImplicit false

namespace Envelope

def Answered (rows : List Record) (site : Marker.Site) : Prop :=
  ∃ row ∈ rows, row.refId = site.ref ∧ HashAgrees site.members row

theorem Tag.hash_agrees_rewrite_members {document : Json} {replacement : Json.Replacement}
    (marks : Tag.Marks document replacement) (pointer : Pointer) (members : Table Json) (row : Record) :
    HashAgrees (Json.rewriteMembers replacement pointer members) row ↔ HashAgrees members row := by
  simp only [HashAgrees, ← hash_of?_eq_some_iff, Tag.hash_of?_rewrite_members marks]

theorem answered_of_outcome (dek : Dek) (tenant : String) (rows : List Record) (site : Marker.Site)
    (value : Json) (outcome : Outcome dek tenant rows site (.ok value)) : Answered rows site := by
  cases outcome with
  | value row fits =>
    obtain ⟨member, ref⟩ := mem_of_last_row rows site.ref row fits.last
    exact ⟨row, member, ref, fits.hash⟩

theorem cause_of_unanswered (dek : Dek) (tenant : String) (rows : List Record) (site : Marker.Site)
    (cause : FieldError) (unanswered : ¬ Answered rows site)
    (outcome : Outcome dek tenant rows site (.error cause)) :
    cause = .missingRow site.ref ∨ cause = .hashMismatch site.ref := by
  have answers : ∀ row, LastRow rows site.ref row → ¬ HashAgrees site.members row := by
    intro row last hash
    obtain ⟨member, ref⟩ := mem_of_last_row rows site.ref row last
    exact unanswered ⟨row, member, ref, hash⟩
  cases outcome with
  | missingRow absent => exact .inl rfl
  | hashMismatch row last hash => exact .inr rfl
  | unsupportedAlgorithm row last hash => exact absurd hash (answers row last)
  | nonceLength row fits | dataTooShort row fits | decryptionFailed row fits | notJson row fits =>
    exact absurd fits.hash (answers row fits.last)

section

variable (ring : Keyring) (document : Json) (tenant : String) (host : Host)

theorem answered_of_put (pointer : Pointer) (value : Json) (marker : Marker)
    (put : Json.putting ((Prepared.outcome ring document tenant host).records.map Record.placement)
      pointer value = some marker.toJson) :
    Answered (Prepared.outcome ring document tenant host).records
      ⟨pointer, marker.members, marker.refId⟩ := by
  obtain ⟨record, member, placement, -⟩ := value_of_put ring document tenant host _ _ _ put
  obtain rfl := Marker.to_json_injective record.marker marker (congrArg Prod.snd placement)
  obtain ⟨found, -, now, entropy, eq⟩ := record_of_mem ring document tenant host record member
  exact ⟨record, member, rfl, hash_agrees_members record (by rw [eq]; rfl)⟩

variable (wellFormed : document.WellFormed)

include wellFormed

theorem answered_of_opens (origin : Marker.Site) (member : origin ∈ Marker.sites document)
    (outside : Tag.Outside document origin.pointer)
    (opens : ∀ site ∈ Marker.sites (Prepared.outcome ring document tenant host).document, ∃ value,
      (Prepared.openingFor ring document tenant host tenant).openMarker site.members site.ref =
        .ok value) :
    Answered (Prepared.outcome ring document tenant host).records origin := by
  have marks := marks_outcome ring document tenant host wellFormed
  have stays := Tag.site_of_stray marks wellFormed origin member outside
  obtain ⟨value, opened⟩ := opens _ stays
  obtain ⟨row, present, ref, hash⟩ :=
    answered_of_outcome _ _ _ _ value ((open_marker_eq_iff _ _ _).mp opened)
  exact ⟨row, present, ref, (Tag.hash_agrees_rewrite_members marks _ _ row).mp hash⟩

variable (legible : ∀ n ∈ document.numbers, n.Legible)
  (shallow : document.depth ≤ Json.Raw.depthLimit) (fits : Prepared.Sealable document tenant)
  (distinct : ((Prepared.outcome ring document tenant host).records.map Record.refId).Nodup)

include legible shallow fits distinct

theorem opens_of_answered (site : Marker.Site)
    (answered : Answered (Prepared.outcome ring document tenant host).records site) :
    ∃ value, (Prepared.openingFor ring document tenant host tenant).openMarker site.members
      site.ref = .ok value := by
  obtain ⟨record, member, ref, hash⟩ := answered
  obtain ⟨found, inValues, now, entropy, eq⟩ := record_of_mem ring document tenant host record member
  have read := reads_of_mem_values document wellFormed legible shallow found inValues
  have opens := Opening.open_row_record_of ⟨host.entropy.next 32⟩ tenant
    (Prepared.outcome ring document tenant host).records now entropy found _
    (fits found inValues) read
  refine ⟨found.2.sortKeys, ?_⟩
  rw [Opening.open_marker_of_mem (Prepared.openingFor ring document tenant host tenant) site record
    member distinct ref hash (by rw [eq]; rfl), eq]
  exact opens

theorem stray_of_failed (site : Marker.Site) (cause : FieldError)
    (member : site ∈ Marker.sites (Prepared.outcome ring document tenant host).document)
    (outcome : Outcome ⟨host.entropy.next 32⟩ tenant (Prepared.outcome ring document tenant host).records
      site (.error cause)) :
    ∃ origin ∈ Marker.sites document, Tag.Outside document origin.pointer ∧
      ¬ Answered (Prepared.outcome ring document tenant host).records origin ∧
      (cause = .missingRow origin.ref ∨ cause = .hashMismatch origin.ref) := by
  have marks := marks_outcome ring document tenant host wellFormed
  have unanswered : ¬ Answered (Prepared.outcome ring document tenant host).records site := by
    intro answered
    obtain ⟨value, opens⟩ :=
      opens_of_answered ring document tenant host wellFormed legible shallow fits distinct site answered
    rw [(open_marker_eq_iff _ site _).mpr outcome] at opens
    cases opens
  have named := cause_of_unanswered _ _ _ site cause unanswered outcome
  rcases Tag.site_cases marks wellFormed site member with
    ⟨found, -, marker, put, rfl⟩ | ⟨origin, stood, outside, rfl⟩
  · exact absurd (answered_of_put ring document tenant host _ _ marker put) unanswered
  · refine ⟨origin, stood, outside, ?_, named⟩
    rintro ⟨row, present, ref, hash⟩
    exact unanswered ⟨row, present, ref, (Tag.hash_agrees_rewrite_members marks _ _ row).mpr hash⟩

end

/-- What is prepared resolves again unless an object that counts as a marker was left outside the sealed
values and no row answers it, and then such an object decides the error. -/
theorem resolves_iff_answered (ring : Keyring) (document : Json) (tenant : String)
    (host after : Host) (prepared : Prepared) (wellFormed : document.WellFormed)
    (legible : ∀ n ∈ document.numbers, n.Legible) (shallow : document.depth ≤ Json.Raw.depthLimit)
    (prepares : prepare ring document tenant host = (.ok prepared, after))
    (distinct : (prepared.records.map Record.refId).Nodup) (later : Host) :
    ((∃ value, (resolvePrepared ring prepared tenant later).1 = .ok value) ↔
        Tag.paths document = [] ∨ ∀ site ∈ Marker.sites document,
          Tag.Outside document site.pointer → Answered prepared.records site) ∧
      ∀ cause, (resolvePrepared ring prepared tenant later).1 = .error cause →
        ∃ site ∈ Marker.sites document, Tag.Outside document site.pointer ∧
          ¬ Answered prepared.records site ∧
          (cause = .missingRow site.ref ∨ cause = .hashMismatch site.ref) := by
  have fits := (holds_of_prepare ring document tenant host after prepared wellFormed prepares).2
  obtain rfl := prepared_eq_outcome ring document tenant host after prepared wellFormed prepares
  rw [resolvePrepared, resolve_fst]
  by_cases untagged : Tag.values document = []
  · have noPaths : Tag.paths document = [] := List.map_eq_nil_iff.mpr untagged
    rw [resolved_outcome ring document tenant host wellFormed legible shallow fits distinct
      (.inl noPaths)]
    refine ⟨iff_of_true ⟨_, rfl⟩ (.inl noPaths), fun cause failed => ?_⟩
    cases failed
  · rw [resolved_outcome_eq ring document tenant host tenant wellFormed untagged]
    cases opened : (Prepared.openingFor ring document tenant host tenant).openEach
        (Marker.sites (Prepared.outcome ring document tenant host).document) with
    | ok entries =>
      have opens := (open_each_is_ok_iff _ _).mp ⟨entries, opened⟩
      have answered := fun site member outside =>
        answered_of_opens ring document tenant host wellFormed site member outside opens
      refine ⟨iff_of_true ⟨_, rfl⟩ (.inr answered), fun cause failed => ?_⟩
      cases failed
    | error cause =>
      obtain ⟨front, failing, back, split, -, outcome⟩ := (open_each_eq_error_iff _ _ cause).mp opened
      obtain ⟨site, stood, outside, unanswered, named⟩ := stray_of_failed ring document tenant host
        wellFormed legible shallow fits distinct failing cause (by simp [split]) outcome
      refine ⟨iff_of_false ?_ ?_, fun other failed => ?_⟩
      · rintro ⟨value, resolves⟩
        cases resolves
      · rintro (noPaths | answered)
        · exact untagged (List.map_eq_nil_iff.mp noPaths)
        · exact unanswered (answered site stood outside)
      · cases failed
        exact ⟨site, stood, outside, unanswered, named⟩

theorem resolves_iff_answered_small :
    smallDocument.WellFormed ∧ (∀ n ∈ smallDocument.numbers, n.Legible) ∧
      smallDocument.depth ≤ Json.Raw.depthLimit ∧
      (∃ after, prepare smallRing smallDocument "acme" smallHost = (.ok smallPrepared, after)) ∧
      (smallPrepared.records.map Record.refId).Nodup ∧
      ∃ value, (resolvePrepared smallRing smallPrepared "acme" smallHost).1 = .ok value := by
  have answered : ∀ site ∈ Marker.sites smallDocument, Tag.Outside smallDocument site.pointer →
      Answered smallPrepared.records site := by
    have none : Marker.sites smallDocument = [] := by decide
    simp [none]
  exact ⟨well_formed_small_document, legible_small_document, by decide, ⟨_, prepare_small_document⟩,
    distinct_small_prepared,
    (resolves_iff_answered smallRing smallDocument "acme" smallHost _ smallPrepared
      well_formed_small_document legible_small_document (by decide) prepare_small_document
      distinct_small_prepared smallHost).1.mpr (.inr answered)⟩

-- Beside a tagged value stands an object with a reference of another kind.
def strayDocument : Json :=
  .obj [("invoice", .obj [("enc_ref", .str "PO-17")]), ("price", Tag.tagged (.str "100"))]

theorem well_formed_stray_document : strayDocument.WellFormed := by
  simp [strayDocument, Tag.tagged, Tag.qualifiersKey, Tag.typeKey, Tag.valueKey, Json.WellFormed,
    Json.MembersWellFormed, Json.ItemsWellFormed, Table.keys]

def strayPrepared : Prepared :=
  Prepared.outcome smallRing strayDocument "acme" smallHost

def strayRecord : Record :=
  Prepared.recordOf ⟨smallHost.entropy.next 32⟩ "acme" .epoch (smallHost.entropy.advance 32)
    (["price", "value"], .str "100")

theorem records_stray_prepared : strayPrepared.records = [strayRecord] := by
  have values : Tag.values strayDocument = [(["price", "value"], .str "100")] := by decide
  simp only [strayPrepared, Prepared.outcome, values, Prepared.recordsOf, strayRecord]
  rfl

theorem document_stray_prepared :
    strayPrepared.document = .obj [("invoice", .obj [("enc_ref", .str "PO-17")]),
      ("price", Tag.tagged strayRecord.marker.toJson)] := by
  have rewritten : strayPrepared.document =
      strayDocument.rewrite (Json.putting (strayPrepared.records.map Record.placement)) := rfl
  have path : strayRecord.path = Pointer.text ["price", "value"] := rfl
  rw [rewritten, records_stray_prepared, List.map_singleton, Record.placement, path, Pointer.split_text]
  rfl

theorem stray_is_not_resolved :
    (∃ after, prepare smallRing strayDocument "acme" smallHost = (.ok strayPrepared, after)) ∧
      (∀ n ∈ strayDocument.numbers, n.Legible) ∧ strayDocument.depth ≤ Json.Raw.depthLimit ∧
      (strayPrepared.records.map Record.refId).Nodup ∧
      (resolvePrepared smallRing strayPrepared "acme" smallHost).1 = .error (.missingRow "PO-17") := by
  have prepares := (prepare_of_holds smallRing strayDocument "acme" smallHost
    well_formed_stray_document (by decide) (by decide)).1
  have numbers : strayDocument.numbers = [] := rfl
  refine ⟨⟨_, Prod.ext prepares rfl⟩, by simp [numbers], by decide, by simp [records_stray_prepared], ?_⟩
  have given : strayPrepared.records ≠ [] := by simp [records_stray_prepared]
  have unwraps : (StoredDek.ofPrepared strayPrepared).Unwraps smallRing
      (.ok ⟨smallHost.entropy.next 32⟩) :=
    unwraps_outcome smallRing strayDocument "acme" smallHost (by decide)
  have missing : Opening.openMarker ⟨⟨smallHost.entropy.next 32⟩, "acme", strayPrepared.records⟩
      [("enc_ref", .str "PO-17")] "PO-17" = .error (.missingRow "PO-17") := by
    have absent : ∀ row ∈ strayPrepared.records, row.refId ≠ "PO-17" := by
      rw [records_stray_prepared, List.forall_mem_singleton]
      decide
    rw [Opening.openMarker, (row?_eq_none_iff _ "PO-17").mpr absent]
  have marked : Marker.refOf? [("enc_ref", .str "PO-17")] = some "PO-17" := rfl
  have plain : Marker.refOf? [("invoice", .obj [("enc_ref", .str "PO-17")]),
      ("price", Tag.tagged strayRecord.marker.toJson)] = none := rfl
  rw [resolvePrepared, resolve_fst, resolved_of_unwraps _ _ _ _ _ _ given unwraps,
    document_stray_prepared, Opening.rebuild]
  simp only [plain, Opening.rebuildMembers, Opening.rebuild, marked, missing]
  rfl

end Envelope
