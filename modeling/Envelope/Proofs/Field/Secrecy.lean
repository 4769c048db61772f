import Envelope.Proofs.Field.RoundTrip
import Envelope.Proofs.Tandem

set_option autoImplicit false

namespace Envelope

structure Record.Twins (one other : Record) : Prop where
  refId : one.refId = other.refId
  path : one.path = other.path
  nonce : one.nonce = other.nonce
  keyId : one.keyId = other.keyId
  algorithm : one.algorithm = other.algorithm

namespace Prepared

variable (dek : Dek) (tenant : String)

theorem tandem_seal (plaintext other aad : Bytes)
    (limits : Gcm.Sealable plaintext aad ↔ Gcm.Sealable other aad) :
    Action.Tandem (fun one twin : Sealed => one.nonce = twin.nonce)
      (dek.sealValue plaintext aad) (dek.sealValue other aad) := by
  refine Action.tandem_bind Eq _ _ _ _ _ (Action.tandem_draw 12) fun nonce twin same => ?_
  by_cases fits : Gcm.Sealable plaintext aad
  · simp only [Gcm.sealed?, if_pos fits, if_pos (limits.mp fits)]
    exact Action.tandem_pure _ _ _ same
  · simp only [Gcm.sealed?, if_neg fits, if_neg (mt limits.mpr fits)]
    exact Action.tandem_error _ _

theorem tandem_generate : Action.Tandem Eq Dek.generate Dek.generate :=
  Action.tandem_bind Eq _ _ _ _ _ (Action.tandem_draw 32) fun _ _ same =>
    Action.tandem_pure _ _ _ (congrArg Dek.mk same)

theorem tandem_wrap (ring : Keyring) : Action.Tandem Eq (ring.wrap dek) (ring.wrap dek) := by
  have makes : Action.Tandem Eq (Sealed.make ring.activeKey dek.bytes Keyring.wrapAad)
      (Sealed.make ring.activeKey dek.bytes Keyring.wrapAad) := by
    refine Action.tandem_bind Eq _ _ _ _ _ (Action.tandem_draw 12) fun _ _ same => ?_
    simp only [Gcm.sealed?, if_pos (Keyring.sealable_dek dek)]
    exact Action.tandem_pure _ _ _ (same ▸ rfl)
  exact Action.tandem_bind Eq _ _ _ _ _ makes fun _ _ same =>
    Action.tandem_pure _ _ _ (same ▸ rfl)

theorem tandem_seal_value (pointer : Pointer) (value other : Json)
    (limits : SealableAt tenant (pointer, value) ↔ SealableAt tenant (pointer, other)) :
    Action.Tandem Record.Twins (sealValue dek tenant (pointer, value))
      (sealValue dek tenant (pointer, other)) := by
  refine Action.tandem_bind _ _ _ _ _ _
    (Action.tandem_of_crypto _ _ _ (tandem_seal dek _ _ _ limits)) fun sealed twin nonce => ?_
  refine Action.tandem_bind _ _ _ _ _ _
    (Action.tandem_of_crypto _ _ _ (Action.tandem_draw 16)) fun drawn twinDrawn reference => ?_
  refine Action.tandem_bind _ _ _ _ _ _ Action.tandem_now fun now twinNow _ => ?_
  exact Action.tandem_pure _ _ _ ⟨congrArg Uuid.text reference, rfl, congrArg Subtype.val nonce, rfl, rfl⟩

structure InStep (one other : Json.Edited Progress FieldError (List Record)) : Prop where
  drawn : one.state.host.entropy = other.state.host.entropy
  failure : one.failure = other.failure
  records : List.Forall₂ Record.Twins one.state.records other.state.records

-- Values in the same places, neither of which is too long for the cipher unless the other is.
def Paired (found others : List (Pointer × Json)) : Prop :=
  List.Forall₂ (fun value other =>
    value.1 = other.1 ∧ (SealableAt tenant value ↔ SealableAt tenant other)) found others

theorem paired_of_places (found others : List (Pointer × Json))
    (places : found.map Prod.fst = others.map Prod.fst)
    (limits : List.Forall₂ (fun value other => SealableAt tenant value ↔ SealableAt tenant other)
      found others) : Paired tenant found others := by
  induction limits with
  | nil => exact .nil
  | cons here _ ih =>
    obtain ⟨same, later⟩ := List.cons.inj places
    exact .cons ⟨same, here⟩ (ih later)

theorem in_step_seal_each (found others : List (Pointer × Json))
    (paired : Paired tenant found others) (progress twin : Progress)
    (drawn : progress.host.entropy = twin.host.entropy)
    (records : List.Forall₂ Record.Twins progress.records twin.records) :
    InStep (sealEach dek tenant found progress) (sealEach dek tenant others twin) := by
  induction paired generalizing progress twin with
  | nil => exact ⟨drawn, rfl, records⟩
  | @cons value other rest otherRest here _ ih =>
    obtain ⟨pointer, content⟩ := value
    obtain ⟨_, otherContent⟩ := other
    obtain ⟨rfl, limits⟩ := here
    obtain ⟨spent, results⟩ := tandem_seal_value dek tenant pointer content otherContent limits
      progress.host twin.host drawn
    rcases ran : sealValue dek tenant (pointer, content) progress.host with ⟨result, after⟩
    rcases twinRan : sealValue dek tenant (pointer, otherContent) twin.host with
      ⟨twinResult, twinAfter⟩
    rw [ran, twinRan] at spent results
    cases results with
    | error cause =>
      simp only [sealEach, ran, twinRan]
      exact ⟨spent, rfl, records⟩
    | ok record twinRecord alike =>
      have grown := List.rel_append records (List.Forall₂.cons alike List.Forall₂.nil)
      obtain ⟨drawnLater, failure, recordsLater⟩ :=
        ih ⟨after, progress.records ++ [record]⟩
          ⟨twinAfter, twin.records ++ [twinRecord]⟩ spent grown
      simp only [sealEach, ran, twinRan]
      exact ⟨drawnLater, failure, recordsLater⟩

theorem tandem_seal_all (document twin : Json) (wellFormed : document.WellFormed)
    (twinWellFormed : twin.WellFormed)
    (paired : Paired tenant (Tag.values document) (Tag.values twin)) :
    Action.Tandem (fun one other => List.Forall₂ Record.Twins one.2 other.2)
      (sealAll dek tenant document) (sealAll dek tenant twin) := by
  intro host twinHost same
  obtain ⟨drawn, failure, records⟩ := in_step_seal_each dek tenant _ _ paired ⟨host, []⟩ ⟨twinHost, []⟩
    same List.Forall₂.nil
  rw [seal_all_eq dek tenant document wellFormed, seal_all_eq dek tenant twin twinWellFormed]
  simp only [failure]
  cases (sealEach dek tenant (Tag.values twin) ⟨twinHost, []⟩).failure with
  | some cause => exact ⟨drawn, .error cause⟩
  | none => exact ⟨drawn, .ok _ _ records⟩

structure Twins (one other : Prepared) : Prop where
  records : List.Forall₂ Record.Twins one.records other.records
  wrappedDek : one.wrappedDek = other.wrappedDek

theorem tandem_prepare (ring : Keyring) (document twin : Json) (wellFormed : document.WellFormed)
    (twinWellFormed : twin.WellFormed)
    (paired : Paired tenant (Tag.values document) (Tag.values twin)) :
    Action.Tandem Twins (prepare ring document tenant) (prepare ring twin tenant) := by
  refine Action.tandem_bind _ _ _ _ _ _ (Action.tandem_of_crypto _ _ _ tandem_generate) ?_
  rintro dek _ rfl
  refine Action.tandem_bind _ _ _ _ _ _
    (tandem_seal_all dek tenant document twin wellFormed twinWellFormed paired) ?_
  rintro ⟨sealed, records⟩ ⟨twinSealed, twinRecords⟩ alike
  cases alike with
  | nil => exact Action.tandem_pure _ _ _ ⟨List.Forall₂.nil, rfl⟩
  | cons first rest =>
    refine Action.tandem_bind _ _ _ _ _ _ (Action.tandem_of_crypto _ _ _ (tandem_wrap dek ring)) ?_
    rintro wrapped _ rfl
    refine Action.tandem_bind _ _ _ _ _ _ (Action.tandem_report _ _) fun _ _ _ => ?_
    exact Action.tandem_pure _ _ _ ⟨List.Forall₂.cons first rest, rfl⟩

end Prepared

def Tag.erasing (paths : List String) : Json.Replacement := fun pointer _ =>
  if Pointer.text pointer ∈ paths then some .null else none

def Marker.withoutHash : Json → Json
  | .obj members => .obj (Table.put members hashKey (.str ""))
  | value => value

def Marker.unhashing (paths : List String) : Json.Replacement := fun pointer value =>
  if Pointer.text pointer ∈ paths then some (withoutHash value) else none

theorem Marker.without_hash_to_json (marker : Marker) :
    withoutHash marker.toJson = toJson { marker with hash := "" } := rfl

section

variable (entries : List (Pointer × Json)) (paths : List String)
  (places : (entries.map Prod.fst).map Pointer.text = paths)

include places

theorem Tag.putting_eq_none_iff_path (pointer : Pointer) (value : Json) :
    Json.putting entries pointer value = none ↔ Pointer.text pointer ∉ paths := by
  rw [Json.putting_eq_none_iff, ← places, List.mem_map_of_injective Pointer.text_injective]

theorem Tag.rewrite_unhashing (document : Json) :
    (document.rewrite (Json.putting entries)).rewrite (Marker.unhashing paths) =
      document.rewrite
        (Json.putting (entries.map fun entry => (entry.1, Marker.withoutHash entry.2))) := by
  apply Json.rewrite_from_rewrite_from
  · intro pointer value new put
    have here : Pointer.text pointer ∈ paths := by
      by_contra elsewhere
      rw [(putting_eq_none_iff_path entries paths places pointer value).mpr elsewhere] at put
      cases put
    exact ⟨Marker.withoutHash new, if_pos here, by rw [Json.putting_map, put, Option.map_some]⟩
  · intro pointer value kept
    have elsewhere := (putting_eq_none_iff_path entries paths places pointer value).mp kept
    exact ⟨by rw [Json.putting_map, kept, Option.map_none], fun _ => if_neg elsewhere⟩

theorem Tag.rewrite_erasing (document : Json) :
    (document.rewrite (Tag.erasing paths)).rewrite (Json.putting entries) =
      document.rewrite (Json.putting entries) := by
  apply Json.rewrite_from_rewrite_from
  · intro pointer value new put
    have here : Pointer.text pointer ∈ paths := by
      by_contra elsewhere
      simp only [erasing, if_neg elsewhere, reduceCtorEq] at put
    have some := mt (putting_eq_none_iff_path entries paths places pointer value).mp (not_not_intro here)
    obtain ⟨last, found⟩ := Option.ne_none_iff_exists'.mp some
    exact ⟨last, found, found⟩
  · intro pointer value kept
    have elsewhere : Pointer.text pointer ∉ paths := fun here => by
      simp only [erasing, if_pos here, reduceCtorEq] at kept
    have none := fun other => (putting_eq_none_iff_path entries paths places pointer other).mpr elsewhere
    exact ⟨none value, none⟩

end

namespace Prepared

structure Fits (document : Json) (prepared : Prepared) : Prop where
  paths : prepared.records.map Record.path = Tag.paths document
  lengths : ∀ record ∈ prepared.records, ∃ value,
    document.at? (Pointer.split record.path) = some value ∧
      record.ciphertext.length = value.canonicalBytes.length + 16
  markers : ∀ record ∈ prepared.records,
    prepared.document.at? (Pointer.split record.path) = some record.marker.toJson

theorem fits_outcome (ring : Keyring) (document : Json) (tenant : String) (host : Host)
    (wellFormed : document.WellFormed) : (outcome ring document tenant host).Fits document := by
  have exact := exact_outcome ring document tenant host wellFormed
  refine ⟨exact.paths, fun record member => ?_, exact.marked⟩
  obtain ⟨i, present⟩ := List.getElem?_of_mem member
  obtain ⟨value, there, -, -, ciphertext, -⟩ := exact.sealed i record present
  exact ⟨value, there, by rw [ciphertext, Gcm.length_sealed, Gcm.tagLength]⟩

/-- What two documents are prepared to that differ in their tagged values alone. -/
structure Indistinct (document twin : Json) (one other : Prepared) : Prop where
  twins : one.Twins other
  fits : one.Fits document
  fitsTwin : other.Fits twin
  documents : one.document.rewrite (Marker.unhashing (Tag.paths document)) =
    other.document.rewrite (Marker.unhashing (Tag.paths document))

theorem unhashed_twins (records others : List Record) (twins : List.Forall₂ Record.Twins records others) :
    (records.map Record.placement).map (fun entry => (entry.1, Marker.withoutHash entry.2)) =
      (others.map Record.placement).map (fun entry => (entry.1, Marker.withoutHash entry.2)) := by
  induction twins with
  | nil => rfl
  | cons same _ ih =>
    simp only [List.map_cons, ih, Record.placement, Record.marker, Marker.without_hash_to_json,
      Marker.make, same.path, same.refId]

theorem places_outcome (ring : Keyring) (document : Json) (tenant : String) (host : Host) :
    (((outcome ring document tenant host).records.map Record.placement).map Prod.fst).map
        Pointer.text =
      Tag.paths document := by
  simp only [outcome, placements_records_of]
  exact List.map_map

theorem indistinct_outcome (ring : Keyring) (document twin : Json) (tenant : String)
    (host twinHost : Host) (wellFormed : document.WellFormed) (twinWellFormed : twin.WellFormed)
    (paths : Tag.paths document = Tag.paths twin)
    (erased : document.rewrite (Tag.erasing (Tag.paths document)) =
      twin.rewrite (Tag.erasing (Tag.paths document)))
    (twins : (outcome ring document tenant host).Twins (outcome ring twin tenant twinHost)) :
    Indistinct document twin (outcome ring document tenant host)
      (outcome ring twin tenant twinHost) := by
  refine ⟨twins, fits_outcome ring document tenant host wellFormed,
    fits_outcome ring twin tenant twinHost twinWellFormed, ?_⟩
  have places := places_outcome ring document tenant host
  have twinPlaces := (places_outcome ring twin tenant twinHost).trans paths.symm
  have bare := unhashed_twins _ _ twins.records
  calc
    (outcome ring document tenant host).document.rewrite (Marker.unhashing (Tag.paths document))
      = document.rewrite (Json.putting _) := Tag.rewrite_unhashing _ _ places document
    _ = (document.rewrite (Tag.erasing (Tag.paths document))).rewrite (Json.putting _) :=
      (Tag.rewrite_erasing _ _ (by simpa [Function.comp_def] using places) document).symm
    _ = (twin.rewrite (Tag.erasing (Tag.paths document))).rewrite (Json.putting _) := by
      rw [erased, bare]
    _ = twin.rewrite (Json.putting _) :=
      Tag.rewrite_erasing _ _ (by simpa [Function.comp_def] using twinPlaces) twin
    _ = (outcome ring twin tenant twinHost).document.rewrite
          (Marker.unhashing (Tag.paths document)) := (Tag.rewrite_unhashing _ _ twinPlaces twin).symm

end Prepared

/-- Two documents that differ in their tagged values alone are prepared from the same bytes to the same
records, key and markers, but for the ciphertexts and their hashes, or both fail with one error, unless
a value is too long for the cipher in one of them only. -/
theorem prepare_indistinct (ring : Keyring) (document twin : Json) (tenant : String)
    (host twinHost : Host) (wellFormed : document.WellFormed) (twinWellFormed : twin.WellFormed)
    (paths : Tag.paths document = Tag.paths twin)
    (erased : document.rewrite (Tag.erasing (Tag.paths document)) =
      twin.rewrite (Tag.erasing (Tag.paths document)))
    (limits : List.Forall₂
      (fun value other => Prepared.SealableAt tenant value ↔ Prepared.SealableAt tenant other)
      (Tag.values document) (Tag.values twin))
    (drawn : host.entropy = twinHost.entropy) :
    (prepare ring document tenant host).2.entropy = (prepare ring twin tenant twinHost).2.entropy ∧
      Alike (Prepared.Indistinct document twin) (prepare ring document tenant host).1
        (prepare ring twin tenant twinHost).1 := by
  have pointers : (Tag.values document).map Prod.fst = (Tag.values twin).map Prod.fst := by
    apply List.map_injective_iff.mpr Pointer.text_injective
    simpa only [List.map_map, Function.comp_def, Tag.paths] using paths
  obtain ⟨spent, results⟩ := Prepared.tandem_prepare tenant ring document twin wellFormed
    twinWellFormed (Prepared.paired_of_places tenant _ _ pointers limits) host twinHost drawn
  refine ⟨spent, ?_⟩
  rcases prepares : prepare ring document tenant host with ⟨result, after⟩
  rcases twinPrepares : prepare ring twin tenant twinHost with ⟨twinResult, twinAfter⟩
  rw [prepares, twinPrepares] at results
  cases results with
  | error cause => exact .error cause
  | ok one other twins =>
    obtain rfl := prepared_eq_outcome ring document tenant host after one wellFormed prepares
    obtain rfl := prepared_eq_outcome ring twin tenant twinHost twinAfter other twinWellFormed
      twinPrepares
    exact .ok _ _ (Prepared.indistinct_outcome ring document twin tenant host twinHost wellFormed
      twinWellFormed paths erased twins)

def smallTwin : Json :=
  .obj [("owner", .str "Ada"),
    ("secret", .obj
      [("qualifiers", .arr [.obj [("type", .str "confidentiality"), ("value", .str "encrypted")]]),
        ("value", .num (.int 7))])]

theorem well_formed_small_twin : smallTwin.WellFormed := by
  simp [smallTwin, Json.WellFormed, Json.MembersWellFormed, Json.ItemsWellFormed, Table.keys]

theorem sealable_small_twin : Prepared.Sealable smallTwin "acme" := by decide

theorem prepare_indistinct_small :
    Tag.paths smallDocument = Tag.paths smallTwin ∧
      smallDocument.rewrite (Tag.erasing (Tag.paths smallDocument)) =
        smallTwin.rewrite (Tag.erasing (Tag.paths smallDocument)) ∧
      List.Forall₂
        (fun value other => Prepared.SealableAt "acme" value ↔ Prepared.SealableAt "acme" other)
        (Tag.values smallDocument) (Tag.values smallTwin) ∧
      (prepare smallRing smallDocument "acme" smallHost).2.entropy =
        (prepare smallRing smallTwin "acme" smallHost).2.entropy ∧
      ∃ one other, (prepare smallRing smallDocument "acme" smallHost).1 = .ok one ∧
        (prepare smallRing smallTwin "acme" smallHost).1 = .ok other ∧
        Prepared.Indistinct smallDocument smallTwin one other := by
  have paths : Tag.paths smallDocument = Tag.paths smallTwin := by decide
  have erased : smallDocument.rewrite (Tag.erasing (Tag.paths smallDocument)) =
      smallTwin.rewrite (Tag.erasing (Tag.paths smallDocument)) := by decide
  have limits : List.Forall₂
      (fun value other => Prepared.SealableAt "acme" value ↔ Prepared.SealableAt "acme" other)
      (Tag.values smallDocument) (Tag.values smallTwin) := by
    refine List.forall₂_iff_get.mpr ⟨by decide, fun i here there => ?_⟩
    exact iff_of_true (sealable_small_document _ (List.get_mem _ _))
      (sealable_small_twin _ (List.get_mem _ _))
  obtain ⟨spent, results⟩ := prepare_indistinct smallRing smallDocument smallTwin "acme" smallHost
    smallHost well_formed_small_document well_formed_small_twin paths erased limits rfl
  have one := (prepare_of_holds smallRing smallDocument "acme" smallHost well_formed_small_document
    (by decide) sealable_small_document).1
  have other := (prepare_of_holds smallRing smallTwin "acme" smallHost well_formed_small_twin
    (by decide) sealable_small_twin).1
  rw [one, other] at results
  cases results with
  | ok _ _ same => exact ⟨paths, erased, limits, spent, _, _, one, other, same⟩

end Envelope
