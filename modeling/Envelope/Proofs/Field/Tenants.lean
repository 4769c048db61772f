import Envelope.Proofs.Field.Binding
import Envelope.Proofs.Field.Marking
import Envelope.Proofs.Ghash

set_option autoImplicit false

namespace Envelope

def Record.openedFor (record : Record) (dek : Dek) (reader : String) : Except CryptoError Bytes :=
  dek.openValue record.nonce record.ciphertext (Utf8.encode (fieldAad reader record.path))

def Record.OpensFor (record : Record) (dek : Dek) (reader : String) : Prop :=
  ∃ plaintext, record.openedFor dek reader = .ok plaintext

theorem field_aad_ne_of_tenant (tenant reader path : String) (others : tenant ≠ reader) :
    Utf8.encode (fieldAad tenant path) ≠ Utf8.encode (fieldAad reader path) := by
  intro same
  have marked := (field_aad_eq_iff_marked tenant path reader path).mp same
  exact others ((String.append_left_inj _).mp ((String.append_left_inj _).mp marked))

-- The mask does not depend on the associated data, so no other plaintext comes out under others.
theorem Gcm.opened?_sealed_cases (key : Gcm.Key) (nonce : Gcm.Nonce) (plaintext aad other : Bytes) :
    Gcm.opened? key nonce (Gcm.sealed key nonce plaintext aad) other = some plaintext ∨
      Gcm.opened? key nonce (Gcm.sealed key nonce plaintext aad) other = none := by
  have body := (Gcm.body_append (Gcm.mask key nonce plaintext)
    (Gcm.tag key nonce aad (Gcm.mask key nonce plaintext)) (Gcm.length_tag ..)).1
  unfold Gcm.opened?
  split
  · rw [Gcm.sealed, body, Gcm.mask_mask]
    exact .inl rfl
  · exact .inr rfl

theorem Sealed.open_with_sealed_cases (key : Gcm.Key) (nonce : Gcm.Nonce) (plaintext aad other : Bytes) :
    openWith key nonce.val (Gcm.sealed key nonce plaintext aad) other = .ok plaintext ∨
      openWith key nonce.val (Gcm.sealed key nonce plaintext aad) other = .error .decryptionFailed := by
  have long : ¬ (Gcm.sealed key nonce plaintext aad).length < Gcm.tagLength := by
    rw [Gcm.length_sealed]
    omega
  simp only [openWith, Sized.of_bytes?_val, if_neg long]
  rcases Gcm.opened?_sealed_cases key nonce plaintext aad other with opened | closed
  · exact .inl (by rw [opened])
  · exact .inr (by rw [closed])

theorem Sealed.open_with_sealed_iff (key : Gcm.Key) (nonce : Gcm.Nonce) (plaintext aad other : Bytes) :
    openWith key nonce.val (Gcm.sealed key nonce plaintext aad) other = .ok plaintext ↔
      Gcm.Openable plaintext other ∧
        Ghash.share (Gcm.hashKey key) aad plaintext.length =
          Ghash.share (Gcm.hashKey key) other plaintext.length := by
  rw [← Gcm.opened?_sealed_iff key nonce, Gcm.opened?_eq_some_iff, open_with_eq_ok_iff]
  constructor
  · rintro ⟨drawn, same, opens⟩
    rwa [Subtype.ext same] at opens
  · exact fun opens => ⟨nonce, rfl, opens⟩

-- A record opens for another reader exactly if the associated data add the same to the checksum.
theorem opened_for_record_of_iff (dek : Dek) (tenant reader : String) (now : Timestamp)
    (entropy : Entropy) (found : Pointer × Json) :
    (Prepared.recordOf dek tenant now entropy found).openedFor dek reader =
        .ok found.2.canonicalBytes ↔
      Gcm.Openable found.2.canonicalBytes (Utf8.encode (fieldAad reader (Pointer.text found.1))) ∧
        Ghash.share (Gcm.hashKey dek.key) (Utf8.encode (fieldAad tenant (Pointer.text found.1)))
            found.2.canonicalBytes.length =
          Ghash.share (Gcm.hashKey dek.key) (Utf8.encode (fieldAad reader (Pointer.text found.1)))
            found.2.canonicalBytes.length :=
  Sealed.open_with_sealed_iff dek.key (entropy.next 12) _ _ _

theorem opens_for_record_of_iff (dek : Dek) (tenant reader : String) (now : Timestamp)
    (entropy : Entropy) (found : Pointer × Json) :
    (Prepared.recordOf dek tenant now entropy found).OpensFor dek reader ↔
      (Prepared.recordOf dek tenant now entropy found).openedFor dek reader =
        .ok found.2.canonicalBytes := by
  refine ⟨?_, fun opens => ⟨_, opens⟩⟩
  rintro ⟨plaintext, opens⟩
  simp only [Record.openedFor, Dek.openValue, Prepared.recordOf] at opens ⊢
  rcases Sealed.open_with_sealed_cases dek.key (entropy.next 12) found.2.canonicalBytes
    (Utf8.encode (fieldAad tenant (Pointer.text found.1)))
    (Utf8.encode (fieldAad reader (Pointer.text found.1))) with same | wrong
  · exact same
  · rw [wrong] at opens
    cases opens

theorem open_row_eq_ok_iff (opening : Opening) (row : Record) (value : Json) :
    opening.openRow row = .ok value ↔
      ∃ plaintext, row.openedFor opening.dek opening.tenant = .ok plaintext ∧
        Json.ofBytes? plaintext = some value := by
  unfold Opening.openRow Record.openedFor
  cases opening.dek.openValue row.nonce row.ciphertext
      (Utf8.encode (fieldAad opening.tenant row.path)) with
  | error cause => simp
  | ok plaintext => cases read : Json.ofBytes? plaintext <;> simp [read]

theorem open_row_eq_error_iff (opening : Opening) (row : Record) (cause : FieldError) :
    opening.openRow row = .error cause ↔
      (∃ failure, row.openedFor opening.dek opening.tenant = .error failure ∧ cause = .crypto failure) ∨
        ∃ plaintext, row.openedFor opening.dek opening.tenant = .ok plaintext ∧
          Json.ofBytes? plaintext = none ∧ cause = .notJson := by
  unfold Opening.openRow Record.openedFor
  cases opening.dek.openValue row.nonce row.ciphertext
      (Utf8.encode (fieldAad opening.tenant row.path)) with
  | error failure => simp [eq_comm]
  | ok plaintext => cases read : Json.ofBytes? plaintext <;> simp [read, eq_comm]

section

variable (ring : Keyring) (document : Json) (tenant : String) (host : Host)

theorem opened_for_cases (reader : String) (record : Record)
    (member : record ∈ (Prepared.outcome ring document tenant host).records) :
    (∃ found ∈ Tag.values document,
        record.openedFor ⟨host.entropy.next 32⟩ reader = .ok found.2.canonicalBytes) ∨
      record.openedFor ⟨host.entropy.next 32⟩ reader = .error .decryptionFailed := by
  obtain ⟨found, inValues, now, entropy, rfl⟩ := record_of_mem ring document tenant host record member
  simp only [Record.openedFor, Dek.openValue, Prepared.recordOf]
  rcases Sealed.open_with_sealed_cases _ _ _ _ _ with opened | wrong
  · exact .inl ⟨found, inValues, opened⟩
  · exact .inr wrong

theorem wrong_of_not_opens_for (reader : String) (record : Record)
    (member : record ∈ (Prepared.outcome ring document tenant host).records)
    (closed : ¬ record.OpensFor ⟨host.entropy.next 32⟩ reader) :
    record.openedFor ⟨host.entropy.next 32⟩ reader = .error .decryptionFailed := by
  rcases opened_for_cases ring document tenant host reader record member with ⟨_, -, opened⟩ | wrong
  · exact absurd ⟨_, opened⟩ closed
  · exact wrong

theorem reads_of_opened_for (wellFormed : document.WellFormed)
    (legible : ∀ n ∈ document.numbers, n.Legible) (shallow : document.depth ≤ Json.Raw.depthLimit)
    (reader : String) (record : Record)
    (member : record ∈ (Prepared.outcome ring document tenant host).records) (plaintext : Bytes)
    (opened : record.openedFor ⟨host.entropy.next 32⟩ reader = .ok plaintext) :
    (Json.ofBytes? plaintext).isSome = true := by
  rcases opened_for_cases ring document tenant host reader record member with
    ⟨found, inValues, same⟩ | wrong
  · obtain rfl := Except.ok.inj (same.symm.trans opened)
    rw [reads_of_mem_values document wellFormed legible shallow found inValues, Option.isSome_some]
  · rw [wrong] at opened
    cases opened

theorem open_marker_of_record (reader : String) (record : Record)
    (distinct : ((Prepared.outcome ring document tenant host).records.map Record.refId).Nodup)
    (member : record ∈ (Prepared.outcome ring document tenant host).records) :
    (Prepared.openingFor ring document tenant host reader).openMarker record.site.members
        record.site.ref =
      (Prepared.openingFor ring document tenant host reader).openRow record := by
  obtain ⟨found, -, now, entropy, eq⟩ := record_of_mem ring document tenant host record member
  apply Opening.open_marker_of_mem _ record.site record member distinct rfl
  · exact hash_agrees_members record (by rw [eq]; rfl)
  · rw [eq]
    rfl

theorem open_each_of_first (reader : String) (record : Record)
    (distinct : ((Prepared.outcome ring document tenant host).records.map Record.refId).Nodup)
    (member : record ∈ (Prepared.outcome ring document tenant host).records)
    (first : (Marker.sites (Prepared.outcome ring document tenant host).document).head? =
      some record.site)
    (closed : ¬ record.OpensFor ⟨host.entropy.next 32⟩ reader) :
    (Prepared.openingFor ring document tenant host reader).openEach
        (Marker.sites (Prepared.outcome ring document tenant host).document) =
      .error (.crypto .decryptionFailed) := by
  have wrong := wrong_of_not_opens_for ring document tenant host reader record member closed
  have fails : (Prepared.openingFor ring document tenant host reader).openRow record =
      .error (.crypto .decryptionFailed) :=
    (open_row_eq_error_iff _ record _).mpr (.inl ⟨_, wrong, rfl⟩)
  rw [← open_marker_of_record ring document tenant host reader record distinct member] at fails
  obtain ⟨rest, split⟩ := List.head?_eq_some_iff.mp first
  rw [split, Opening.openEach, fails]

variable (wellFormed : document.WellFormed)
  (unmarked : ∀ visit ∈ Json.visits Tag.guide document, Marker.refOf? visit.members = none)
  (distinct : ((Prepared.outcome ring document tenant host).records.map Record.refId).Nodup)

include wellFormed unmarked distinct

theorem opens_for_of_open_each (reader : String) (entries : List (Pointer × Json))
    (opened : (Prepared.openingFor ring document tenant host reader).openEach
      (Marker.sites (Prepared.outcome ring document tenant host).document) = .ok entries)
    (record : Record) (member : record ∈ (Prepared.outcome ring document tenant host).records) :
    record.OpensFor ⟨host.entropy.next 32⟩ reader := by
  have stands := (mem_sites_outcome_iff ring document tenant host wellFormed unmarked record.site).mpr
    ⟨record, member, rfl⟩
  obtain ⟨value, opens⟩ := (open_each_is_ok_iff _ _).mp ⟨entries, opened⟩ record.site stands
  rw [open_marker_of_record ring document tenant host reader record distinct member,
    open_row_eq_ok_iff] at opens
  obtain ⟨plaintext, plain, -⟩ := opens
  exact ⟨plaintext, plain⟩

theorem cause_of_open_each (reader : String) (cause : FieldError)
    (failed : (Prepared.openingFor ring document tenant host reader).openEach
      (Marker.sites (Prepared.outcome ring document tenant host).document) = .error cause) :
    cause = .crypto .decryptionFailed ∨
      cause = .notJson ∧ ∃ record ∈ (Prepared.outcome ring document tenant host).records, ∃ plaintext,
        record.openedFor ⟨host.entropy.next 32⟩ reader = .ok plaintext ∧
          Json.ofBytes? plaintext = none := by
  obtain ⟨front, site, back, split, -, outcome⟩ := (open_each_eq_error_iff _ _ cause).mp failed
  obtain ⟨record, member, rfl⟩ :=
    (mem_sites_outcome_iff ring document tenant host wellFormed unmarked site).mp (by simp [split])
  have fails := (open_marker_eq_iff _ record.site _).mpr outcome
  rw [open_marker_of_record ring document tenant host reader record distinct member,
    open_row_eq_error_iff] at fails
  rcases fails with ⟨failure, closed, rfl⟩ | ⟨plaintext, plain, unread, rfl⟩
  · rcases opened_for_cases ring document tenant host reader record member with ⟨_, -, opened⟩ | wrong
    · rw [opened] at closed
      cases closed
    · rw [wrong] at closed
      cases closed
      exact .inl rfl
  · exact .inr ⟨rfl, record, member, plaintext, plain, unread⟩

end

/-- Reading for another tenant comes down to the ciphertexts. The associated data differ at every record.
If the record of the first marker does not open, that alone decides the error. If any other does not,
there is no document either, and the error is the same one unless a record opens to what is not JSON.
Who gets a document has opened every record. -/
theorem resolve_for_other_tenant (ring : Keyring) (document : Json) (tenant reader : String)
    (host after : Host) (prepared : Prepared) (wellFormed : document.WellFormed)
    (tagged : Tag.paths document ≠ [])
    (unmarked : ∀ visit ∈ Json.visits Tag.guide document, Marker.refOf? visit.members = none)
    (others : tenant ≠ reader)
    (prepares : prepare ring document tenant host = (.ok prepared, after))
    (distinct : (prepared.records.map Record.refId).Nodup) (later : Host) :
    (∀ record ∈ prepared.records,
        Utf8.encode (fieldAad tenant record.path) ≠ Utf8.encode (fieldAad reader record.path)) ∧
      (∀ record ∈ prepared.records, (Marker.sites prepared.document).head? = some record.site →
        ¬ record.OpensFor ⟨host.entropy.next 32⟩ reader →
          (resolvePrepared ring prepared reader later).1 = .error (.crypto .decryptionFailed)) ∧
      (∀ record ∈ prepared.records, ¬ record.OpensFor ⟨host.entropy.next 32⟩ reader →
        (resolvePrepared ring prepared reader later).1 = .error (.crypto .decryptionFailed) ∨
          (resolvePrepared ring prepared reader later).1 = .error .notJson ∧
            ∃ other ∈ prepared.records, ∃ plaintext,
              other.openedFor ⟨host.entropy.next 32⟩ reader = .ok plaintext ∧
                Json.ofBytes? plaintext = none) ∧
      ∀ value, (resolvePrepared ring prepared reader later).1 = .ok value →
        ∀ record ∈ prepared.records, record.OpensFor ⟨host.entropy.next 32⟩ reader := by
  obtain rfl := prepared_eq_outcome ring document tenant host after prepared wellFormed prepares
  have some : Tag.values document ≠ [] := fun none => tagged (List.map_eq_nil_iff.mpr none)
  rw [resolvePrepared, resolve_fst,
    resolved_outcome_eq ring document tenant host reader wellFormed some]
  refine ⟨fun record _ => field_aad_ne_of_tenant tenant reader record.path others, ?_, ?_, ?_⟩
  · intro record member first closed
    rw [open_each_of_first ring document tenant host reader record distinct member first closed]
    rfl
  · intro record member closed
    cases opened : (Prepared.openingFor ring document tenant host reader).openEach
        (Marker.sites (Prepared.outcome ring document tenant host).document) with
    | ok entries =>
      exact absurd (opens_for_of_open_each ring document tenant host wellFormed unmarked distinct reader
        entries opened record member) closed
    | error cause =>
      rcases cause_of_open_each ring document tenant host wellFormed unmarked distinct reader cause
        opened with rfl | ⟨rfl, unread⟩
      · exact .inl rfl
      · exact .inr ⟨rfl, unread⟩
  · intro value resolves record member
    cases opened : (Prepared.openingFor ring document tenant host reader).openEach
        (Marker.sites (Prepared.outcome ring document tenant host).document) with
    | ok entries =>
      exact opens_for_of_open_each ring document tenant host wellFormed unmarked distinct reader entries
        opened record member
    | error cause =>
      rw [opened] at resolves
      cases resolves

theorem resolve_for_other_tenant_small :
    smallDocument.WellFormed ∧ Tag.paths smallDocument ≠ [] ∧
      (∀ visit ∈ Json.visits Tag.guide smallDocument, Marker.refOf? visit.members = none) ∧
      "acme" ≠ "other" ∧
      (∃ after, prepare smallRing smallDocument "acme" smallHost = (.ok smallPrepared, after)) ∧
      (smallPrepared.records.map Record.refId).Nodup ∧
      (∀ record ∈ smallPrepared.records,
        Utf8.encode (fieldAad "acme" record.path) ≠ Utf8.encode (fieldAad "other" record.path)) ∧
      ∀ record ∈ smallPrepared.records, ¬ record.OpensFor ⟨smallHost.entropy.next 32⟩ "other" →
        (resolvePrepared smallRing smallPrepared "other" smallHost).1 =
          .error (.crypto .decryptionFailed) := by
  have tagged : Tag.paths smallDocument ≠ [] := by decide
  have others : "acme" ≠ "other" := by decide
  have reads := reads_of_opened_for smallRing smallDocument "acme" smallHost well_formed_small_document
    legible_small_document (by decide) "other"
  obtain ⟨differ, -, fails, -⟩ := resolve_for_other_tenant smallRing smallDocument "acme" "other"
    smallHost _ smallPrepared well_formed_small_document tagged unmarked_small_document others
    prepare_small_document distinct_small_prepared smallHost
  refine ⟨well_formed_small_document, tagged, unmarked_small_document, others, ⟨_, prepare_small_document⟩,
    distinct_small_prepared, differ, fun record member closed => ?_⟩
  rcases fails record member closed with failed | ⟨-, other, present, plaintext, opened, unread⟩
  · exact failed
  · have read := reads other present plaintext opened
    rw [unread] at read
    cases read

def nestedArray : Nat → Json
  | 0 => .arr []
  | n + 1 => .arr [nestedArray n]

theorem well_formed_nested_array (n : Nat) : (nestedArray n).WellFormed := by
  induction n with
  | zero => trivial
  | succ n ih => exact ⟨ih, trivial⟩

theorem numbers_nested_array (n : Nat) : (nestedArray n).numbers = [] := by
  induction n with
  | zero => rfl
  | succ n ih => rw [nestedArray, Json.numbers, Json.itemsNumbers, ih, Json.itemsNumbers, List.append_nil]

theorem depth_nested_array (n : Nat) : (nestedArray n).depth = n + 1 := by
  induction n with
  | zero => rfl
  | succ n ih => rw [nestedArray, Json.depth, Json.itemsDepth, ih, Json.itemsDepth, Nat.max_zero]

theorem not_json_nested_array (n : Nat) (deep : Json.Raw.depthLimit ≤ n) :
    Json.ofBytes? (nestedArray n).canonicalBytes = none := by
  apply Json.of_bytes?_canonical_bytes_of_deep _ (well_formed_nested_array n)
  · simp [numbers_nested_array]
  · rw [depth_nested_array]
    exact Nat.not_le_of_lt (Nat.lt_succ_of_le deep)

theorem sort_keys_nested_array (n : Nat) : (nestedArray n).sortKeys = nestedArray n := by
  induction n with
  | zero => rfl
  | succ n ih => rw [nestedArray, Json.sortKeys, Json.sortItems, Json.sortItems, ih]

theorem length_nested_array (n : Nat) : (nestedArray n).canonicalBytes.length = 2 * (n + 1) := by
  rw [Json.canonicalBytes, Json.canonical, sort_keys_nested_array]
  induction n with
  | zero => rfl
  | succ n ih =>
    have nested : (nestedArray (n + 1)).text = "[" ++ (nestedArray n).text ++ "]" := by
      apply String.toList_inj.mp
      simp [Json.text, nestedArray, Json.chars, Json.itemsChars]
    have brackets : (Utf8.encode "[").length = 1 ∧ (Utf8.encode "]").length = 1 := by decide
    rw [nested, Utf8.encode_append, Utf8.encode_append, List.length_append, List.length_append, ih,
      brackets.1, brackets.2]
    omega

-- The document itself is tagged, and before its value stands a tagged member. The value is sealed first
-- and opened last. What is in the member nests too deep to be read back.
def deepDocument : Json :=
  .obj [("m", Tag.tagged (nestedArray 127)),
    ("qualifiers", .arr [.obj [("type", .str "confidentiality"), ("value", .str "encrypted")]]),
    ("value", .str "nut")]

def deepHost : Host :=
  ⟨⟨UInt8.ofNat, 0, some 100⟩, .epoch, []⟩

def deepDek : Dek := ⟨deepHost.entropy.next 32⟩

-- Under that key the two names add the same to the checksum of 256 bytes at "/m/value", but not to that
-- of five bytes at "/value".
def deepTenant : String := "acme-fasteners-and-rivets"
def deepReader : String := "customer-ajhabdbliocehhohdhclmncghbaalcoj"

def deepPrepared : Prepared :=
  Prepared.outcome smallRing deepDocument deepTenant deepHost

def nutRecord : Record :=
  Prepared.recordOf deepDek deepTenant .epoch (deepHost.entropy.advance 32)
    (["value"], .str "nut")

def deepRecord : Record :=
  Prepared.recordOf deepDek deepTenant .epoch (deepHost.entropy.advance 60)
    (["m", "value"], nestedArray 127)

theorem values_deep_document :
    Tag.values deepDocument = [(["value"], .str "nut"), (["m", "value"], nestedArray 127)] := by
  rfl

theorem records_deep_prepared : deepPrepared.records = [nutRecord, deepRecord] := by
  simp only [deepPrepared, Prepared.outcome, values_deep_document, Prepared.recordsOf]
  rfl

theorem document_deep_prepared :
    deepPrepared.document = .obj [("m", Tag.tagged deepRecord.marker.toJson),
      ("qualifiers", .arr [.obj [("type", .str "confidentiality"), ("value", .str "encrypted")]]),
      ("value", nutRecord.marker.toJson)] := by
  have rewritten : deepPrepared.document = deepDocument.rewrite
      (Json.putting (deepPrepared.records.map Record.placement)) := rfl
  have path : nutRecord.path = Pointer.text ["value"] := rfl
  have otherPath : deepRecord.path = Pointer.text ["m", "value"] := rfl
  rw [rewritten, records_deep_prepared]
  simp only [List.map_cons, List.map_nil, Record.placement, path, otherPath, Pointer.split_text]
  rfl

theorem sites_deep_prepared :
    Marker.sites deepPrepared.document = [deepRecord.site, nutRecord.site] := by
  rw [document_deep_prepared]
  rfl

theorem hash_key_deep_dek :
    Gcm.hashKey deepDek.key = ⟨0xf29000b62a499fd0, 0xa9f39a6add2e7780⟩ := by
  decide +kernel

theorem sealable_deep_document : Prepared.Sealable deepDocument deepTenant := by
  intro found member
  rw [values_deep_document, List.mem_cons, List.mem_singleton] at member
  rcases member with rfl | rfl
  · decide
  · rw [Prepared.SealableAt, Gcm.Sealable, length_nested_array]
    decide

theorem well_formed_deep_document : deepDocument.WellFormed := by
  simp [deepDocument, Tag.tagged, Tag.qualifiersKey, Tag.typeKey, Tag.valueKey, Json.WellFormed,
    Json.MembersWellFormed, Json.ItemsWellFormed, Table.keys, well_formed_nested_array]

theorem unmarked_deep_document :
    ∀ visit ∈ Json.visits Tag.guide deepDocument, Marker.refOf? visit.members = none := by
  have refs : (Json.visits Tag.guide deepDocument).map (fun visit => Marker.refOf? visit.members) =
      [none, none, none, none] := rfl
  intro visit member
  have listed := List.mem_map_of_mem (f := fun visit => Marker.refOf? visit.members) member
  rw [refs] at listed
  simpa using listed

theorem shares_deep_reader :
    Ghash.share (Gcm.hashKey deepDek.key)
        (Utf8.encode (fieldAad deepTenant (Pointer.text ["m", "value"]))) 256 =
      Ghash.share (Gcm.hashKey deepDek.key)
        (Utf8.encode (fieldAad deepReader (Pointer.text ["m", "value"]))) 256 := by
  apply Ghash.share_eq_of_difference
  rw [hash_key_deep_dek]
  decide +kernel

theorem opens_deep_record :
    deepRecord.openedFor deepDek deepReader = .ok (nestedArray 127).canonicalBytes := by
  rw [deepRecord]
  refine (opened_for_record_of_iff _ _ _ _ _ (["m", "value"], nestedArray 127)).mpr ?_
  rw [Gcm.Openable, length_nested_array]
  exact ⟨⟨by decide, by decide⟩, shares_deep_reader⟩

theorem closed_nut_record : ¬ nutRecord.OpensFor deepDek deepReader := by
  rw [nutRecord, opens_for_record_of_iff, opened_for_record_of_iff, hash_key_deep_dek]
  decide +kernel

theorem distinct_deep_prepared : (deepPrepared.records.map Record.refId).Nodup := by
  have differ : nutRecord.refId ≠ deepRecord.refId := by decide
  simpa [records_deep_prepared] using differ

theorem prepare_deep_document :
    ∃ after, prepare smallRing deepDocument deepTenant deepHost =
      (.ok deepPrepared, after) := by
  have enough : deepHost.entropy.Holds (Prepared.cost (Tag.values deepDocument).length) := by
    rw [values_deep_document, List.length_cons, List.length_singleton]
    decide
  have prepares := (prepare_of_holds smallRing deepDocument deepTenant deepHost
    well_formed_deep_document enough sealable_deep_document).1
  rcases run : prepare smallRing deepDocument deepTenant deepHost with ⟨result, after⟩
  rw [run] at prepares
  exact ⟨after, congrArg (·, after) prepares⟩

theorem first_record_does_not_decide :
    deepDocument.WellFormed ∧ Tag.paths deepDocument ≠ [] ∧
      (∀ visit ∈ Json.visits Tag.guide deepDocument, Marker.refOf? visit.members = none) ∧
      deepTenant ≠ deepReader ∧
      (∃ after, prepare smallRing deepDocument deepTenant deepHost =
        (.ok deepPrepared, after)) ∧
      (deepPrepared.records.map Record.refId).Nodup ∧
      (∃ first, deepPrepared.records.head? = some first ∧
        ¬ first.OpensFor deepDek deepReader) ∧
      (resolvePrepared smallRing deepPrepared deepReader deepHost).1 = .error .notJson := by
  have head : deepPrepared.records.head? = some nutRecord := by
    rw [records_deep_prepared, List.head?_cons]
  refine ⟨well_formed_deep_document, by decide, unmarked_deep_document, by decide, prepare_deep_document,
    distinct_deep_prepared, ⟨nutRecord, head, closed_nut_record⟩, ?_⟩
  have member : deepRecord ∈ deepPrepared.records := by simp [records_deep_prepared]
  have fails := (open_row_eq_error_iff (Prepared.openingFor smallRing deepDocument deepTenant
    deepHost deepReader) deepRecord .notJson).mpr
      (.inr ⟨_, opens_deep_record, not_json_nested_array 127 (Nat.le_refl _), rfl⟩)
  rw [← open_marker_of_record smallRing deepDocument deepTenant deepHost deepReader
    deepRecord distinct_deep_prepared member] at fails
  rw [resolvePrepared, resolve_fst, deepPrepared, resolved_outcome_eq smallRing deepDocument deepTenant
    deepHost deepReader well_formed_deep_document (by simp [values_deep_document])]
  rw [← deepPrepared, sites_deep_prepared, Opening.openEach, fails]
  rfl

end Envelope
