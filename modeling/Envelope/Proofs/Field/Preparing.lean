import Envelope.Proofs.Field.Sealing
import Envelope.Proofs.Keyring.Wrapping

set_option autoImplicit false

namespace Envelope

namespace Prepared

def recordOf (dek : Dek) (tenant : String) (now : Timestamp) (entropy : Entropy)
    (found : Pointer × Json) : Record :=
  let path := Pointer.text found.1
  let nonce := entropy.next 12
  let ciphertext := Gcm.sealed dek.key nonce found.2.canonicalBytes
    (Utf8.encode (fieldAad tenant path))
  ⟨Uuid.text (entropy.ahead 12 16), path, ciphertext, nonce.val, Record.documentKeyId,
    Marker.fieldAlgorithm, Marker.hashOfCiphertext ciphertext, now⟩

def recordsOf (dek : Dek) (tenant : String) :
    Clock → Entropy → List (Pointer × Json) → List Record
  | _, _, [] => []
  | clock, entropy, found :: rest =>
    recordOf dek tenant clock.now entropy found ::
      recordsOf dek tenant (clock.advance 1) (entropy.advance 28) rest

def SealableAt (tenant : String) (found : Pointer × Json) : Prop :=
  Gcm.Sealable found.2.canonicalBytes (Utf8.encode (fieldAad tenant (Pointer.text found.1)))

instance (tenant : String) (found : Pointer × Json) : Decidable (SealableAt tenant found) :=
  inferInstanceAs (Decidable (Gcm.Sealable _ _))

variable (dek : Dek) (tenant : String)

theorem seal_value_of_holds (found : Pointer × Json) (host : Host)
    (enough : host.entropy.Holds 28) (fits : SealableAt tenant found) :
    sealValue dek tenant found host =
      (.ok (recordOf dek tenant host.clock.now host.entropy found), host.advance 28 1) := by
  have nonce := Entropy.holds_of_le host.entropy 12 28 (by decide) enough
  have reference : (host.entropy.advance 12).Holds 16 :=
    (Entropy.holds_advance_iff host.entropy 12 16).mpr enough
  have made := Action.of_crypto_ok _ host _ _ (Sealed.make_of_holds dek.key
    found.2.canonicalBytes (Utf8.encode (fieldAad tenant (Pointer.text found.1))) host nonce fits)
  have drawn := Action.of_crypto_ok _ _ _ _
    (Action.draw_of_holds 16 { host with entropy := host.entropy.advance 12 } reference)
  simp only [sealValue, Dek.sealValue, Action.bind_apply, made, drawn,
    Action.now, Action.pure_apply, Entropy.advance_advance]
  rfl

theorem seal_value_of_not_sealable (found : Pointer × Json) (host : Host)
    (enough : host.entropy.Holds 12) (large : ¬ SealableAt tenant found) :
    sealValue dek tenant found host =
      (.error (.crypto .encryptionFailed), { host with entropy := host.entropy.advance 12 }) := by
  have refused := Action.of_crypto_error _ host _ _ (Sealed.make_of_not_sealable dek.key
    found.2.canonicalBytes (Utf8.encode (fieldAad tenant (Pointer.text found.1))) host enough large)
  simp only [sealValue, Dek.sealValue, Action.bind_apply, refused]

theorem holds_of_seal_value (found : Pointer × Json) (host after : Host) (record : Record)
    (sealed : sealValue dek tenant found host = (.ok record, after)) :
    host.entropy.Holds 28 ∧ SealableAt tenant found := by
  have makes : host.entropy.Holds 12 ∧ SealableAt tenant found := by
    rw [sealValue, Action.bind_apply] at sealed
    rcases made : Sealed.make dek.key found.2.canonicalBytes
      (Utf8.encode (fieldAad tenant (Pointer.text found.1))) host with ⟨outcome, between⟩
    cases outcome with
    | error cause =>
      simp only [Dek.sealValue, Action.of_crypto_error _ host between cause made] at sealed
      cases sealed
    | ok _ => exact Sealed.holds_of_make _ _ _ _ _ _ made
  by_cases enough : host.entropy.Holds 28
  · exact ⟨enough, makes.2⟩
  · have reference : ¬ (host.entropy.advance 12).Holds 16 := fun holds =>
      enough ((Entropy.holds_advance_iff host.entropy 12 16).mp holds)
    have made := Action.of_crypto_ok _ host _ _ (Sealed.make_of_holds dek.key found.2.canonicalBytes
      (Utf8.encode (fieldAad tenant (Pointer.text found.1))) host makes.1 makes.2)
    have undrawn := Action.of_crypto_error _ _ _ _
      (Action.draw_of_not_holds 16 { host with entropy := host.entropy.advance 12 } reference)
    simp only [sealValue, Dek.sealValue, Action.bind_apply, made, undrawn] at sealed
    cases sealed

theorem seal_each_of_holds (found : List (Pointer × Json)) (host : Host) (records : List Record)
    (enough : host.entropy.Holds (28 * found.length))
    (fits : ∀ value ∈ found, SealableAt tenant value) :
    sealEach dek tenant found ⟨host, records⟩ =
      let new := recordsOf dek tenant host.clock host.entropy found
      ⟨new, ⟨host.advance (28 * found.length) found.length, records ++ new⟩, none⟩ := by
  induction found generalizing host records with
  | nil => simp only [sealEach, recordsOf, List.append_nil]; rfl
  | cons value rest ih =>
    obtain ⟨fitsHere, fitsLater⟩ := List.forall_mem_cons.mp fits
    have count : (value :: rest).length = 1 + rest.length := Nat.add_comm ..
    have total : 28 * (1 + rest.length) = 28 + 28 * rest.length := Nat.mul_add ..
    rw [count, total] at enough
    have first := Entropy.holds_of_le host.entropy 28 _ (Nat.le_add_right ..) enough
    have others : (host.entropy.advance 28).Holds (28 * rest.length) :=
      (Entropy.holds_advance_iff ..).mpr enough
    have sealed := seal_value_of_holds dek tenant value host first fitsHere
    have later := ih (host.advance 28 1)
      (records ++ [recordOf dek tenant host.clock.now host.entropy value]) others fitsLater
    simp only [sealEach, sealed, later, recordsOf, Host.entropy_advance, Host.clock_advance,
      Host.advance_advance, List.append_assoc, List.singleton_append, count, total]

theorem seal_each_of_not_sealable (found : List (Pointer × Json)) (progress : Progress)
    (enough : progress.host.entropy.Holds (28 * found.length))
    (large : ¬ ∀ value ∈ found, SealableAt tenant value) :
    (sealEach dek tenant found progress).failure = some (.crypto .encryptionFailed) := by
  induction found generalizing progress with
  | nil => exact absurd (fun _ member => nomatch member) large
  | cons value rest ih =>
    rw [List.length_cons, Nat.mul_add, Nat.mul_one, Nat.add_comm] at enough
    have first := Entropy.holds_of_le progress.host.entropy 28 _ (Nat.le_add_right ..) enough
    by_cases fits : SealableAt tenant value
    · have sealed := seal_value_of_holds dek tenant value progress.host first fits
      simp only [sealEach, sealed]
      exact ih _ ((Entropy.holds_advance_iff ..).mpr enough) fun later =>
        large (List.forall_mem_cons.mpr ⟨fits, later⟩)
    · have nonce := Entropy.holds_of_le progress.host.entropy 12 28 (by decide) first
      simp only [sealEach, seal_value_of_not_sealable dek tenant value progress.host nonce fits]

-- A stream that is used beyond its limit holds nothing, but no draw leads there.
theorem holds_of_seal_each (found : List (Pointer × Json)) (progress : Progress)
    (within : progress.host.entropy.Holds 0)
    (done : (sealEach dek tenant found progress).failure = none) :
    progress.host.entropy.Holds (28 * found.length) ∧ ∀ value ∈ found, SealableAt tenant value := by
  induction found generalizing progress with
  | nil => exact ⟨within, fun _ member => nomatch member⟩
  | cons value rest ih =>
    rcases sealed : sealValue dek tenant value progress.host with ⟨outcome, after⟩
    cases outcome with
    | error cause =>
      simp only [sealEach, sealed] at done
      cases done
    | ok record =>
      obtain ⟨enough, fits⟩ := holds_of_seal_value dek tenant value progress.host after record sealed
      obtain ⟨-, rfl⟩ := Prod.mk.inj
        ((seal_value_of_holds dek tenant value progress.host enough fits).symm.trans sealed)
      simp only [sealEach, sealed] at done
      obtain ⟨later, fitsLater⟩ := ih _ ((Entropy.holds_advance_iff ..).mpr enough) done
      rw [List.length_cons, Nat.mul_add, Nat.mul_one, Nat.add_comm]
      exact ⟨(Entropy.holds_advance_iff ..).mp later, List.forall_mem_cons.mpr ⟨fits, fitsLater⟩⟩

-- How many bytes are drawn for so many values: the key, a nonce and a reference for each value, and
-- the nonce of the wrap if there is anything to wrap.
def cost (values : Nat) : Nat :=
  32 + 28 * values + if values = 0 then 0 else 12

theorem holds_of_cost (values : Nat) (entropy : Entropy) (enough : entropy.Holds (cost values)) :
    entropy.Holds 32 ∧ (entropy.advance 32).Holds (28 * values) := by
  have before : entropy.Holds (32 + 28 * values) :=
    Entropy.holds_of_le entropy _ _ (Nat.le_add_right ..) enough
  exact ⟨Entropy.holds_of_le entropy _ _ (Nat.le_add_right ..) before,
    (Entropy.holds_advance_iff ..).mpr before⟩

variable (clock : Clock) (entropy : Entropy) (found : List (Pointer × Json))

theorem is_empty_records_of : (recordsOf dek tenant clock entropy found).isEmpty = found.isEmpty := by
  cases found <;> rfl

theorem get_elem?_records_of (i : Nat) :
    (recordsOf dek tenant clock entropy found)[i]? =
      found[i]?.map (recordOf dek tenant (clock.advance i).now (entropy.advance (28 * i))) := by
  induction found generalizing clock entropy i with
  | nil => rfl
  | cons value rest ih =>
    cases i with
    | zero => rfl
    | succ i =>
      have total : 28 + 28 * i = 28 * (i + 1) := by omega
      have later : (clock.advance 1).advance i = clock.advance (i + 1) := by
        simp only [Clock.advance, Nat.add_assoc, Nat.add_comm 1 i]
      simp only [recordsOf, List.getElem?_cons_succ, ih, Entropy.advance_advance, total, later]

theorem paths_records_of :
    (recordsOf dek tenant clock entropy found).map Record.path =
      found.map fun value => Pointer.text value.1 := by
  induction found generalizing clock entropy with
  | nil => rfl
  | cons value rest ih => simp only [recordsOf, recordOf, List.map_cons, ih]

theorem placements_records_of :
    ((recordsOf dek tenant clock entropy found).map Record.placement).map Prod.fst =
      found.map Prod.fst := by
  have paths := congrArg (List.map Pointer.split) (paths_records_of dek tenant clock entropy found)
  simpa only [List.map_map, Function.comp_def, Record.placement, Pointer.split_text] using paths

end Prepared

def Prepared.outcome (ring : Keyring) (document : Json) (tenant : String) (host : Host) : Prepared :=
  let dek : Dek := ⟨host.entropy.next 32⟩
  let found := Tag.values document
  let records := recordsOf dek tenant host.clock (host.entropy.advance 32) found
  ⟨document.rewrite (Json.putting (records.map Record.placement)), records,
    if found.isEmpty then none
    else some (ring.wrappedWith dek (host.entropy.ahead (32 + 28 * found.length) 12))⟩

open Prepared

theorem Dek.generate_of_holds (host : Host) (enough : host.entropy.Holds 32) :
    Dek.generate host =
      (.ok ⟨host.entropy.next 32⟩, { host with entropy := host.entropy.advance 32 }) := by
  simp only [Dek.generate, Action.bind_apply, Action.draw_of_holds 32 host enough,
    Action.pure_apply]

theorem Dek.generate_of_not_holds (host : Host) (short : ¬ host.entropy.Holds 32) :
    Dek.generate host = (.error .entropyExhausted, host) := by
  simp only [Dek.generate, Action.bind_apply, Action.draw_of_not_holds 32 host short]

def Prepared.Sealable (document : Json) (tenant : String) : Prop :=
  ∀ found ∈ Tag.values document, SealableAt tenant found

instance (document : Json) (tenant : String) : Decidable (Prepared.Sealable document tenant) :=
  inferInstanceAs (Decidable (∀ found ∈ Tag.values document, SealableAt tenant found))

theorem prepare_of_holds (ring : Keyring) (document : Json) (tenant : String) (host : Host)
    (wellFormed : document.WellFormed)
    (enough : host.entropy.Holds (cost (Tag.values document).length))
    (fits : Prepared.Sealable document tenant) :
    (prepare ring document tenant host).1 = .ok (outcome ring document tenant host) ∧
      (prepare ring document tenant host).2.entropy =
        host.entropy.advance (cost (Tag.values document).length) := by
  obtain ⟨key, values⟩ := holds_of_cost _ host.entropy enough
  have generated := Action.of_crypto_ok _ _ _ _ (Dek.generate_of_holds host key)
  have sealed := seal_each_of_holds ⟨host.entropy.next 32⟩ tenant (Tag.values document)
    { host with entropy := host.entropy.advance 32 } [] values fits
  simp only [prepare, Action.bind_apply, generated,
    seal_all_eq _ tenant document wellFormed, sealed, List.nil_append, is_empty_records_of,
    Host.advance, Entropy.advance_advance]
  cases found : Tag.values document with
  | nil =>
    simp only [List.isEmpty_nil, if_true, Action.pure_apply, outcome, found]
    exact ⟨trivial, rfl⟩
  | cons first rest =>
    rw [found] at enough
    have last : cost (first :: rest).length = 32 + 28 * (first :: rest).length + 12 := rfl
    have wrapped := Action.of_crypto_ok _ _ _ _ (Keyring.wrap_of_holds ring
      ⟨host.entropy.next 32⟩
      { host with
        entropy := host.entropy.advance (32 + 28 * (first :: rest).length)
        clock := host.clock.advance (first :: rest).length }
      ((Entropy.holds_advance_iff ..).mpr enough))
    simp only [List.isEmpty_cons, Bool.false_eq_true, if_false, Action.bind_apply, wrapped,
      Action.report, Action.pure_apply, outcome, found, Entropy.advance_advance, last]
    exact ⟨rfl, trivial⟩

theorem prepare_of_not_sealable (ring : Keyring) (document : Json) (tenant : String) (host : Host)
    (wellFormed : document.WellFormed)
    (enough : host.entropy.Holds (cost (Tag.values document).length))
    (large : ¬ Prepared.Sealable document tenant) :
    (prepare ring document tenant host).1 = .error (.crypto .encryptionFailed) := by
  obtain ⟨key, values⟩ := holds_of_cost _ host.entropy enough
  have generated := Action.of_crypto_ok _ _ _ _ (Dek.generate_of_holds host key)
  have refused := seal_each_of_not_sealable ⟨host.entropy.next 32⟩ tenant (Tag.values document)
    ⟨{ host with entropy := host.entropy.advance 32 }, []⟩ values large
  simp only [prepare, Action.bind_apply, generated, seal_all_eq _ tenant document wellFormed, refused]

theorem holds_of_prepare (ring : Keyring) (document : Json) (tenant : String) (host after : Host)
    (prepared : Prepared) (wellFormed : document.WellFormed)
    (prepares : prepare ring document tenant host = (.ok prepared, after)) :
    host.entropy.Holds (cost (Tag.values document).length) ∧ Prepared.Sealable document tenant := by
  by_cases key : host.entropy.Holds 32
  · have generated := Action.of_crypto_ok _ _ _ _ (Dek.generate_of_holds host key)
    rw [prepare, Action.bind_apply, generated] at prepares
    simp only [Action.bind_apply, seal_all_eq _ tenant document wellFormed] at prepares
    cases failure : (sealEach ⟨host.entropy.next 32⟩ tenant (Tag.values document)
        ⟨{ host with entropy := host.entropy.advance 32 }, []⟩).failure with
    | some cause =>
      simp only [failure] at prepares
      cases prepares
    | none =>
      obtain ⟨values, fits⟩ := holds_of_seal_each ⟨host.entropy.next 32⟩ tenant
        (Tag.values document) _ ((Entropy.holds_advance_iff ..).mpr key) failure
      have sealed := seal_each_of_holds ⟨host.entropy.next 32⟩ tenant (Tag.values document)
        { host with entropy := host.entropy.advance 32 } [] values fits
      refine ⟨?_, fits⟩
      by_contra short
      cases found : Tag.values document with
      | nil =>
        rw [found] at short
        exact short key
      | cons first rest =>
        rw [found] at short sealed prepares
        have unwrapped := Action.of_crypto_error _ _ _ _ (Keyring.wrap_of_not_holds ring
          ⟨host.entropy.next 32⟩
          { host with
            entropy := host.entropy.advance (32 + 28 * (first :: rest).length)
            clock := host.clock.advance (first :: rest).length }
          fun holds => short ((Entropy.holds_advance_iff ..).mp holds))
        simp only [sealed, List.nil_append, is_empty_records_of, List.isEmpty_cons,
          Bool.false_eq_true, if_false, Host.advance, Entropy.advance_advance, Action.bind_apply,
          unwrapped] at prepares
        cases prepares
  · have generated := Action.of_crypto_error _ _ _ _ (Dek.generate_of_not_holds host key)
    rw [prepare, Action.bind_apply, generated] at prepares
    cases prepares

/-- What is made of a document with the bytes of a stream, record by record and byte by byte. -/
structure Prepared.Exact (ring : Keyring) (document : Json) (tenant : String) (entropy : Entropy)
    (prepared : Prepared) : Prop where
  paths : prepared.records.map Record.path = Tag.paths document
  sealed : ∀ i record, prepared.records[i]? = some record →
    ∃ value, document.at? (Pointer.split record.path) = some value ∧
      record.nonce = (entropy.ahead (32 + 28 * i) 12).val ∧
      record.refId = Uuid.text (entropy.ahead (32 + 28 * i + 12) 16) ∧
      record.ciphertext = Gcm.sealed (entropy.ahead 0 32) (entropy.ahead (32 + 28 * i) 12)
        value.canonicalBytes (Utf8.encode (fieldAad tenant record.path)) ∧
      record.markerHash = Hex.encode (Sha256.digest record.ciphertext)
  rewritten : prepared.document =
    document.rewrite (Json.putting (prepared.records.map Record.placement))
  marked : ∀ record ∈ prepared.records,
    prepared.document.at? (Pointer.split record.path) = some (.obj
      [("enc_ref", .str record.refId), ("enc_hash", .str record.markerHash),
        ("enc_alg", .str "AES-256-GCM"), ("enc_v", .str "1")])
  untouched : Tag.paths document = [] → prepared.document = document
  wrapped : prepared.wrappedDek =
    if Tag.paths document = [] then none
    else
      let nonce := entropy.ahead (32 + 28 * (Tag.paths document).length) 12
      some ⟨Base64.encode (nonce.val ++ Gcm.sealed ring.activeKey nonce (entropy.ahead 0 32).val
        Keyring.wrapAad), ring.active, "AES-256-GCM"⟩

theorem get_elem?_outcome (ring : Keyring) (document : Json) (tenant : String) (host : Host) (i : Nat)
    (record : Record) (present : (outcome ring document tenant host).records[i]? = some record) :
    ∃ found ∈ Tag.values document, record =
      recordOf ⟨host.entropy.next 32⟩ tenant (host.clock.advance i).now
        (host.entropy.advance (32 + 28 * i)) found := by
  simp only [outcome, get_elem?_records_of, Entropy.advance_advance, Option.map_eq_some_iff] at present
  obtain ⟨found, there, eq⟩ := present
  exact ⟨found, List.mem_of_getElem? there, eq.symm⟩

theorem record_of_mem (ring : Keyring) (document : Json) (tenant : String) (host : Host)
    (record : Record) (member : record ∈ (outcome ring document tenant host).records) :
    ∃ found ∈ Tag.values document, ∃ now entropy,
      record = recordOf ⟨host.entropy.next 32⟩ tenant now entropy found := by
  obtain ⟨i, present⟩ := List.getElem?_of_mem member
  obtain ⟨found, inValues, eq⟩ := get_elem?_outcome ring document tenant host i record present
  exact ⟨found, inValues, _, _, eq⟩

theorem nodup_placements (ring : Keyring) (document : Json) (tenant : String) (host : Host)
    (wellFormed : document.WellFormed) :
    (((outcome ring document tenant host).records.map Record.placement).map Prod.fst).Nodup := by
  simp only [outcome, placements_records_of]
  exact Tag.nodup_pointers document wellFormed

theorem marked_outcome (ring : Keyring) (document : Json) (tenant : String) (host : Host)
    (wellFormed : document.WellFormed) (record : Record)
    (member : record ∈ (outcome ring document tenant host).records) :
    (outcome ring document tenant host).document.at? (Pointer.split record.path) =
      some record.marker.toJson := by
  obtain ⟨found, inValues, now, entropy, eq⟩ := record_of_mem ring document tenant host record member
  have path : Pointer.split record.path = found.1 := by rw [eq, recordOf, Pointer.split_text]
  have there := Tag.at?_of_mem_values document found wellFormed inValues
  have placement : record.placement = (found.1, record.marker.toJson) := by
    rw [Record.placement, path]
  have placed : (found.1, record.marker.toJson) ∈
      (outcome ring document tenant host).records.map Record.placement :=
    placement ▸ List.mem_map_of_mem member
  rw [path]
  refine Json.at?_rewrite_from _ [] found.1 document found.2 _ there
    (Json.putting_of_mem _ _ _ _ (nodup_placements ring document tenant host wellFormed) placed) ?_
  intro front segment back eq inner
  apply Json.putting_eq_none
  intro entry inRecords same
  have atValue : entry.1 ∈ (Tag.values document).map Prod.fst := by
    rw [← placements_records_of ⟨host.entropy.next 32⟩ tenant host.clock (host.entropy.advance 32)]
    exact List.mem_map_of_mem inRecords
  obtain ⟨other, otherIn, otherEq⟩ := List.mem_map.mp atValue
  have within : other.1 <+: found.1 := by
    rw [otherEq, same, eq]
    exact List.prefix_append front (segment :: back)
  have one := Tag.eq_of_prefix document wellFormed other found otherIn inValues within
  rw [one, same, eq] at otherEq
  simp at otherEq

theorem exact_outcome (ring : Keyring) (document : Json) (tenant : String) (host : Host)
    (wellFormed : document.WellFormed) :
    (outcome ring document tenant host).Exact ring document tenant host.entropy where
  paths := paths_records_of _ tenant host.clock _ (Tag.values document)
  sealed i record present := by
    obtain ⟨found, inValues, rfl⟩ := get_elem?_outcome ring document tenant host i record present
    have there := Tag.at?_of_mem_values document found wellFormed inValues
    refine ⟨found.2, ?_, rfl, ?_, rfl, rfl⟩
    · simpa only [recordOf, Pointer.split_text] using there
    · simp only [recordOf, Entropy.ahead_advance]
  rewritten := rfl
  marked := marked_outcome ring document tenant host wellFormed
  untouched none := by
    have empty : Tag.values document = [] := List.map_eq_nil_iff.mp none
    simp only [outcome, empty, recordsOf, List.map_nil]
    exact Json.rewrite_from_none [] document
  wrapped := by
    simp only [outcome, Tag.paths, List.map_eq_nil_iff, List.isEmpty_iff, List.length_map]
    rfl

/-- With enough bytes a document is prepared exactly, unless one of its values is too long for the
cipher. -/
theorem prepare_exact (ring : Keyring) (document : Json) (tenant : String) (host : Host)
    (wellFormed : document.WellFormed)
    (enough : host.entropy.Holds (cost (Tag.paths document).length)) :
    (Prepared.Sealable document tenant →
      ∃ prepared after, prepare ring document tenant host = (.ok prepared, after) ∧
        after.entropy = host.entropy.advance (cost (Tag.paths document).length) ∧
        prepared.Exact ring document tenant host.entropy) ∧
      (¬ Prepared.Sealable document tenant →
        (prepare ring document tenant host).1 = .error (.crypto .encryptionFailed)) := by
  rw [Tag.paths, List.length_map] at enough ⊢
  refine ⟨fun fits => ?_, prepare_of_not_sealable ring document tenant host wellFormed enough⟩
  obtain ⟨result, drawn⟩ := prepare_of_holds ring document tenant host wellFormed enough fits
  exact ⟨_, _, Prod.ext result rfl, drawn, exact_outcome ring document tenant host wellFormed⟩

def smallDocument : Json :=
  .obj [("owner", .str "Ada"),
    ("secret", .obj
      [("qualifiers", .arr [.obj [("type", .str "confidentiality"), ("value", .str "encrypted")]]),
        ("value", .obj [("b", .num (.int 1)), ("a", .null)])])]

def smallHost : Host :=
  ⟨⟨UInt8.ofNat, 0, some 72⟩, .epoch, []⟩

def smallRing : Keyring :=
  Keyring.ofKey (Sized.zero 32)

theorem well_formed_small_document : smallDocument.WellFormed := by
  simp [smallDocument, Json.WellFormed, Json.MembersWellFormed, Json.ItemsWellFormed, Table.keys]

theorem sealable_small_document : Prepared.Sealable smallDocument "acme" := by decide

theorem prepare_exact_small :
    smallDocument.WellFormed ∧
      smallHost.entropy.Holds (cost (Tag.paths smallDocument).length) ∧
      Prepared.Sealable smallDocument "acme" ∧
      ∃ prepared after,
        prepare smallRing smallDocument "acme" smallHost = (.ok prepared, after) ∧
        after.entropy = smallHost.entropy.advance (cost (Tag.paths smallDocument).length) ∧
        prepared.Exact smallRing smallDocument "acme" smallHost.entropy :=
  ⟨well_formed_small_document, by decide, sealable_small_document,
    (prepare_exact smallRing smallDocument "acme" smallHost well_formed_small_document
      (by decide)).1 sealable_small_document⟩

end Envelope
