import Envelope.Proofs.Field.Hiding
import Envelope.Proofs.Json.Fields

set_option autoImplicit false

namespace Envelope

theorem Marker.numbers_to_json (marker : Marker) : marker.toJson.numbers = [] := rfl

theorem Marker.depth_to_json (marker : Marker) : marker.toJson.depth = 1 := rfl

namespace Tag

theorem depth_of_is_tagged (members : Table Json) (tagged : isTagged members = true) :
    3 ≤ (Json.obj members).depth := by
  unfold isTagged at tagged
  split at tagged
  · rename_i qualifiers present
    obtain ⟨value, found, listed⟩ := Option.bind_eq_some_iff.mp present
    obtain ⟨qualifier, member, encrypted⟩ := List.any_eq_true.mp tagged
    cases value with
    | null | bool | num | str | obj => cases listed
    | arr items =>
      cases listed
      have outer := Json.depth_lt_of_child? (.obj members) qualifiersKey _ found
      obtain ⟨segment, childAt⟩ := Json.child?_of_mem_items _ qualifier member
      have inner := Json.depth_lt_of_child? _ segment qualifier childAt
      have container : 0 < qualifier.depth := by
        cases qualifier with
        | obj inside => exact Nat.succ_pos _
        | null | bool | num | str | arr => cases encrypted
      omega
  · cases tagged

theorem length_lt_depth (document : Json) (wellFormed : document.WellFormed)
    (found : Pointer × Json) (member : found ∈ values document) :
    found.1.length < document.depth := by
  obtain ⟨visit, visited, sealed⟩ := List.mem_filterMap.mp member
  obtain ⟨here, sealable⟩ := (sealable_at_eq_some_iff visit found).mp sealed
  have there := Json.at?_of_mem_visits guide document visit wellFormed visited
  have within := Json.length_add_depth_le document visit.pointer _ there
  have deep := depth_of_is_tagged visit.members
    ((sealable?_eq_some_iff visit.members found.2).mp sealable).1
  rw [here, List.length_append, List.length_singleton]
  omega

section

variable {document : Json} {replacement : Json.Replacement} (marks : Marks document replacement)

include marks

theorem depth_rewrite_le (wellFormed : document.WellFormed) :
    (document.rewrite replacement).depth ≤ document.depth := by
  cases deep : (document.rewrite replacement).depth with
  | zero => exact Nat.zero_le _
  | succ n =>
    obtain ⟨pointer, inner, there, length, container⟩ :=
      Json.exists_deepest _ (well_formed_rewrite marks wellFormed) n deep
    rcases at?_rewrite_cases marks wellFormed pointer inner there with
      ⟨found, member, path, within, marker, -, inside⟩ | ⟨-, old, present, kept, same⟩
    · have alone := Json.length_add_depth_le marker.toJson path inner inside
      have room := length_lt_depth document wellFormed found member
      rw [← within, List.length_append] at length
      rw [marker.depth_to_json] at alone
      omega
    · have oldContainer : 0 < old.depth := by
        cases old with
        | arr | obj => exact Nat.succ_pos _
        | null | bool | num | str =>
          simp only [Json.rewriteFrom, kept, Option.getD_none] at same
          exact same ▸ container
      have room := Json.length_add_depth_le document pointer old present
      omega

theorem mem_numbers_rewrite (wellFormed : document.WellFormed) (n : Number)
    (member : n ∈ (document.rewrite replacement).numbers) : n ∈ document.numbers := by
  obtain ⟨pointer, there⟩ :=
    Json.exists_number_at _ (well_formed_rewrite marks wellFormed) n member
  have here : n ∈ (Json.num n).numbers := List.mem_singleton_self n
  rcases at?_rewrite_cases marks wellFormed pointer _ there with
    ⟨-, -, path, -, marker, -, inside⟩ | ⟨-, old, present, kept, same⟩
  · have inMarker := Json.mem_numbers_of_at? marker.toJson path _ inside n here
    rw [marker.numbers_to_json] at inMarker
    cases inMarker
  · cases old with
    | num =>
      simp only [Json.rewriteFrom, kept, Option.getD_none] at same
      exact Json.mem_numbers_of_at? document pointer _ present n (same ▸ here)
    | null | bool | str =>
      simp only [Json.rewriteFrom, kept, Option.getD_none, reduceCtorEq] at same
    | arr items =>
      rw [Json.rewrite_from_arr replacement pointer items kept] at same
      cases same
    | obj members =>
      rw [Json.rewrite_from_obj replacement pointer members kept] at same
      cases same

end

end Tag

theorem WrappedDek.of_raw?_raw (wrapped : WrappedDek) :
    ofRaw? (Json.raw wrapped.toJson) = some wrapped := by
  have fields := Json.Raw.fields?_obj ["wrapped", "kek_id", "algorithm"] false
    [("wrapped", .str wrapped.wrapped), ("kek_id", .str wrapped.kekId),
      ("algorithm", .str wrapped.algorithm)] (by simp [Table.keys]) (by simp [Table.keys])
  rw [ofRaw?, toJson, fields]
  simp [Json.Raw.textField?, Table.get?, Json.text?_raw_str]

namespace Record

theorem bytes?_raw (bytes : Bytes) : Json.Raw.bytes? (Json.raw (bytesJson bytes)) = some bytes :=
  Json.Raw.byte_items?_raw_items bytes

theorem of_raw?_raw (record : Record)
    (timely : Timestamp.parse? record.createdAt.text = some record.createdAt) :
    ofRaw? (Json.raw record.toJson) = some record := by
  have fields := Json.Raw.fields?_obj fieldNames false
    [("ref_id", .str record.refId), ("path", .str record.path),
      ("ciphertext", bytesJson record.ciphertext), ("nonce", bytesJson record.nonce),
      ("key_id", .str record.keyId), ("algorithm", .str record.algorithm),
      ("marker_hash", .str record.markerHash), ("created_at", .str record.createdAt.text)]
    (by simp [Table.keys, fieldNames]) (by simp [Table.keys])
  rw [ofRaw?, toJson, fields]
  simp [Json.Raw.textField?, Table.get?, Json.text?_raw_str, bytes?_raw, timely]

theorem legible_bytes_json (bytes : Bytes) : ∀ n ∈ (bytesJson bytes).numbers, n.Legible := by
  intro n member
  obtain ⟨item, present, inside⟩ := (Json.mem_items_numbers_iff _ n).mp member
  obtain ⟨byte, -, rfl⟩ := List.mem_map.mp present
  obtain rfl := List.mem_singleton.mp inside
  have size : byte.toNat < 256 := byte.toNat_lt
  exact ⟨by omega, by omega⟩

theorem legible_to_json (record : Record) : ∀ n ∈ record.toJson.numbers, n.Legible := by
  intro n member
  simp only [toJson, Json.numbers, Json.membersNumbers, List.nil_append, List.append_nil,
    List.mem_append] at member
  rcases member with inCiphertext | inNonce
  · exact legible_bytes_json record.ciphertext n inCiphertext
  · exact legible_bytes_json record.nonce n inNonce

end Record

-- The texts of a prepared document in a store: its own, that of its records, and that of its wrapped
-- key, which is `null` if there is none.
structure Stored where
  document : String
  records : String
  wrappedDek : String

def Prepared.stored (prepared : Prepared) : Stored :=
  ⟨prepared.document.text, (Json.arr (prepared.records.map Record.toJson)).text,
    ((prepared.wrappedDek.map WrappedDek.toJson).getD .null).text⟩

def Stored.load? (stored : Stored) : Option Prepared := do
  let document ← Json.parse? stored.document
  let records ← (Json.Raw.parse? stored.records).bind (Json.Raw.list? Record.ofRaw?)
  let raw ← Json.Raw.parse? stored.wrappedDek
  let wrappedDek ← Json.Raw.optional? WrappedDek.ofRaw? (some raw)
  pure ⟨document, records, wrappedDek⟩

namespace Prepared

theorem load_records (records : List Record)
    (timely : ∀ record ∈ records, Timestamp.parse? record.createdAt.text = some record.createdAt) :
    (Json.Raw.parse? (Json.arr (records.map Record.toJson)).text).bind
        (Json.Raw.list? Record.ofRaw?) =
      some records := by
  have legible : ∀ n ∈ (Json.arr (records.map Record.toJson)).numbers, n.Legible := by
    intro n member
    obtain ⟨item, present, inside⟩ := (Json.mem_items_numbers_iff _ n).mp member
    obtain ⟨record, -, rfl⟩ := List.mem_map.mp present
    exact record.legible_to_json n inside
  rw [Json.Raw.parse?_text _ legible, Option.bind_some]
  exact Json.Raw.list?_raw_items Record.ofRaw? Record.toJson records fun record member =>
    record.of_raw?_raw (timely record member)

theorem load_wrapped_dek (wrappedDek : Option WrappedDek) :
    ∃ raw, Json.Raw.parse? ((wrappedDek.map WrappedDek.toJson).getD .null).text = some raw ∧
      Json.Raw.optional? WrappedDek.ofRaw? (some raw) = some wrappedDek := by
  cases wrappedDek with
  | none => exact ⟨.null, rfl, rfl⟩
  | some wrapped =>
    have legible : ∀ n ∈ wrapped.toJson.numbers, n.Legible := by
      simp [WrappedDek.toJson, Json.numbers, Json.membersNumbers]
    have present : Json.raw wrapped.toJson ≠ .null := by simp [WrappedDek.toJson, Json.raw]
    exact ⟨_, Json.Raw.parse?_text wrapped.toJson legible,
      Json.Raw.optional?_some WrappedDek.ofRaw? _ wrapped present wrapped.of_raw?_raw⟩

theorem load?_stored (prepared : Prepared) (wellFormed : prepared.document.WellFormed)
    (legible : ∀ n ∈ prepared.document.numbers, n.Legible)
    (shallow : prepared.document.depth ≤ Json.Raw.depthLimit)
    (timely : ∀ record ∈ prepared.records,
      Timestamp.parse? record.createdAt.text = some record.createdAt) :
    prepared.stored.load? = some prepared := by
  have document := Json.parse?_text prepared.document wellFormed legible shallow
  have records := load_records prepared.records timely
  obtain ⟨raw, parsed, wrappedDek⟩ := load_wrapped_dek prepared.wrappedDek
  simp only [Stored.load?, stored, document, records, parsed, wrappedDek, Option.bind_eq_bind,
    Option.bind_some, Option.pure_def]

end Prepared

/-- A prepared document nests no deeper than the document, so it can be read wherever that could, and
from a store it comes back as it was: whoever resolves it gets the same. -/
theorem load_stored (ring : Keyring) (document : Json) (tenant : String) (host after : Host)
    (prepared : Prepared) (wellFormed : document.WellFormed)
    (legible : ∀ n ∈ document.numbers, n.Legible) (shallow : document.depth ≤ Json.Raw.depthLimit)
    (timely : ∀ record ∈ prepared.records,
      Timestamp.parse? record.createdAt.text = some record.createdAt)
    (prepares : prepare ring document tenant host = (.ok prepared, after)) :
    prepared.document.depth ≤ document.depth ∧ prepared.stored.load? = some prepared ∧
      ∀ loaded, prepared.stored.load? = some loaded →
        ∀ (other : Keyring) (reader : String) (later : Host),
          resolvePrepared other loaded reader later = resolvePrepared other prepared reader later := by
  obtain rfl := prepared_eq_outcome ring document tenant host after prepared wellFormed prepares
  have marks := marks_outcome ring document tenant host wellFormed
  have nests := Tag.depth_rewrite_le marks wellFormed
  have loads := Prepared.load?_stored (Prepared.outcome ring document tenant host)
    (Tag.well_formed_rewrite marks wellFormed)
    (fun n member => legible n (Tag.mem_numbers_rewrite marks wellFormed n member))
    (Nat.le_trans nests shallow) timely
  refine ⟨nests, loads, fun loaded again other reader later => ?_⟩
  obtain rfl := Option.some.inj (loads.symm.trans again)
  rfl

theorem load_stored_small :
    smallDocument.WellFormed ∧ (∀ n ∈ smallDocument.numbers, n.Legible) ∧
      smallDocument.depth ≤ Json.Raw.depthLimit ∧
      (∀ record ∈ smallPrepared.records,
        Timestamp.parse? record.createdAt.text = some record.createdAt) ∧
      (∃ after, prepare smallRing smallDocument "acme" smallHost = (.ok smallPrepared, after)) ∧
      smallPrepared.document.depth ≤ smallDocument.depth ∧
      smallPrepared.stored.load? = some smallPrepared := by
  have timely : ∀ record ∈ smallPrepared.records,
      Timestamp.parse? record.createdAt.text = some record.createdAt := by
    rw [records_small_prepared, List.forall_mem_singleton]
    have epoch : Timestamp.parse? Timestamp.epoch.text = some Timestamp.epoch := by decide
    exact epoch
  obtain ⟨nests, loads, -⟩ := load_stored smallRing smallDocument "acme" smallHost _
    smallPrepared well_formed_small_document legible_small_document (by decide) timely
    prepare_small_document
  exact ⟨well_formed_small_document, legible_small_document, by decide, timely,
    ⟨_, prepare_small_document⟩, nests, loads⟩

end Envelope
