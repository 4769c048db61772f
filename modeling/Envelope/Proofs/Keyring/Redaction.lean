import Envelope.Keyring.Settings
import Envelope.Proofs.Keyring.Construction
import Envelope.Proofs.Tandem

set_option autoImplicit false

namespace Envelope

theorem KeyTable.ids_place_congr (keys twins : KeyTable) (id other : String) (key twin : Gcm.Key)
    (valid : IsKeyId id) (otherValid : IsKeyId other) (same : id = other)
    (ids : keys.ids = twins.ids) :
    (keys.place id key valid).ids = (twins.place other twin otherValid).ids := by
  subst same
  exact Table.keys_place_congr keys.entries twins.entries id key twin ids

namespace Keyring

def SameShape (entry other : String × String) : Prop :=
  entry.1 = other.1 ∧
    (Base64.decode? entry.2).map List.length = (Base64.decode? other.2).map List.length

structure LooksLike (ring twin : Keyring) : Prop where
  ids : ring.keys.ids = twin.keys.ids
  active : ring.active = twin.active
  summary : ring.summary = twin.summary

theorem looks_like_of_ids (ring twin : Keyring) (ids : ring.keys.ids = twin.keys.ids)
    (active : ring.active = twin.active) : LooksLike ring twin := by
  refine ⟨ids, active, ?_⟩
  unfold summary
  rw [ids, active]

theorem load_events_of_looks_like (ring twin : Keyring) (requested : String)
    (alike : LooksLike ring twin) : ring.loadEvents requested = twin.loadEvents requested := by
  rw [loadEvents, loadEvents, alike.ids, alike.active]

theorem entry_key_of_same_shape (entry other : String × String) (key : Gcm.Key)
    (same : SameShape entry other) (good : EntryKey entry key) : ∃ twin, EntryKey other twin := by
  obtain ⟨id, shape⟩ := same
  rw [good.2, Option.map_some] at shape
  obtain ⟨bytes, read, length⟩ := Option.map_eq_some_iff.mp shape.symm
  exact ⟨⟨bytes, length.trans key.property⟩, id ▸ good.1, read⟩

theorem entry_fault_of_same_shape (entry other : String × String) (cause : KeyringError)
    (same : SameShape entry other) (fault : EntryFault entry cause) : EntryFault other cause := by
  obtain ⟨otherId, otherText⟩ := other
  obtain ⟨sameId, shape⟩ := same
  cases fault with
  | id id text bad =>
    subst sameId
    exact .id _ otherText bad
  | base64 id text good unread =>
    subst sameId
    rw [unread, Option.map_none] at shape
    exact .base64 _ otherText good (Option.map_eq_none_iff.mp shape.symm)
  | length id text bytes good read wrong =>
    subst sameId
    rw [read, Option.map_some] at shape
    obtain ⟨otherBytes, otherRead, length⟩ := Option.map_eq_some_iff.mp shape.symm
    rw [← length]
    exact .length _ otherText otherBytes good otherRead (length.trans_ne wrong)

theorem alike_add_all (keys twins : KeyTable) (entries others : List (String × String))
    (ids : keys.ids = twins.ids) (same : List.Forall₂ SameShape entries others) :
    Alike (fun built rebuilt => built.ids = rebuilt.ids) (keys.addAll entries)
      (twins.addAll others) := by
  induction same generalizing keys twins with
  | nil => exact .ok keys twins ids
  | @cons entry other rest more here _ ih =>
    rcases entry_cases entry with ⟨key, good⟩ | ⟨cause, fault⟩
    · obtain ⟨twin, otherGood⟩ := entry_key_of_same_shape entry other key here good
      rw [add_all_of_key keys entry rest key good, add_all_of_key twins other more twin otherGood]
      exact ih _ _ (KeyTable.ids_place_congr keys twins _ _ key twin good.1 otherGood.1 here.1 ids)
    · have otherFault := entry_fault_of_same_shape entry other cause here fault
      rw [add_all_of_fault keys entry rest cause fault,
        add_all_of_fault twins other more cause otherFault]
      exact .error cause

theorem alike_of_keys (keys twins : KeyTable) (requested : String) (ids : keys.ids = twins.ids) :
    Alike LooksLike (ofKeys keys requested) (ofKeys twins requested) := by
  by_cases present : requested ∈ keys.ids
  · rw [of_keys_of_mem keys requested present, of_keys_of_mem twins requested (ids ▸ present)]
    exact .ok _ _ (looks_like_of_ids _ _ ids rfl)
  · cases listed : keys.ids with
    | nil =>
      rw [of_keys_of_nil keys requested listed, of_keys_of_nil twins requested (ids.symm.trans listed)]
      exact .error _
    | cons first rest =>
      rw [of_keys_of_cons keys requested first rest present listed,
        of_keys_of_cons twins requested first rest (ids ▸ present) (ids.symm.trans listed)]
      exact .ok _ _ (looks_like_of_ids _ _ ids rfl)

theorem alike_of_entries (entries others : List (String × String)) (requested : String)
    (same : List.Forall₂ SameShape entries others) :
    Alike LooksLike (ofEntries entries requested) (ofEntries others requested) := by
  have alike := alike_add_all KeyTable.empty KeyTable.empty entries others rfl same
  rw [ofEntries, ofEntries]
  generalize KeyTable.empty.addAll entries = keys at alike ⊢
  generalize KeyTable.empty.addAll others = twins at alike ⊢
  cases alike with
  | ok keys twins ids => exact alike_of_keys keys twins requested ids
  | error cause => exact .error cause

theorem alike_load (entries others : List (String × String)) (requested : String) (host : Host)
    (same : List.Forall₂ SameShape entries others) :
    Alike LooksLike (load entries requested host).1 (load others requested host).1 ∧
      (load entries requested host).2 = (load others requested host).2 := by
  have alike := alike_of_entries entries others requested same
  rw [load, load]
  generalize ofEntries entries requested = built at alike ⊢
  generalize ofEntries others requested = rebuilt at alike ⊢
  cases alike with
  | ok ring twin looks =>
    refine ⟨.ok ring twin looks, ?_⟩
    simp only [load_events_of_looks_like ring twin requested looks]
  | error cause => exact ⟨.error (CryptoError.keyring cause), rfl⟩

end Keyring

theorem KeyringSettings.summary_congr (config twin : KeyringSettings)
    (active : config.activeKeyId = twin.activeKeyId)
    (ids : config.keyring.map Table.keys = twin.keyring.map Table.keys)
    (master : config.masterKey.isSome = twin.masterKey.isSome) : config.summary = twin.summary := by
  have shownMaster : config.masterKey.map (fun _ => Text.quoted "[REDACTED]") =
      twin.masterKey.map fun _ => Text.quoted "[REDACTED]" := by
    cases one : config.masterKey <;> cases two : twin.masterKey <;> simp_all
  have shownIds : config.keyring.map (fun keyring => Text.quotedList (Table.keys keyring)) =
      twin.keyring.map fun keyring => Text.quotedList (Table.keys keyring) := by
    have listed := congrArg (Option.map Text.quotedList) ids
    rwa [Option.map_map, Option.map_map] at listed
  unfold summary
  rw [shownMaster, shownIds, active]

namespace Keyring

/-- Entries that are alike but for the bytes of their keys make rings that look the same, or fail with the
same error, and the same is reported. The text of a configuration shows even less of its keys. -/
theorem load_shows_no_key (entries others : List (String × String))
    (same : List.Forall₂ SameShape entries others) :
    (∀ requested host,
      Alike LooksLike (load entries requested host).1 (load others requested host).1 ∧
        (load entries requested host).2 = (load others requested host).2) ∧
      ∀ config twin : KeyringSettings, config.activeKeyId = twin.activeKeyId →
        config.keyring.map Table.keys = twin.keyring.map Table.keys →
        config.masterKey.isSome = twin.masterKey.isSome → config.summary = twin.summary :=
  ⟨fun requested host => alike_load entries others requested host same,
    KeyringSettings.summary_congr⟩

theorem same_shape_encode (id : String) (bytes other : Bytes) (same : bytes.length = other.length) :
    SameShape (id, Base64.encode bytes) (id, Base64.encode other) := by
  refine ⟨rfl, ?_⟩
  rw [Base64.decode?_encode, Base64.decode?_encode, Option.map_some, Option.map_some, same]

def swappedEntries : List (String × String) :=
  [("zeta", keyText 4), ("alpha", keyText 5), ("zeta", keyText 6)]

theorem good_swapped_entries : ∀ entry ∈ swappedEntries, ∃ key, EntryKey entry key := by
  have zeta (byte : UInt8) := entry_key_key_text "zeta" byte (by decide)
  have alpha := entry_key_key_text "alpha" 5 (by decide)
  exact List.forall_mem_cons.mpr ⟨⟨_, zeta 4⟩, List.forall_mem_cons.mpr ⟨⟨_, alpha⟩,
    List.forall_mem_singleton.mpr ⟨_, zeta 6⟩⟩⟩

theorem load_shows_no_key_swapped :
    List.Forall₂ SameShape doubledEntries swappedEntries ∧
      (∃ ring twin, ofEntries doubledEntries "missing" = .ok ring ∧
        ofEntries swappedEntries "missing" = .ok twin ∧
        ring.keys.get? "zeta" ≠ twin.keys.get? "zeta" ∧
        ∀ host, LooksLike ring twin ∧
          (load doubledEntries "missing" host).2 = (load swappedEntries "missing" host).2) ∧
      (List.Forall₂ SameShape [("k1", Base64.encode [1])] [("k1", Base64.encode [255])] ∧
        ∀ host, Alike LooksLike (load [("k1", Base64.encode [1])] "k1" host).1
          (load [("k1", Base64.encode [255])] "k1" host).1) ∧
      KeyringSettings.summary ⟨some (keyText 1), some [("k1", keyText 2)], none⟩ =
        KeyringSettings.summary ⟨some (keyText 3), some [("k1", keyText 4)], none⟩ := by
  have long (byte other : UInt8) : (List.replicate 32 byte).length = (List.replicate 32 other).length := rfl
  have same : List.Forall₂ SameShape doubledEntries swappedEntries :=
    .cons (same_shape_encode _ _ _ (long 1 4)) (.cons (same_shape_encode _ _ _ (long 2 5))
      (.cons (same_shape_encode _ _ _ (long 3 6)) .nil))
  have short : List.Forall₂ SameShape [("k1", Base64.encode [1])] [("k1", Base64.encode [255])] :=
    .cons (same_shape_encode "k1" [1] [255] rfl) .nil
  obtain ⟨ring, ran, built⟩ :=
    of_entries_of_good doubledEntries "missing" (List.cons_ne_nil _ _) good_doubled_entries
  obtain ⟨twin, twinRan, rebuilt⟩ :=
    of_entries_of_good swappedEntries "missing" (List.cons_ne_nil _ _) good_swapped_entries
  have key : ring.keys.get? "zeta" = some ⟨List.replicate 32 3, List.length_replicate⟩ :=
    (built.keys _ _).mpr ⟨keyText 3, rfl, entry_key_key_text "zeta" 3 (by decide)⟩
  have twinKey : twin.keys.get? "zeta" = some ⟨List.replicate 32 6, List.length_replicate⟩ :=
    (rebuilt.keys _ _).mpr ⟨keyText 6, rfl, entry_key_key_text "zeta" 6 (by decide)⟩
  obtain ⟨loads, shows⟩ := load_shows_no_key doubledEntries swappedEntries same
  refine ⟨same, ⟨ring, twin, ran, twinRan, by rw [key, twinKey]; simp, fun host => ?_⟩,
    ⟨short, fun host => ((load_shows_no_key _ _ short).1 "k1" host).1⟩, shows _ _ rfl rfl rfl⟩
  obtain ⟨alike, hosts⟩ := loads "missing" host
  refine ⟨?_, hosts⟩
  rw [load_of_of_entries _ _ ring ran, load_of_of_entries _ _ twin twinRan] at alike
  cases alike with
  | ok _ _ looks => exact looks

end Keyring

end Envelope
