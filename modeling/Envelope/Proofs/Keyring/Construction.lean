import Envelope.Proofs.Keyring.Rotation
import Envelope.Proofs.Keyring.Tokens
import Envelope.Proofs.Table

set_option autoImplicit false

namespace Envelope

theorem KeyTable.eq_of_get? (one other : KeyTable) (same : ∀ id, one.get? id = other.get? id) :
    one = other := by
  have entries := Table.eq_of_ascending _ _ one.ascending other.ascending same
  cases one
  cases other
  cases entries
  rfl

namespace Keyring

def EntryKey (entry : String × String) (key : Gcm.Key) : Prop :=
  IsKeyId entry.1 ∧ Base64.decode? entry.2 = some key.val

-- What is wrong with an entry: its id before its text, and the text itself before its length.
inductive EntryFault : String × String → KeyringError → Prop where
  | id (id text : String) (bad : ¬ IsKeyId id) : EntryFault (id, text) (.invalidId id)
  | base64 (id text : String) (good : IsKeyId id) (unread : Base64.decode? text = none) :
    EntryFault (id, text) (.keyNotBase64 id)
  | length (id text : String) (bytes : Bytes) (good : IsKeyId id)
    (read : Base64.decode? text = some bytes) (wrong : bytes.length ≠ 32) :
    EntryFault (id, text) (.keyLength id bytes.length)

theorem entry_cases (entry : String × String) :
    (∃ key, EntryKey entry key) ∨ ∃ cause, EntryFault entry cause := by
  obtain ⟨id, text⟩ := entry
  by_cases good : IsKeyId id
  · cases read : Base64.decode? text with
    | none => exact .inr ⟨_, .base64 id text good read⟩
    | some bytes =>
      by_cases right : bytes.length = 32
      · exact .inl ⟨⟨bytes, right⟩, good, read⟩
      · exact .inr ⟨_, .length id text bytes good read right⟩
  · exact .inr ⟨_, .id id text good⟩

theorem entry_key_unique (entry : String × String) (key other : Gcm.Key) (one : EntryKey entry key)
    (two : EntryKey entry other) : key = other :=
  Subtype.ext (Option.some.inj (one.2.symm.trans two.2))

theorem add_all_of_key (keys : KeyTable) (entry : String × String) (rest : List (String × String))
    (key : Gcm.Key) (good : EntryKey entry key) :
    keys.addAll (entry :: rest) = (keys.place entry.1 key good.1).addAll rest := by
  simp only [KeyTable.addAll, dif_pos good.1, keyOfText, good.2, Sized.of_bytes?_val]

theorem add_all_of_fault (keys : KeyTable) (entry : String × String) (rest : List (String × String))
    (cause : KeyringError) (fault : EntryFault entry cause) :
    keys.addAll (entry :: rest) = .error cause := by
  cases fault with
  | id id text bad => simp only [KeyTable.addAll, dif_neg bad]
  | base64 id text good unread => simp only [KeyTable.addAll, dif_pos good, keyOfText, unread]
  | length id text bytes good read wrong =>
    have none := (Sized.of_bytes?_eq_none_iff 32 bytes).mpr wrong
    simp only [KeyTable.addAll, dif_pos good, keyOfText, read, none]

def FirstFault (entries : List (String × String)) (cause : KeyringError) : Prop :=
  ∃ front entry back, entries = front ++ entry :: back ∧
    (∀ earlier ∈ front, ∃ key, EntryKey earlier key) ∧ EntryFault entry cause

theorem good_or_first_fault (entries : List (String × String)) :
    (∀ entry ∈ entries, ∃ key, EntryKey entry key) ∨ ∃ cause, FirstFault entries cause := by
  induction entries with
  | nil => exact .inl fun _ member => nomatch member
  | cons entry rest ih =>
    rcases entry_cases entry with good | ⟨cause, fault⟩
    · rcases ih with allGood | ⟨cause, front, bad, back, rfl, before, fault⟩
      · exact .inl (List.forall_mem_cons.mpr ⟨good, allGood⟩)
      · exact .inr ⟨cause, entry :: front, bad, back, rfl,
          List.forall_mem_cons.mpr ⟨good, before⟩, fault⟩
    · exact .inr ⟨cause, [], entry, rest, rfl, fun _ member => (nomatch member), fault⟩

theorem add_all_of_good (keys : KeyTable) (entries : List (String × String))
    (good : ∀ entry ∈ entries, ∃ key, EntryKey entry key) :
    ∃ built, keys.addAll entries = .ok built := by
  induction entries generalizing keys with
  | nil => exact ⟨keys, rfl⟩
  | cons entry rest ih =>
    obtain ⟨⟨key, here⟩, later⟩ := List.forall_mem_cons.mp good
    rw [add_all_of_key keys entry rest key here]
    exact ih _ later

theorem add_all_of_first_fault (keys : KeyTable) (entries : List (String × String))
    (cause : KeyringError) (first : FirstFault entries cause) :
    keys.addAll entries = .error cause := by
  obtain ⟨front, entry, back, rfl, before, fault⟩ := first
  induction front generalizing keys with
  | nil => exact add_all_of_fault keys entry back cause fault
  | cons earlier front ih =>
    obtain ⟨⟨key, here⟩, later⟩ := List.forall_mem_cons.mp before
    rw [List.cons_append, add_all_of_key keys earlier _ key here]
    exact ih _ later

theorem add_all_is_ok_iff (keys : KeyTable) (entries : List (String × String)) :
    (∃ built, keys.addAll entries = .ok built) ↔ ∀ entry ∈ entries, ∃ key, EntryKey entry key := by
  refine ⟨fun ⟨built, ran⟩ => ?_, add_all_of_good keys entries⟩
  rcases good_or_first_fault entries with good | ⟨cause, first⟩
  · exact good
  · rw [add_all_of_first_fault keys entries cause first] at ran
    cases ran

def lastText? (entries : List (String × String)) (id : String) : Option String :=
  Table.get? entries.reverse id

theorem last_text?_cons (entry : String × String) (rest : List (String × String)) (id : String) :
    lastText? (entry :: rest) id =
      (lastText? rest id).or (if entry.1 = id then some entry.2 else none) := by
  rw [lastText?, List.reverse_cons, Table.get?_append]
  rfl

theorem last_text?_is_some_iff (entries : List (String × String)) (id : String) :
    (lastText? entries id).isSome ↔ id ∈ Table.keys entries := by
  rw [lastText?, Table.get?_is_some_iff, Table.keys, Table.keys, List.map_reverse, List.mem_reverse]

theorem mem_of_last_text? (entries : List (String × String)) (id text : String)
    (last : lastText? entries id = some text) : (id, text) ∈ entries :=
  List.mem_reverse.mp (Table.mem_of_get? _ id text last)

theorem get?_add_all (keys built : KeyTable) (entries : List (String × String))
    (ran : keys.addAll entries = .ok built) (id : String) (key : Gcm.Key) :
    built.get? id = some key ↔
      (∃ text, lastText? entries id = some text ∧ EntryKey (id, text) key) ∨
        lastText? entries id = none ∧ keys.get? id = some key := by
  induction entries generalizing keys with
  | nil =>
    cases ran
    simp [lastText?, Table.get?]
  | cons entry rest ih =>
    obtain ⟨⟨here, good⟩, -⟩ := List.forall_mem_cons.mp ((add_all_is_ok_iff keys _).mp ⟨built, ran⟩)
    rw [add_all_of_key keys entry rest here good] at ran
    rw [ih _ ran, last_text?_cons, KeyTable.get?_place]
    cases lastText? rest id with
    | some text => simp
    | none =>
      by_cases same : entry.1 = id
      · subst same
        simp only [reduceCtorEq, false_and, exists_false, true_and, false_or, if_true,
          Option.none_or, Option.some.injEq, exists_eq_left', or_false]
        exact ⟨fun eq => eq ▸ good, fun other => entry_key_unique entry here key good other⟩
      · simp [same]

theorem mem_ids_add_all (built : KeyTable) (entries : List (String × String))
    (ran : KeyTable.empty.addAll entries = .ok built) (id : String) :
    id ∈ built.ids ↔ id ∈ Table.keys entries := by
  rw [← KeyTable.get?_is_some_iff, ← last_text?_is_some_iff, Option.isSome_iff_exists,
    Option.isSome_iff_exists]
  constructor
  · intro ⟨key, found⟩
    rcases (get?_add_all KeyTable.empty built entries ran id key).mp found with ⟨text, last, -⟩ | ⟨-, old⟩
    · exact ⟨text, last⟩
    · cases old
  · intro ⟨text, last⟩
    obtain ⟨key, good⟩ := (add_all_is_ok_iff KeyTable.empty entries).mp ⟨built, ran⟩ _
      (mem_of_last_text? entries id text last)
    exact ⟨key, (get?_add_all KeyTable.empty built entries ran id key).mpr (.inl ⟨text, last, good⟩)⟩

theorem of_keys_of_mem (keys : KeyTable) (requested : String) (present : requested ∈ keys.ids) :
    ofKeys keys requested = .ok ⟨keys, requested, present⟩ := by
  rw [ofKeys, dif_pos present]

theorem of_keys_of_cons (keys : KeyTable) (requested first : String) (rest : List String)
    (absent : requested ∉ keys.ids) (ids : keys.ids = first :: rest) :
    ofKeys keys requested = .ok ⟨keys, first, ids ▸ List.mem_cons_self⟩ := by
  rw [ofKeys, dif_neg absent]
  split
  · rename_i none
    rw [none] at ids
    cases ids
  · rename_i id others some
    cases ids.symm.trans some
    rfl

theorem of_keys_of_nil (keys : KeyTable) (requested : String) (none : keys.ids = []) :
    ofKeys keys requested = .error .empty := by
  rw [ofKeys, dif_neg (by simp [none])]
  split
  · rfl
  · rename_i id others some
    rw [none] at some
    cases some

theorem of_keys_of_ne_nil (keys : KeyTable) (requested : String) (filled : keys.ids ≠ []) :
    ∃ ring, ofKeys keys requested = .ok ring ∧ ring.keys = keys ∧
      (requested ∈ keys.ids → ring.active = requested) ∧
      (requested ∉ keys.ids → ∀ id ∈ keys.ids, ring.active ≤ id) := by
  by_cases present : requested ∈ keys.ids
  · exact ⟨_, of_keys_of_mem keys requested present, rfl, fun _ => rfl,
      fun absent => absurd present absent⟩
  · obtain ⟨first, rest, ids⟩ := List.exists_cons_of_ne_nil filled
    refine ⟨_, of_keys_of_cons keys requested first rest present ids, rfl,
      fun there => absurd there present, fun _ id member => ?_⟩
    have ascending : (first :: rest).Pairwise (· < ·) := ids ▸ keys.ascending
    change first ≤ id
    rw [ids] at member
    rcases List.mem_cons.mp member with same | later
    · exact same ▸ String.le_refl _
    · exact String.not_lt.mp (String.lt_asymm ((List.pairwise_cons.mp ascending).1 id later))

theorem fails_iff_of_draws {α : Type} (result : Except CryptoError α) (entropy : Entropy) (value : α)
    (cause : CryptoError) (drawn : entropy.Holds 12 → result = .ok value)
    (undrawn : ¬ entropy.Holds 12 → result = .error .entropyExhausted) :
    result = .error cause ↔ cause = .entropyExhausted ∧ ¬ entropy.Holds 12 := by
  by_cases enough : entropy.Holds 12
  · rw [drawn enough]
    simp [enough]
  · rw [undrawn enough]
    simp [enough, eq_comm]

theorem encrypt_bytes_fails_iff (ring : Keyring) (plaintext aad : Bytes)
    (fits : Gcm.Sealable plaintext aad) (host : Host) (cause : CryptoError) :
    (ring.encryptBytes plaintext aad host).1 = .error cause ↔
      cause = .entropyExhausted ∧ ¬ host.entropy.Holds 12 := by
  apply fails_iff_of_draws _ host.entropy
  · intro enough
    rw [encrypt_bytes_of_holds ring plaintext aad host enough fits]
  · intro short
    rw [encrypt_bytes_of_not_holds ring plaintext aad host short]

theorem encrypt_bytes_large (ring : Keyring) (plaintext aad : Bytes)
    (large : ¬ Gcm.Sealable plaintext aad) (host : Host) :
    (ring.encryptBytes plaintext aad host).1 =
      .error (if host.entropy.Holds 12 then .encryptionFailed else .entropyExhausted) := by
  by_cases enough : host.entropy.Holds 12
  · rw [encrypt_bytes_of_not_sealable ring plaintext aad host enough large, if_pos enough]
  · rw [encrypt_bytes_of_not_holds ring plaintext aad host enough, if_neg enough]

theorem wrap_bytes_fails_iff (ring : Keyring) (bytes : Bytes) (long : bytes.length = 32) (host : Host)
    (cause : CryptoError) :
    (ring.wrapBytes bytes host).1 = .error cause ↔
      cause = .entropyExhausted ∧ ¬ host.entropy.Holds 12 := by
  have wrapped : ring.wrapBytes bytes = ring.wrap ⟨⟨bytes, long⟩⟩ := wrap_bytes_bytes ring ⟨⟨bytes, long⟩⟩
  rw [wrapped]
  apply fails_iff_of_draws _ host.entropy
  · intro enough
    rw [wrap_of_holds ring _ host enough]
  · intro short
    rw [wrap_of_not_holds ring _ host short]

-- What a ring has of the entries that it was built of: under each id the key of the last entry, the ids
-- once and in order, and an active id that is there, so that only a want of random bytes can keep the
-- ring from sealing what the cipher takes for its size.
structure Built (entries : List (String × String)) (requested : String) (ring : Keyring) : Prop where
  keys : ∀ id key, ring.keys.get? id = some key ↔
    ∃ text, lastText? entries id = some text ∧ EntryKey (id, text) key
  ids : ∀ id, id ∈ ring.keys.ids ↔ id ∈ Table.keys entries
  ascending : ring.keys.ids.Pairwise (· < ·)
  asked : requested ∈ Table.keys entries → ring.active = requested
  smallest : requested ∉ Table.keys entries → ∀ id ∈ Table.keys entries, ring.active ≤ id
  active : ring.active ∈ ring.keys.ids
  encrypts : ∀ plaintext aad, Gcm.Sealable plaintext aad → ∀ host cause,
    (ring.encryptBytes plaintext aad host).1 = .error cause ↔
      cause = .entropyExhausted ∧ ¬ host.entropy.Holds 12
  refuses : ∀ plaintext aad, ¬ Gcm.Sealable plaintext aad → ∀ host,
    (ring.encryptBytes plaintext aad host).1 =
      .error (if host.entropy.Holds 12 then .encryptionFailed else .entropyExhausted)
  wraps : ∀ bytes : Bytes, bytes.length = 32 → ∀ host cause,
    (ring.wrapBytes bytes host).1 = .error cause ↔
      cause = .entropyExhausted ∧ ¬ host.entropy.Holds 12

theorem built_unique (entries : List (String × String)) (requested : String) (one other : Keyring)
    (first : Built entries requested one) (second : Built entries requested other) : one = other := by
  have keys : one.keys = other.keys := KeyTable.eq_of_get? _ _ fun id =>
    Option.ext fun key => (first.keys id key).trans (second.keys id key).symm
  have active : one.active = other.active := by
    by_cases present : requested ∈ Table.keys entries
    · exact (first.asked present).trans (second.asked present).symm
    · exact String.le_antisymm
        (first.smallest present _ ((second.ids _).mp second.active))
        (second.smallest present _ ((first.ids _).mp first.active))
  cases one
  cases other
  cases keys
  cases active
  rfl

theorem of_entries_of_good (entries : List (String × String)) (requested : String)
    (filled : entries ≠ []) (good : ∀ entry ∈ entries, ∃ key, EntryKey entry key) :
    ∃ ring, ofEntries entries requested = .ok ring ∧ Built entries requested ring := by
  obtain ⟨table, ran⟩ := add_all_of_good KeyTable.empty entries good
  have ids := mem_ids_add_all table entries ran
  have filledIds : table.ids ≠ [] := by
    obtain ⟨entry, rest, rfl⟩ := List.exists_cons_of_ne_nil filled
    exact List.ne_nil_of_mem ((ids entry.1).mpr List.mem_cons_self)
  obtain ⟨ring, chosen, rfl, asked, smallest⟩ := of_keys_of_ne_nil table requested filledIds
  refine ⟨ring, by rw [ofEntries, ran]; exact chosen, ?_⟩
  exact {
    keys := fun id key => by
      rw [get?_add_all KeyTable.empty ring.keys entries ran id key]
      exact or_iff_left fun old => nomatch old.2
    ids := ids
    ascending := ring.keys.ascending
    asked := fun present => asked ((ids requested).mpr present)
    smallest := fun absent id member =>
      smallest (fun present => absent ((ids requested).mp present)) id ((ids id).mpr member)
    active := ring.active_mem
    encrypts := encrypt_bytes_fails_iff ring
    refuses := encrypt_bytes_large ring
    wraps := wrap_bytes_fails_iff ring }

theorem of_entries_of_first_fault (entries : List (String × String)) (requested : String)
    (cause : KeyringError) (first : FirstFault entries cause) :
    ofEntries entries requested = .error cause := by
  rw [ofEntries, add_all_of_first_fault KeyTable.empty entries cause first]

theorem of_entries_nil (requested : String) : ofEntries [] requested = .error .empty :=
  of_keys_of_nil KeyTable.empty requested rfl

theorem of_entries_eq_ok_iff (entries : List (String × String)) (requested : String)
    (ring : Keyring) :
    ofEntries entries requested = .ok ring ↔
      entries ≠ [] ∧ (∀ entry ∈ entries, ∃ key, EntryKey entry key) ∧
        Built entries requested ring := by
  constructor
  · intro ran
    have filled : entries ≠ [] := by
      intro none
      rw [none, of_entries_nil] at ran
      cases ran
    rcases good_or_first_fault entries with good | ⟨cause, first⟩
    · obtain ⟨same, again, built⟩ := of_entries_of_good entries requested filled good
      rw [again] at ran
      cases ran
      exact ⟨filled, good, built⟩
    · rw [of_entries_of_first_fault entries requested cause first] at ran
      cases ran
  · intro ⟨filled, good, built⟩
    obtain ⟨same, ran, again⟩ := of_entries_of_good entries requested filled good
    rw [ran, built_unique entries requested ring same built again]

theorem load_of_of_entries (entries : List (String × String)) (requested : String) (ring : Keyring)
    (built : ofEntries entries requested = .ok ring) (host : Host) :
    load entries requested host =
      (.ok ring, { host with events := host.events ++ ring.loadEvents requested }) := by
  rw [load, built]

theorem load_of_error (entries : List (String × String)) (requested : String) (cause : KeyringError)
    (failed : ofEntries entries requested = .error cause) (host : Host) :
    load entries requested host = (.error (.keyring cause), host) := by
  rw [load, failed]

def keyText (byte : UInt8) : String :=
  Base64.encode (List.replicate 32 byte)

theorem entry_key_key_text (id : String) (byte : UInt8) (valid : IsKeyId id) :
    EntryKey (id, keyText byte) ⟨List.replicate 32 byte, List.length_replicate⟩ :=
  ⟨valid, Base64.decode?_encode _⟩

-- An id comes twice, and none is the one that is asked for.
def doubledEntries : List (String × String) :=
  [("zeta", keyText 1), ("alpha", keyText 2), ("zeta", keyText 3)]

theorem good_doubled_entries : ∀ entry ∈ doubledEntries, ∃ key, EntryKey entry key := by
  have zeta (byte : UInt8) := entry_key_key_text "zeta" byte (by decide)
  have alpha := entry_key_key_text "alpha" 2 (by decide)
  exact List.forall_mem_cons.mpr ⟨⟨_, zeta 1⟩, List.forall_mem_cons.mpr ⟨⟨_, alpha⟩,
    List.forall_mem_singleton.mpr ⟨_, zeta 3⟩⟩⟩

end Keyring

end Envelope
