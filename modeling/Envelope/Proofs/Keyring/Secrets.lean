import Envelope.Keyring.Secrets
import Envelope.Proofs.Keyring.Renewal

set_option autoImplicit false

namespace Envelope.Keyring

def changeField (wanted : String → Bool) (turn : String → String → Action CryptoError String)
    (config : Table Json) (field : String) : Action CryptoError (Table Json) :=
  match ((Table.get? config field).bind Json.text?).filter wanted with
  | none => pure config
  | some text => do
    let new ← turn field text
    pure (Table.put config field (.str new))

def isPlain (text : String) : Bool :=
  text ≠ "" && !Token.isEncrypted text

theorem encrypt_field_eq (ring : Keyring) :
    ring.encryptField = changeField isPlain fun field text =>
      ring.encrypt text (fieldAad field) := rfl

theorem decrypt_field_eq (ring : Keyring) :
    ring.decryptField = changeField Token.isEncrypted fun field token =>
      ring.decrypt token (fieldAad field) := rfl

section Change

variable (wanted : String → Bool)

def HoldsText (config : Table Json) (field text : String) : Prop :=
  Table.get? config field = some (.str text) ∧ wanted text = true

-- A configuration in which the texts of one kind, in some fields, have become others. Its keys, their
-- order and all other values are as they were.
structure Changed (Becomes : String → String → String → Prop) (fields : List String)
    (config result : Table Json) : Prop where
  keys : Table.keys result = Table.keys config
  kept : ∀ key, (key ∈ fields → ∀ text, ¬ HoldsText wanted config key text) →
    Table.get? result key = Table.get? config key
  made : ∀ field ∈ fields, ∀ text, HoldsText wanted config field text →
    ∃ new, Becomes field text new ∧ Table.get? result field = some (.str new)

variable {wanted} {Becomes : String → String → String → Prop}
  {turn : String → String → Action CryptoError String}

theorem holds_text_congr (config other : Table Json) (field text : String)
    (same : Table.get? other field = Table.get? config field) :
    HoldsText wanted other field text ↔ HoldsText wanted config field text := by
  simp only [HoldsText, same]

theorem mem_keys_of_holds_text (config : Table Json) (field text : String)
    (there : HoldsText wanted config field text) : field ∈ Table.keys config :=
  (Table.get?_is_some_iff config field).mp (there.1 ▸ rfl)

theorem chosen_eq_some_iff (config : Table Json) (field text : String) :
    ((Table.get? config field).bind Json.text?).filter wanted = some text ↔
      HoldsText wanted config field text := by
  rw [HoldsText, Option.filter_eq_some_iff, Option.bind_eq_some_iff]
  refine and_congr_left fun _ => ⟨fun ⟨value, found, read⟩ => ?_, fun found => ⟨_, found, rfl⟩⟩
  cases value <;> cases read
  exact found

theorem change_field_of_ok (config : Table Json) (field text new : String) (host after : Host)
    (there : HoldsText wanted config field text) (made : turn field text host = (.ok new, after)) :
    changeField wanted turn config field host = (.ok (Table.put config field (.str new)), after) := by
  simp only [changeField, (chosen_eq_some_iff config field text).mpr there, Action.bind_apply, made,
    Action.pure_apply]

theorem change_field_of_error (config : Table Json) (field text : String) (host after : Host)
    (cause : CryptoError) (there : HoldsText wanted config field text)
    (failed : turn field text host = (.error cause, after)) :
    changeField wanted turn config field host = (.error cause, after) := by
  simp only [changeField, (chosen_eq_some_iff config field text).mpr there, Action.bind_apply, failed]

theorem change_field_of_none (config : Table Json) (field : String) (host : Host)
    (none : ∀ text, ¬ HoldsText wanted config field text) :
    changeField wanted turn config field host = (.ok config, host) := by
  have chosen : ((Table.get? config field).bind Json.text?).filter wanted = .none := by
    rw [Option.eq_none_iff_forall_ne_some]
    exact fun text found => none text ((chosen_eq_some_iff config field text).mp found)
  simp only [changeField, chosen, Action.pure_apply]

theorem change_field_of_same (config other : Table Json) (field : String) (host : Host)
    (same : Table.get? other field = Table.get? config field) :
    (∃ cause after, changeField wanted turn config field host = (.error cause, after) ∧
      changeField wanted turn other field host = (.error cause, after)) ∨
    (∃ text new after, HoldsText wanted config field text ∧
      changeField wanted turn config field host =
        (.ok (Table.put config field (.str new)), after) ∧
      changeField wanted turn other field host = (.ok (Table.put other field (.str new)), after)) ∨
    changeField wanted turn config field host = (.ok config, host) ∧
      changeField wanted turn other field host = (.ok other, host) := by
  have alike (text : String) : HoldsText wanted other field text ↔ HoldsText wanted config field text :=
    holds_text_congr config other field text same
  by_cases held : ∃ text, HoldsText wanted config field text
  · obtain ⟨text, there⟩ := held
    have twin := (alike text).mpr there
    rcases turned : turn field text host with ⟨outcome, after⟩
    cases outcome with
    | error cause =>
      exact .inl ⟨cause, after, change_field_of_error config field text host after cause there turned,
        change_field_of_error other field text host after cause twin turned⟩
    | ok new =>
      exact .inr (.inl ⟨text, new, after, there,
        change_field_of_ok config field text new host after there turned,
        change_field_of_ok other field text new host after twin turned⟩)
  · have none : ∀ text, ¬ HoldsText wanted config field text := fun text there => held ⟨text, there⟩
    exact .inr (.inr ⟨change_field_of_none config field host none,
      change_field_of_none other field host fun text twin => none text ((alike text).mp twin)⟩)

theorem changed_of_change_field (config result : Table Json) (field : String) (host after : Host)
    (becomes : ∀ text host new after, turn field text host = (.ok new, after) →
      Becomes field text new)
    (ran : changeField wanted turn config field host = (.ok result, after)) :
    Changed wanted Becomes [field] config result := by
  by_cases held : ∃ text, HoldsText wanted config field text
  · obtain ⟨text, there⟩ := held
    rcases made : turn field text host with ⟨outcome, later⟩
    cases outcome with
    | error cause =>
      rw [change_field_of_error config field text host later cause there made] at ran
      cases ran
    | ok new =>
      rw [change_field_of_ok config field text new host later there made] at ran
      cases ran
      have present := mem_keys_of_holds_text config field text there
      refine ⟨Table.keys_put_of_mem config field _ present, fun key spared => ?_, ?_⟩
      · have other : field ≠ key := fun same =>
          spared (List.mem_singleton.mpr same.symm) text (same ▸ there)
        rw [Table.get?_put, if_neg other]
      · intro key member other holds
        cases List.mem_singleton.mp member
        have same : text = other := by simpa [there.1] using holds.1
        exact ⟨new, same ▸ becomes text host new _ made, by rw [Table.get?_put, if_pos rfl]⟩
  · have none : ∀ text, ¬ HoldsText wanted config field text := fun text there => held ⟨text, there⟩
    rw [change_field_of_none config field host none] at ran
    cases ran
    refine ⟨rfl, fun _ _ => rfl, fun found member text there => ?_⟩
    exact absurd there (List.mem_singleton.mp member ▸ none text)

theorem changed_cons (config middle result : Table Json) (field : String) (rest : List String)
    (fresh : field ∉ rest) (first : Changed wanted Becomes [field] config middle)
    (later : Changed wanted Becomes rest middle result) :
    Changed wanted Becomes (field :: rest) config result := by
  have untouched : Table.get? result field = Table.get? middle field :=
    later.kept field fun member => absurd member fresh
  have elsewhere : ∀ key, key ≠ field → Table.get? middle key = Table.get? config key :=
    fun key other => first.kept key fun member => absurd (List.mem_singleton.mp member) other
  refine ⟨later.keys.trans first.keys, fun key spared => ?_, fun key member text there => ?_⟩
  · by_cases same : key = field
    · subst same
      rw [untouched, first.kept key fun _ => spared List.mem_cons_self]
    · rw [later.kept key fun member text there => ?_, elsewhere key same]
      exact spared (List.mem_cons_of_mem _ member) text
        ((holds_text_congr config middle key text (elsewhere key same)).mp there)
  · by_cases same : key = field
    · subst same
      obtain ⟨new, becomes, found⟩ := first.made key List.mem_cons_self text there
      exact ⟨new, becomes, untouched.trans found⟩
    · exact later.made key ((List.mem_cons.mp member).resolve_left same) text
        ((holds_text_congr config middle key text (elsewhere key same)).mpr there)

-- Each field is changed by what it held at first: no other field's change has a part in it.
theorem changed_of_foldl_m (fields : List String) (differ : fields.Nodup) (config result : Table Json)
    (host after : Host)
    (becomes : ∀ field text host new after, turn field text host = (.ok new, after) →
      Becomes field text new)
    (ran : fields.foldlM (changeField wanted turn) config host = (.ok result, after)) :
    Changed wanted Becomes fields config result := by
  induction fields generalizing config host with
  | nil =>
    cases ran
    exact ⟨rfl, fun _ _ => rfl, fun _ member => nomatch member⟩
  | cons field rest ih =>
    obtain ⟨fresh, restDiffer⟩ := List.nodup_cons.mp differ
    rw [List.foldlM_cons, Action.bind_apply] at ran
    split at ran
    · rename_i middle between first
      exact changed_cons config middle result field rest fresh
        (changed_of_change_field config middle field host between (becomes field) first)
        (ih restDiffer middle between ran)
    · cases ran

theorem foldl_m_of_none (fields : List String) (config : Table Json) (host : Host)
    (none : ∀ field ∈ fields, ∀ text, ¬ HoldsText wanted config field text) :
    fields.foldlM (changeField wanted turn) config host = (.ok config, host) := by
  induction fields with
  | nil => rfl
  | cons field rest ih =>
    obtain ⟨here, later⟩ := List.forall_mem_cons.mp none
    rw [List.foldlM_cons, Action.bind_apply, change_field_of_none config field host here]
    exact ih later

def EachText (wanted : String → Bool) (Fits : String → String → Prop) (fields : List String)
    (config : Table Json) : Prop :=
  ∀ field ∈ fields, ∀ text, HoldsText wanted config field text → Fits field text

theorem each_text_put (Fits : String → String → Prop) (config : Table Json) (field : String)
    (rest : List String) (value : Json) (fresh : field ∉ rest) :
    EachText wanted Fits rest (Table.put config field value) ↔ EachText wanted Fits rest config := by
  refine forall₂_congr fun key member => forall_congr' fun text => imp_congr_left ?_
  have other : field ≠ key := fun same => fresh (same ▸ member)
  apply holds_text_congr
  rw [Table.get?_put, if_neg other]

theorem each_text_cons (Fits : String → String → Prop) (config : Table Json) (field : String)
    (rest : List String) :
    EachText wanted Fits (field :: rest) config ↔
      (∀ text, HoldsText wanted config field text → Fits field text) ∧
        EachText wanted Fits rest config :=
  List.forall_mem_cons

-- Where each change succeeds at the price of a nonce, so do all of them at the price of as many. The
-- first text that does not fit makes them fail, if there is one.
theorem foldl_m_of_holds (Fits : String → String → Prop) (cause : CryptoError) (fields : List String)
    (differ : fields.Nodup) (config : Table Json) (host : Host)
    (turns : ∀ field text host, Fits field text → host.entropy.Holds 12 →
      ∃ new, turn field text host = (.ok new, { host with entropy := host.entropy.advance 12 }))
    (fails : ∀ field text host, ¬ Fits field text → host.entropy.Holds 12 →
      (turn field text host).1 = .error cause)
    (enough : host.entropy.Holds (12 * fields.length)) :
    (EachText wanted Fits fields config →
      ∃ result after, fields.foldlM (changeField wanted turn) config host = (.ok result, after)) ∧
    (¬ EachText wanted Fits fields config →
      (fields.foldlM (changeField wanted turn) config host).1 = .error cause) := by
  induction fields generalizing config host with
  | nil => exact ⟨fun _ => ⟨config, host, rfl⟩, fun large => absurd (fun _ member => nomatch member) large⟩
  | cons field rest ih =>
    obtain ⟨fresh, restDiffer⟩ := List.nodup_cons.mp differ
    rw [List.foldlM_cons, Action.bind_apply, each_text_cons]
    rw [List.length_cons, Nat.mul_add, Nat.mul_one, Nat.add_comm] at enough
    by_cases held : ∃ text, HoldsText wanted config field text
    · obtain ⟨text, there⟩ := held
      have only : (∀ other, HoldsText wanted config field other → Fits field other) ↔
          Fits field text := by
        refine ⟨fun all => all text there, fun fits other holds => ?_⟩
        have same : text = other := by simpa [there.1] using holds.1
        exact same ▸ fits
      have here := Entropy.holds_of_le host.entropy 12 _ (Nat.le_add_right _ _) enough
      rw [only]
      by_cases fits : Fits field text
      · obtain ⟨new, turned⟩ := turns field text host fits here
        rw [change_field_of_ok config field text new host _ there turned, and_iff_right fits,
          ← each_text_put Fits config field rest (.str new) fresh]
        exact ih restDiffer _ _ ((Entropy.holds_advance_iff ..).mpr enough)
      · have failed := fails field text host fits here
        rcases turned : turn field text host with ⟨outcome, after⟩
        rw [turned] at failed
        cases failed
        rw [change_field_of_error config field text host after cause there turned]
        exact ⟨fun all => absurd all.1 fits, fun _ => rfl⟩
    · have none : ∀ text, ¬ HoldsText wanted config field text := fun text there => held ⟨text, there⟩
      rw [change_field_of_none config field host none,
        and_iff_right fun text there => absurd there (none text)]
      exact ih restDiffer config host
        (Entropy.holds_of_le host.entropy _ _ (Nat.le_add_left _ _) enough)

theorem changed_overwrite (config result : Table Json) (field : String) (rest : List String)
    (value : Json) (fresh : field ∉ rest) (there : field ∈ Table.keys config)
    (changed : Changed wanted Becomes (field :: rest) config result) :
    Changed wanted Becomes rest (Table.put config field value) (Table.put result field value) := by
  have elsewhere : ∀ key, key ≠ field →
      Table.get? (Table.put config field value) key = Table.get? config key := fun key other => by
    rw [Table.get?_put, if_neg (Ne.symm other)]
  refine ⟨?_, fun key spared => ?_, fun key member text held => ?_⟩
  · rw [Table.keys_put_of_mem config field value there,
      Table.keys_put_of_mem result field value (changed.keys ▸ there), changed.keys]
  · by_cases same : field = key
    · rw [Table.get?_put, Table.get?_put, if_pos same, if_pos same]
    · have other := Ne.symm same
      rw [elsewhere key other, Table.get?_put, if_neg same]
      refine changed.kept key fun member text held => ?_
      exact spared ((List.mem_cons.mp member).resolve_left other) text
        ((holds_text_congr config _ key text (elsewhere key other)).mpr held)
  · have other : key ≠ field := fun same => fresh (same ▸ member)
    obtain ⟨new, becomes, found⟩ := changed.made key (List.mem_cons_of_mem _ member) text
      ((holds_text_congr config _ key text (elsewhere key other)).mp held)
    exact ⟨new, becomes, by rw [Table.get?_put, if_neg (Ne.symm other), found]⟩

theorem changed_tail (config result : Table Json) (field : String) (rest : List String)
    (same : Table.get? result field = Table.get? config field)
    (changed : Changed wanted Becomes (field :: rest) config result) :
    Changed wanted Becomes rest config result where
  keys := changed.keys
  kept key spared := by
    by_cases first : key = field
    · exact first ▸ same
    · exact changed.kept key fun member =>
        spared ((List.mem_cons.mp member).resolve_left first)
  made key member := changed.made key (List.mem_cons_of_mem _ member)

end Change

-- How a secret stands in a configuration that a ring has sealed: as a token under the active key, with
-- the name of its field for associated data.
structure Stored (ring : Keyring) (field text token : String) : Prop where
  keyId : Token.keyIdOf token = some ring.active
  bound : ∃ nonce, token = ring.tokenWith nonce (Utf8.encode text) (fieldAad field)
  opens : ∀ keeper : Keyring, keeper.Keeps ring → ∀ later,
    keeper.decrypt token (fieldAad field) later = (.ok text, later)

theorem stored_of_encrypt (ring : Keyring) (field text token : String) (host after : Host)
    (ran : ring.encrypt text (fieldAad field) host = (.ok token, after)) :
    ring.Stored field text token := by
  obtain ⟨enough, fits⟩ := holds_of_encrypt_bytes ring _ _ host after token ran
  rw [encrypt, encrypt_bytes_of_holds ring _ _ host enough fits] at ran
  cases ran
  exact ⟨key_id_of_token_with ring _ _ _, ⟨_, rfl⟩, fun keeper keeps later =>
    decrypt_token_with keeper ring keeps _ text _ fits later⟩

theorem is_encrypted_of_stored (ring : Keyring) (field text token : String)
    (stored : ring.Stored field text token) : Token.isEncrypted token = true := by
  obtain ⟨nonce, rfl⟩ := stored.bound
  exact Token.is_encrypted_text_named _ _

theorem field_aad_injective (field other : String) (same : fieldAad field = fieldAad other) :
    field = other := by
  have texts := congrArg String.toList (Utf8.encode_injective _ _ same)
  simp only [Aad.ofConfigField, String.toList_append, List.append_cancel_left_eq] at texts
  exact String.toList_injective texts

theorem decrypt_field_of_stored (keeper ring : Keyring) (keeps : keeper.Keeps ring)
    (config sealed : Table Json) (field text token : String) (host : Host)
    (there : HoldsText isPlain config field text) (stored : ring.Stored field text token)
    (found : Table.get? sealed field = some (.str token)) :
    keeper.decryptField config field host = (.ok config, host) ∧
      keeper.decryptField sealed field host = (.ok (Table.put sealed field (.str text)), host) := by
  rw [decrypt_field_eq]
  constructor
  · apply change_field_of_none
    intro other held
    have same : text = other := by simpa [there.1] using held.1
    have plain := there.2
    rw [isPlain, same, held.2] at plain
    simp at plain
  · apply change_field_of_ok sealed field token text host host
    · exact ⟨found, is_encrypted_of_stored ring field text token stored⟩
    · exact stored.opens keeper keeps host

theorem foldl_m_decrypt_field_of_changed (keeper ring : Keyring) (keeps : keeper.Keeps ring)
    (fields : List String) (differ : fields.Nodup) (config sealed : Table Json)
    (keysDiffer : (Table.keys config).Nodup)
    (changed : Changed isPlain ring.Stored fields config sealed) (host : Host) :
    fields.foldlM keeper.decryptField sealed host = fields.foldlM keeper.decryptField config host := by
  induction fields generalizing config sealed host with
  | nil =>
    have same := Table.eq_of_get? config sealed keysDiffer changed.keys fun key =>
      changed.kept key fun member => nomatch member
    rw [same]
  | cons field rest ih =>
    obtain ⟨fresh, restDiffer⟩ := List.nodup_cons.mp differ
    have overwritten (value : Json) (present : field ∈ Table.keys config) :=
      changed_overwrite config sealed field rest value fresh present changed
    rw [List.foldlM_cons, List.foldlM_cons, Action.bind_apply, Action.bind_apply]
    by_cases plain : ∃ text, HoldsText isPlain config field text
    · obtain ⟨text, there⟩ := plain
      obtain ⟨token, stored, found⟩ := changed.made field List.mem_cons_self text there
      obtain ⟨passed, opened⟩ :=
        decrypt_field_of_stored keeper ring keeps config sealed field text token host there stored found
      have undone := overwritten (.str text) (mem_keys_of_holds_text config field text there)
      rw [Table.put_of_get? config field _ there.1] at undone
      rw [passed, opened]
      exact ih restDiffer config _ keysDiffer undone host
    · have same := changed.kept field fun _ text there => plain ⟨text, there⟩
      rw [decrypt_field_eq] at ih ⊢
      rcases change_field_of_same config sealed field host same with
        ⟨cause, after, failed, failedToo⟩ | ⟨text, new, after, there, opened, openedToo⟩ |
        ⟨left, leftToo⟩
      · rw [failed, failedToo]
      · have present := mem_keys_of_holds_text config field text there
        rw [opened, openedToo]
        refine ih restDiffer _ _ ?_ (overwritten (.str new) present) after
        rwa [Table.keys_put_of_mem config field _ present]
      · have later := changed_tail config sealed field rest same changed
        rw [left, leftToo]
        exact ih restDiffer config sealed keysDiffer later host

def Opened (ring : Keyring) (field token text : String) : Prop :=
  ring.openToken token (fieldAad field) = .ok (Utf8.encode text)

theorem opened_of_decrypt (ring : Keyring) (field token text : String) (host after : Host)
    (ran : ring.decrypt token (fieldAad field) host = (.ok text, after)) :
    ring.Opened field token text := by
  rw [decrypt, Action.bind_apply] at ran
  cases opened : ring.openToken token (fieldAad field) with
  | error cause =>
    rw [decrypt_bytes_of_failed ring token _ host cause opened] at ran
    cases ran
  | ok plaintext =>
    rw [decrypt_bytes_of_opened ring token _ plaintext host opened] at ran
    cases read : Utf8.decode? plaintext with
    | none =>
      simp only [read, Action.ofExcept] at ran
      cases ran
    | some found =>
      simp only [read, Action.pure_apply] at ran
      cases ran
      rw [Opened, opened, (Utf8.decode?_eq_some_iff plaintext text).mp read]

theorem nodup_secret_fields : secretFields.Nodup := by decide

theorem changed_of_encrypt_secrets (ring : Keyring) (config sealed : Table Json) (host after : Host)
    (ran : ring.encryptSecrets config host = (.ok sealed, after)) :
    Changed isPlain ring.Stored secretFields config sealed := by
  rw [encryptSecrets, encrypt_field_eq] at ran
  exact changed_of_foldl_m secretFields nodup_secret_fields config sealed host after
    (fun field text host new after => stored_of_encrypt ring field text new host after) ran

theorem changed_of_decrypt_secrets (ring : Keyring) (config opened : Table Json) (host after : Host)
    (ran : ring.decryptSecrets config host = (.ok opened, after)) :
    Changed Token.isEncrypted ring.Opened secretFields config opened := by
  rw [decryptSecrets, decrypt_field_eq] at ran
  exact changed_of_foldl_m secretFields nodup_secret_fields config opened host after
    (fun field token host text after => opened_of_decrypt ring field token text host after) ran

theorem encrypt_secrets_of_none (ring : Keyring) (config : Table Json) (host : Host)
    (none : ∀ field ∈ secretFields, ∀ text, ¬ HoldsText isPlain config field text) :
    ring.encryptSecrets config host = (.ok config, host) := by
  rw [encryptSecrets, encrypt_field_eq]
  exact foldl_m_of_none secretFields config host none

theorem decrypt_secrets_of_none (ring : Keyring) (config : Table Json) (host : Host)
    (none : ∀ field ∈ secretFields, ∀ text, ¬ HoldsText Token.isEncrypted config field text) :
    ring.decryptSecrets config host = (.ok config, host) := by
  rw [decryptSecrets, decrypt_field_eq]
  exact foldl_m_of_none secretFields config host none

def SealableSecrets (config : Table Json) : Prop :=
  EachText isPlain (fun field text => Gcm.Sealable (Utf8.encode text) (fieldAad field)) secretFields
    config

theorem encrypt_secrets_of_holds (ring : Keyring) (config : Table Json) (host : Host)
    (enough : host.entropy.Holds 24) :
    (SealableSecrets config → ∃ sealed after, ring.encryptSecrets config host = (.ok sealed, after)) ∧
      (¬ SealableSecrets config → (ring.encryptSecrets config host).1 = .error .encryptionFailed) := by
  rw [encryptSecrets, encrypt_field_eq]
  apply foldl_m_of_holds _ _ secretFields nodup_secret_fields config host _ _ enough
  · exact fun field text host fits here => ⟨_, encrypt_bytes_of_holds ring _ _ host here fits⟩
  · intro field text host large here
    rw [encrypt, encrypt_bytes_of_not_sealable ring _ _ host here large]

/-- What was sealed opens as what it was sealed from, in the ring and in every other that keeps its
active key: fields that were plain come back, and all others give the value or the error that they
would have given. Sealing, for which two nonces are enough unless a secret is too long for the cipher,
makes tokens bound to their fields of the plain texts in the fields for secrets, and changes nothing
else; opening changes nothing but tokens. -/
theorem decrypt_encrypt_secrets (ring : Keyring) (config : Table Json)
    (differ : (Table.keys config).Nodup) :
    (∀ host, host.entropy.Holds 24 →
      (SealableSecrets config →
        ∃ sealed after, ring.encryptSecrets config host = (.ok sealed, after)) ∧
      (¬ SealableSecrets config →
        (ring.encryptSecrets config host).1 = .error .encryptionFailed)) ∧
      (∀ host sealed after, ring.encryptSecrets config host = (.ok sealed, after) →
        Changed isPlain ring.Stored secretFields config sealed ∧
          ∀ keeper : Keyring, keeper.Keeps ring → ∀ later,
            keeper.decryptSecrets sealed later = keeper.decryptSecrets config later ∧
              ((∀ field ∈ secretFields, ∀ text, ¬ HoldsText Token.isEncrypted config field text) →
                keeper.decryptSecrets sealed later = (.ok config, later))) ∧
      (∀ host opened after, ring.decryptSecrets config host = (.ok opened, after) →
        Changed Token.isEncrypted ring.Opened secretFields config opened) ∧
      ∀ field other, fieldAad field = fieldAad other → field = other := by
  refine ⟨encrypt_secrets_of_holds ring config, fun host sealed after ran => ?_,
    fun host opened after => changed_of_decrypt_secrets ring config opened host after,
    field_aad_injective⟩
  have changed := changed_of_encrypt_secrets ring config sealed host after ran
  refine ⟨changed, fun keeper keeps later => ?_⟩
  have same : keeper.decryptSecrets sealed later = keeper.decryptSecrets config later :=
    foldl_m_decrypt_field_of_changed keeper ring keeps secretFields nodup_secret_fields config sealed
      differ changed later
  exact ⟨same, fun none => same.trans (decrypt_secrets_of_none keeper config later none)⟩

-- A plain secret, and a token that is cut off.
def brokenConfig : Table Json :=
  [("token", .str "enc:v2:k1"), ("client_id", .num (.int 7)), ("client_secret", .str "pass")]

def plainConfig : Table Json :=
  [("token", .str "word"), ("client_id", .num (.int 7)), ("client_secret", .str "pass")]

theorem no_token_plain_config :
    ∀ field ∈ secretFields, ∀ text, ¬ HoldsText Token.isEncrypted plainConfig field text := by
  have secret (text : String) : ¬ HoldsText Token.isEncrypted plainConfig "client_secret" text := by
    intro held
    cases held.1
    exact absurd held.2 (by decide)
  have token (text : String) : ¬ HoldsText Token.isEncrypted plainConfig "token" text := by
    intro held
    cases held.1
    exact absurd held.2 (by decide)
  exact List.forall_mem_cons.mpr ⟨secret, List.forall_mem_singleton.mpr token⟩

theorem sealable_secrets_of_get? (config : Table Json) (secret token : String)
    (secretThere : Table.get? config "client_secret" = some (.str secret))
    (tokenThere : Table.get? config "token" = some (.str token))
    (secretFits : Gcm.Sealable (Utf8.encode secret) (fieldAad "client_secret"))
    (tokenFits : Gcm.Sealable (Utf8.encode token) (fieldAad "token")) : SealableSecrets config := by
  refine List.forall_mem_cons.mpr ⟨fun text held => ?_,
    List.forall_mem_singleton.mpr fun text held => ?_⟩
  · have same : secret = text := by simpa [secretThere] using held.1
    exact same ▸ secretFits
  · have same : token = text := by simpa [tokenThere] using held.1
    exact same ▸ tokenFits

theorem sealable_broken_config : SealableSecrets brokenConfig :=
  sealable_secrets_of_get? brokenConfig "pass" "enc:v2:k1" rfl rfl (by decide) (by decide)

theorem sealable_plain_config : SealableSecrets plainConfig :=
  sealable_secrets_of_get? plainConfig "pass" "word" rfl rfl (by decide) (by decide)

theorem decrypt_encrypt_secrets_rotated :
    (Table.keys brokenConfig).Nodup ∧ (Table.keys plainConfig).Nodup ∧ secondRing.Keeps firstRing ∧
      renewalHost.entropy.Holds 24 ∧ SealableSecrets brokenConfig ∧ SealableSecrets plainConfig ∧
      (∃ sealed after,
        firstRing.encryptSecrets brokenConfig renewalHost = (.ok sealed, after) ∧
          secondRing.decryptSecrets sealed renewalHost =
            (.error (.malformedToken .noDelimiter), renewalHost)) ∧
      ∃ sealed after,
        firstRing.encryptSecrets plainConfig renewalHost = (.ok sealed, after) ∧
          secondRing.decryptSecrets sealed renewalHost = (.ok plainConfig, renewalHost) ∧
          (Table.keys sealed).Nodup ∧
          Changed Token.isEncrypted secondRing.Opened secretFields sealed plainConfig := by
  have keeps : secondRing.Keeps firstRing := rfl
  have brokenDiffer : (Table.keys brokenConfig).Nodup := by decide
  have plainDiffer : (Table.keys plainConfig).Nodup := by decide
  have enough : renewalHost.entropy.Holds 24 := by decide
  obtain ⟨seals, sealedBroken, -⟩ := decrypt_encrypt_secrets firstRing brokenConfig brokenDiffer
  obtain ⟨broken, brokenAfter, brokenRan⟩ := (seals renewalHost enough).1 sealable_broken_config
  have failed := ((sealedBroken _ _ _ brokenRan).2 secondRing keeps renewalHost).1
  obtain ⟨sealsPlain, sealedPlain, -⟩ := decrypt_encrypt_secrets firstRing plainConfig plainDiffer
  obtain ⟨sealed, after, ran⟩ := (sealsPlain renewalHost enough).1 sealable_plain_config
  obtain ⟨changed, opens⟩ := sealedPlain _ _ _ ran
  have opened := (opens secondRing keeps renewalHost).2 no_token_plain_config
  have sealedDiffer : (Table.keys sealed).Nodup := changed.keys ▸ plainDiffer
  have back := (decrypt_encrypt_secrets secondRing sealed sealedDiffer).2.2.1 _ _ _ opened
  exact ⟨brokenDiffer, plainDiffer, keeps, enough, sealable_broken_config, sealable_plain_config,
    ⟨broken, brokenAfter, brokenRan, failed⟩, sealed, after, ran, opened, sealedDiffer, back⟩

theorem none_of_changed (ring : Keyring) (fields : List String) (config sealed : Table Json)
    (changed : Changed isPlain ring.Stored fields config sealed) :
    ∀ field ∈ fields, ∀ text, ¬ HoldsText isPlain sealed field text := by
  intro field member text left
  by_cases held : ∃ text, HoldsText isPlain config field text
  · obtain ⟨old, there⟩ := held
    obtain ⟨token, stored, found⟩ := changed.made field member old there
    have same : token = text := by simpa [found] using left.1
    have plain := left.2
    rw [isPlain, ← same, is_encrypted_of_stored ring field old token stored] at plain
    simp at plain
  · have same := changed.kept field fun _ old there => held ⟨old, there⟩
    exact held ⟨text, (holds_text_congr config sealed field text same).mp left⟩

def exhaustedHost : Host :=
  ⟨⟨UInt8.ofNat, 0, some 0⟩, .epoch, []⟩

/-- A configuration that one ring has sealed is left as it is by all rings after it, whichever keys they
hold, without a byte being drawn. -/
theorem encrypt_secrets_settles (ring : Keyring) (config sealed : Table Json) (host after : Host)
    (ran : ring.encryptSecrets config host = (.ok sealed, after)) (rings : List Keyring)
    (later : Host) :
    inTurn encryptSecrets rings sealed later = (.ok (List.replicate rings.length sealed), later) := by
  have none := none_of_changed ring secretFields config sealed
    (changed_of_encrypt_secrets ring config sealed host after ran)
  induction rings with
  | nil => rfl
  | cons next rest ih =>
    have kept := encrypt_secrets_of_none next sealed later none
    simp only [inTurn, Action.bind_apply, kept, ih, Action.pure_apply, List.length_cons,
      List.replicate_succ]

theorem encrypt_secrets_settles_rotated :
    ∃ sealed after,
      firstRing.encryptSecrets plainConfig renewalHost = (.ok sealed, after) ∧
        inTurn encryptSecrets [secondRing, firstRing] sealed exhaustedHost =
          (.ok [sealed, sealed], exhaustedHost) := by
  have enough : renewalHost.entropy.Holds 24 := by decide
  obtain ⟨sealed, after, ran⟩ :=
    (encrypt_secrets_of_holds firstRing plainConfig renewalHost enough).1 sealable_plain_config
  exact ⟨sealed, after, ran,
    encrypt_secrets_settles firstRing plainConfig sealed renewalHost after ran _ exhaustedHost⟩

end Envelope.Keyring
