import Envelope.Proofs.Keyring.Wrapping

set_option autoImplicit false

namespace Envelope

namespace Token

theorem text_named (keyId payload : String) :
    (named keyId payload).text = "enc:v2:" ++ keyId ++ ":" ++ payload := by
  apply String.toList_injective
  simp [text, namedMark]

theorem is_encrypted_text_named (keyId payload : String) :
    isEncrypted (named keyId payload).text = true := by
  simp only [isEncrypted, text, String.toList_ofList, List.append_assoc, Text.after?_append,
    Option.isSome_some, Bool.true_or]

theorem key_id_of_text_named (keyId payload : String) (valid : IsKeyId keyId) :
    keyIdOf (named keyId payload).text = some keyId := by
  simp only [keyIdOf, parse_text_named keyId payload valid]

end Token

namespace Keyring

def tokenWith (ring : Keyring) (nonce : Gcm.Nonce) (plaintext aad : Bytes) : String :=
  (Token.named ring.active
    (Base64.encode (nonce.val ++ Gcm.sealed ring.activeKey nonce plaintext aad))).text

theorem encrypt_bytes_of_holds (ring : Keyring) (plaintext aad : Bytes) (host : Host)
    (enough : host.entropy.Holds 12) (fits : Gcm.Sealable plaintext aad) :
    ring.encryptBytes plaintext aad host =
      (.ok (ring.tokenWith (host.entropy.next 12) plaintext aad),
        { host with entropy := host.entropy.advance 12 }) := by
  simp only [encryptBytes, Action.bind_apply, Sealed.make_of_holds _ _ _ host enough fits,
    Action.pure_apply]
  rfl

theorem encrypt_bytes_of_not_sealable (ring : Keyring) (plaintext aad : Bytes) (host : Host)
    (enough : host.entropy.Holds 12) (large : ¬ Gcm.Sealable plaintext aad) :
    ring.encryptBytes plaintext aad host =
      (.error .encryptionFailed, { host with entropy := host.entropy.advance 12 }) := by
  simp only [encryptBytes, Action.bind_apply, Sealed.make_of_not_sealable _ _ _ host enough large]

theorem encrypt_bytes_of_not_holds (ring : Keyring) (plaintext aad : Bytes) (host : Host)
    (short : ¬ host.entropy.Holds 12) :
    ring.encryptBytes plaintext aad host = (.error .entropyExhausted, host) := by
  simp only [encryptBytes, Action.bind_apply, Sealed.make_of_not_holds _ _ _ host short]

theorem holds_of_encrypt_bytes (ring : Keyring) (plaintext aad : Bytes) (host after : Host)
    (token : String) (ran : ring.encryptBytes plaintext aad host = (.ok token, after)) :
    host.entropy.Holds 12 ∧ Gcm.Sealable plaintext aad := by
  rw [encryptBytes, Action.bind_apply] at ran
  split at ran
  · rename_i made
    exact Sealed.holds_of_make _ _ _ _ _ _ made
  · cases ran

theorem key_id_of_token_with (ring : Keyring) (nonce : Gcm.Nonce) (plaintext aad : Bytes) :
    Token.keyIdOf (ring.tokenWith nonce plaintext aad) = some ring.active :=
  Token.key_id_of_text_named _ _ ring.is_key_id_active

theorem open_token_token_with (keeper ring : Keyring) (keeps : keeper.Keeps ring) (nonce : Gcm.Nonce)
    (plaintext aad : Bytes) (fits : Gcm.Sealable plaintext aad) :
    keeper.openToken (ring.tokenWith nonce plaintext aad) aad = .ok plaintext := by
  have parsed := Token.parse_text_named ring.active
    (Base64.encode (nonce.val ++ Gcm.sealed ring.activeKey nonce plaintext aad)) ring.is_key_id_active
  rw [openToken, tokenWith, parsed]
  exact open_payload_framed keeper ring keeps nonce plaintext aad fits

theorem decrypt_bytes_token_with (keeper ring : Keyring) (keeps : keeper.Keeps ring)
    (nonce : Gcm.Nonce) (plaintext aad : Bytes) (fits : Gcm.Sealable plaintext aad) (host : Host) :
    keeper.decryptBytes (ring.tokenWith nonce plaintext aad) aad host = (.ok plaintext, host) := by
  have named : Token.isLegacy (ring.tokenWith nonce plaintext aad) = false := by
    simp only [Token.isLegacy, tokenWith, Token.parse_text_named _ _ ring.is_key_id_active]
  simp only [decryptBytes, Action.bind_apply, Action.ofExcept,
    open_token_token_with keeper ring keeps nonce plaintext aad fits, named, Bool.false_eq_true,
    if_false, Action.pure_apply]

theorem decrypt_token_with (keeper ring : Keyring) (keeps : keeper.Keeps ring) (nonce : Gcm.Nonce)
    (text : String) (aad : Bytes) (fits : Gcm.Sealable (Utf8.encode text) aad) (host : Host) :
    keeper.decrypt (ring.tokenWith nonce (Utf8.encode text) aad) aad host = (.ok text, host) := by
  simp only [decrypt, Action.bind_apply,
    decrypt_bytes_token_with keeper ring keeps nonce (Utf8.encode text) aad fits,
    Utf8.decode?_encode, Action.pure_apply]

/-- A token names the key that was active when it was made, and opens in every ring that still holds
that key, whatever else it holds. What the cipher does not take for its size is refused. -/
theorem decrypt_encrypt (ring : Keyring) (aad : Bytes) (host : Host)
    (enough : host.entropy.Holds 12) :
    (∀ plaintext, Gcm.Sealable plaintext aad → ∃ token,
      ring.encryptBytes plaintext aad host =
          (.ok token, { host with entropy := host.entropy.advance 12 }) ∧
        token = "enc:v2:" ++ ring.active ++ ":" ++ Base64.encode ((host.entropy.next 12).val ++
          Gcm.sealed ring.activeKey (host.entropy.next 12) plaintext aad) ∧
        Token.isEncrypted token = true ∧ Token.keyIdOf token = some ring.active ∧
        ∀ keeper : Keyring, keeper.Keeps ring → ∀ later,
          keeper.decryptBytes token aad later = (.ok plaintext, later)) ∧
      (∀ text, Gcm.Sealable (Utf8.encode text) aad → ∃ token,
        ring.encrypt text aad host =
            (.ok token, { host with entropy := host.entropy.advance 12 }) ∧
          ∀ keeper : Keyring, keeper.Keeps ring → ∀ later,
            keeper.decrypt token aad later = (.ok text, later)) ∧
      ∀ plaintext, ¬ Gcm.Sealable plaintext aad →
        ring.encryptBytes plaintext aad host =
          (.error .encryptionFailed, { host with entropy := host.entropy.advance 12 }) := by
  refine ⟨fun plaintext fits => ?_, fun text fits => ?_, fun plaintext large =>
    encrypt_bytes_of_not_sealable ring plaintext aad host enough large⟩
  · exact ⟨_, encrypt_bytes_of_holds ring plaintext aad host enough fits, Token.text_named _ _,
      Token.is_encrypted_text_named _ _, key_id_of_token_with ring _ plaintext aad,
      fun keeper keeps later => decrypt_bytes_token_with keeper ring keeps _ plaintext aad fits later⟩
  · exact ⟨_, encrypt_bytes_of_holds ring (Utf8.encode text) aad host enough fits,
      fun keeper keeps later => decrypt_token_with keeper ring keeps _ text aad fits later⟩

def firstRing : Keyring where
  keys := KeyTable.empty.place "k1" (Sized.zero 32) (by decide)
  active := "k1"
  active_mem := List.mem_cons_self

def secondRing : Keyring where
  keys := firstRing.keys.place "k2" ⟨List.replicate 32 1, rfl⟩ (by decide)
  active := "k2"
  active_mem := by decide

def scarceHost : Host :=
  ⟨⟨UInt8.ofNat, 0, some 12⟩, .epoch, []⟩

theorem decrypt_encrypt_rotated :
    scarceHost.entropy.Holds 12 ∧ secondRing.Keeps firstRing ∧
      Gcm.Sealable (Utf8.encode "pass: word") [] ∧
      ∃ token,
        firstRing.encrypt "pass: word" [] scarceHost =
            (.ok token, { scarceHost with entropy := scarceHost.entropy.advance 12 }) ∧
          secondRing.decrypt token [] scarceHost = (.ok "pass: word", scarceHost) ∧
          (firstRing.encryptBytes Sealed.excess [] scarceHost).1 = .error .encryptionFailed := by
  have enough : scarceHost.entropy.Holds 12 := by decide
  have keeps : secondRing.Keeps firstRing := rfl
  have fits : Gcm.Sealable (Utf8.encode "pass: word") [] := by decide
  obtain ⟨-, texts, refused⟩ := decrypt_encrypt firstRing [] scarceHost enough
  obtain ⟨token, encrypted, opens⟩ := texts "pass: word" fits
  exact ⟨enough, keeps, fits, token, encrypted, opens secondRing keeps scarceHost,
    congrArg Prod.fst (refused Sealed.excess (Sealed.not_sealable_excess []))⟩

end Keyring

end Envelope
