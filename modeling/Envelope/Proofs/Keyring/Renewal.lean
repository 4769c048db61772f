import Envelope.Proofs.Keyring.Locality
import Envelope.Proofs.Keyring.Rotation

set_option autoImplicit false

namespace Envelope

namespace Token

theorem parse_of_key_id_of (token id : String) (named : keyIdOf token = some id) :
    ∃ payload, parse token = .ok (.named id payload) := by
  unfold keyIdOf at named
  split at named
  · rename_i keyId payload parsed
    cases named
    exact ⟨payload, parsed⟩
  · cases named

theorem key_id_of_text_legacy (payload : String) : keyIdOf (legacy payload).text = none := by
  simp only [keyIdOf, parse_text_legacy payload]

theorem noted_of_named (token id : String) (host : Host) (named : keyIdOf token = some id) :
    noted token host = host := by
  obtain ⟨payload, parsed⟩ := parse_of_key_id_of token id named
  simp only [noted, isLegacy, parsed, Bool.false_eq_true, if_false]

theorem entropy_noted (token : String) (host : Host) :
    (noted token host).entropy = host.entropy := by
  unfold noted
  split <;> rfl

end Token

namespace Keyring

theorem reencrypt_of_failed (ring : Keyring) (token : String) (aad : Bytes) (host : Host)
    (cause : CryptoError) (failed : ring.openToken token aad = .error cause) :
    ring.reencrypt token aad host = (.error cause, host) := by
  rw [reencrypt, Action.bind_apply, decrypt_bytes_of_failed ring token aad host cause failed]

theorem reencrypt_of_opened (ring : Keyring) (token : String) (aad plaintext : Bytes) (host : Host)
    (opened : ring.openToken token aad = .ok plaintext) :
    ring.reencrypt token aad host =
      if Token.keyIdOf token = some ring.active then (.ok token, host)
      else ring.encryptBytes plaintext aad (Token.noted token host) := by
  rw [reencrypt, Action.bind_apply, decrypt_bytes_of_opened ring token aad plaintext host opened]
  by_cases named : Token.keyIdOf token = some ring.active
  · simp only [if_pos named, Action.pure_apply, Token.noted_of_named token _ host named]
  · simp only [if_neg named]

end Keyring

structure Token.Renewed (plaintext aad : Bytes) (ring : Keyring) (token : String) : Prop where
  keyId : Token.keyIdOf token = some ring.active
  stays : ∀ host, ring.reencrypt token aad host = (.ok token, host)
  opens : ∀ keeper : Keyring, keeper.Keeps ring → ∀ host,
    keeper.decryptBytes token aad host = (.ok plaintext, host)

namespace Keyring

theorem renewed_of_opened (ring : Keyring) (token : String) (aad plaintext : Bytes)
    (named : Token.keyIdOf token = some ring.active)
    (opened : ring.openToken token aad = .ok plaintext) : Token.Renewed plaintext aad ring token where
  keyId := named
  stays host := by rw [reencrypt_of_opened ring token aad plaintext host opened, if_pos named]
  opens keeper keeps host := by
    obtain ⟨payload, parsed⟩ := Token.parse_of_key_id_of token ring.active named
    have same : keeper.keys.get? ring.active = ring.keys.get? ring.active :=
      keeps.trans ring.keeps_self.symm
    have kept : keeper.openToken token aad = .ok plaintext := by
      rw [open_token_named keeper token _ payload aad parsed,
        open_payload_congr keeper ring ring.active payload aad same,
        ← open_token_named ring token _ payload aad parsed, opened]
    rw [decrypt_bytes_of_opened keeper token aad plaintext host kept,
      Token.noted_of_named token _ host named]

-- What a renewal draws: a nonce, unless the token is under the active key already.
def renewalCost (ring : Keyring) (token : String) : Nat :=
  if Token.keyIdOf token = some ring.active then 0 else 12

theorem renewal_cost_eq_step_cost (ring next : Keyring) (token : String)
    (named : Token.keyIdOf token = some ring.active) :
    next.renewalCost token = stepCost ring next := by
  simp only [renewalCost, stepCost, named, Option.some.injEq]

theorem reencrypt_renews (ring : Keyring) (token : String) (aad plaintext : Bytes) (host : Host)
    (opened : ring.openToken token aad = .ok plaintext)
    (enough : host.entropy.Holds (ring.renewalCost token))
    (fits : ring.renewalCost token = 0 ∨ Gcm.Sealable plaintext aad) :
    ∃ renewed, ring.reencrypt token aad host =
        (.ok renewed, { Token.noted token host with
          entropy := host.entropy.advance (ring.renewalCost token) }) ∧
      Token.Renewed plaintext aad ring renewed ∧
      (renewed = token ↔ Token.keyIdOf token = some ring.active) := by
  rw [reencrypt_of_opened ring token aad plaintext host opened]
  by_cases named : Token.keyIdOf token = some ring.active
  · refine ⟨token, ?_, renewed_of_opened ring token aad plaintext named opened, iff_of_true rfl named⟩
    rw [if_pos named, renewalCost, if_pos named, Token.noted_of_named token _ host named]
    rfl
  · rw [renewalCost, if_neg named] at enough fits ⊢
    rw [if_neg named]
    have drawn : (Token.noted token host).entropy.Holds 12 := by rwa [Token.entropy_noted]
    have sealable : Gcm.Sealable plaintext aad := fits.resolve_left (by decide)
    have active := key_id_of_token_with ring (host.entropy.next 12) plaintext aad
    refine ⟨_, ?_, renewed_of_opened ring _ aad plaintext active
      (open_token_token_with ring ring ring.keeps_self _ plaintext aad sealable), ?_⟩
    · rw [encrypt_bytes_of_holds ring plaintext aad _ drawn sealable, Token.entropy_noted]
    · exact iff_of_false (fun same => named (same ▸ active)) named

-- What opened can be too large to be sealed anew: a legacy token opens whatever its data are.
theorem reencrypt_of_large (ring : Keyring) (token : String) (aad plaintext : Bytes) (host : Host)
    (opened : ring.openToken token aad = .ok plaintext)
    (enough : host.entropy.Holds (ring.renewalCost token)) (some : ring.renewalCost token ≠ 0)
    (large : ¬ Gcm.Sealable plaintext aad) :
    (ring.reencrypt token aad host).1 = .error .encryptionFailed := by
  have unnamed : Token.keyIdOf token ≠ Option.some ring.active := fun named =>
    some (if_pos named)
  rw [renewalCost, if_neg unnamed, ← Token.entropy_noted token host] at enough
  rw [reencrypt_of_opened ring token aad plaintext host opened, if_neg unnamed,
    encrypt_bytes_of_not_sealable ring plaintext aad _ enough large]

theorem reencrypt_of_renewed (ring next : Keyring) (token : String) (aad plaintext : Bytes)
    (host : Host) (keeps : next.Keeps ring) (renewed : Token.Renewed plaintext aad ring token)
    (enough : host.entropy.Holds (stepCost ring next))
    (fits : stepCost ring next = 0 ∨ Gcm.Sealable plaintext aad) :
    ∃ moved, next.reencrypt token aad host =
        (.ok moved, { host with entropy := host.entropy.advance (stepCost ring next) }) ∧
      Token.Renewed plaintext aad next moved := by
  have opened : next.openToken token aad = .ok plaintext := by
    rw [← decrypt_bytes_fst next token aad host, renewed.opens next keeps host]
  have cost := renewal_cost_eq_step_cost ring next token renewed.keyId
  rw [← cost] at enough fits ⊢
  obtain ⟨moved, ran, settled, -⟩ := reencrypt_renews next token aad plaintext host opened enough fits
  rw [Token.noted_of_named token _ host renewed.keyId] at ran
  exact ⟨moved, ran, settled⟩

/-- A token is renewed only if it opens, and fails as it does if not. What it opens to never changes:
neither in one ring nor along rings of which each holds the active key of the one before. A token that
names the active key is given back as it is, and no other. Whatever is sealed anew has to be within the
cipher's limits. -/
theorem reencrypt_keeps (aad : Bytes) :
    (∀ (ring : Keyring) (token : String) (host : Host),
      (∀ cause, (ring.decryptBytes token aad host).1 = .error cause →
        ring.reencrypt token aad host = (.error cause, host)) ∧
      ∀ plaintext, (ring.decryptBytes token aad host).1 = .ok plaintext →
        host.entropy.Holds (ring.renewalCost token) →
          ((ring.renewalCost token = 0 ∨ Gcm.Sealable plaintext aad) →
            ∃ renewed, ring.reencrypt token aad host =
                (.ok renewed, { Token.noted token host with
                  entropy := host.entropy.advance (ring.renewalCost token) }) ∧
              Token.Renewed plaintext aad ring renewed ∧
              (renewed = token ↔ Token.keyIdOf token = some ring.active)) ∧
          (ring.renewalCost token ≠ 0 → ¬ Gcm.Sealable plaintext aad →
            (ring.reencrypt token aad host).1 = .error .encryptionFailed)) ∧
      ∀ (first : Keyring) (rings : List Keyring),
        List.IsChain (fun ring next => next.Keeps ring) (first :: rings) →
          ∀ (token : String) (plaintext : Bytes) (host : Host),
            (first.decryptBytes token aad host).1 = .ok plaintext →
            host.entropy.Holds (first.renewalCost token + rotationCost first rings) →
            (first.renewalCost token + rotationCost first rings = 0 ∨ Gcm.Sealable plaintext aad) →
              ∃ tokens, inTurn (fun ring token => ring.reencrypt token aad) (first :: rings) token host =
                  (.ok tokens, { Token.noted token host with
                    entropy := host.entropy.advance
                      (first.renewalCost token + rotationCost first rings) }) ∧
                List.Forall₂ (Token.Renewed plaintext aad) (first :: rings) tokens := by
  simp only [decrypt_bytes_fst]
  refine ⟨fun ring token host => ⟨fun cause => reencrypt_of_failed ring token aad host cause,
    fun plaintext opened enough => ⟨reencrypt_renews ring token aad plaintext host opened enough,
      reencrypt_of_large ring token aad plaintext host opened enough⟩⟩, ?_⟩
  intro first rings linked token plaintext host opened enough fits
  have here := Entropy.holds_of_le host.entropy _ _ (Nat.le_add_right _ _) enough
  have nothing : first.renewalCost token + rotationCost first rings = 0 →
      first.renewalCost token = 0 ∧ rotationCost first rings = 0 := Nat.add_eq_zero_iff.mp
  obtain ⟨renewed, ran, settled, -⟩ := reencrypt_renews first token aad plaintext host opened here
    (fits.imp_left fun none => (nothing none).1)
  obtain ⟨tokens, run, others⟩ := in_turn_of_linked (fun ring token => ring.reencrypt token aad)
    (Token.Renewed plaintext aad) (Gcm.Sealable plaintext aad)
    (fun ring next token host => reencrypt_of_renewed ring next token aad plaintext host)
    first rings renewed
    { Token.noted token host with entropy := host.entropy.advance (first.renewalCost token) }
    linked settled ((Entropy.holds_advance_iff ..).mpr enough)
    (fits.imp_left fun none => (nothing none).2)
  refine ⟨renewed :: tokens, ?_, .cons settled others⟩
  simp only [inTurn, Action.bind_apply, ran, run, Action.pure_apply, Entropy.advance_advance]

def renewalHost : Host :=
  ⟨⟨UInt8.ofNat, 0, some 24⟩, .epoch, []⟩

theorem reencrypt_keeps_legacy :
    (firstRing.decryptBytes (Token.named "k2" "AAAA").text [1] renewalHost).1 =
        .error (.unknownKeyId "k2") ∧
      firstRing.reencrypt (Token.named "k2" "AAAA").text [1] renewalHost =
        (.error (.unknownKeyId "k2"), renewalHost) ∧
      (firstRing.decryptBytes (Token.legacy legacyPayload).text [1] renewalHost).1 =
        .ok (Utf8.encode "pass") ∧
      firstRing.renewalCost (Token.legacy legacyPayload).text = 12 ∧
      rotationCost firstRing [secondRing] = 12 ∧ renewalHost.entropy.Holds 24 ∧
      Gcm.Sealable (Utf8.encode "pass") [1] ∧
      (∃ renewed after,
        firstRing.reencrypt (Token.legacy legacyPayload).text [1] renewalHost = (.ok renewed, after) ∧
          after.entropy = renewalHost.entropy.advance 12 ∧
          Token.Renewed (Utf8.encode "pass") [1] firstRing renewed ∧
          renewed ≠ (Token.legacy legacyPayload).text) ∧
      (firstRing.reencrypt (Token.legacy legacyPayload).text Sealed.excess renewalHost).1 =
        .error .encryptionFailed ∧
      List.IsChain (fun ring next : Keyring => next.Keeps ring) [firstRing, secondRing] ∧
      ∃ tokens after,
        inTurn (fun ring token => ring.reencrypt token [1]) [firstRing, secondRing]
            (Token.legacy legacyPayload).text renewalHost = (.ok tokens, after) ∧
          List.Forall₂ (Token.Renewed (Utf8.encode "pass") [1]) [firstRing, secondRing] tokens := by
  obtain ⟨single, run⟩ := reencrypt_keeps [1]
  have unknown : (firstRing.decryptBytes (Token.named "k2" "AAAA").text [1] renewalHost).1 =
      .error (.unknownKeyId "k2") := by
    have parsed := Token.parse_text_named "k2" "AAAA" (by decide)
    rw [decrypt_bytes_fst, open_token_named _ _ _ _ _ parsed]
    rfl
  have parsed := Token.parse_text_legacy legacyPayload
  have opened (aad : Bytes) :
      (firstRing.decryptBytes (Token.legacy legacyPayload).text aad renewalHost).1 =
        .ok (Utf8.encode "pass") := by
    rw [decrypt_bytes_fst, open_token_legacy _ _ _ _ parsed, open_legacy_iff_first_opens]
    exact first_opens_legacy_payload
  have unnamed := Token.key_id_of_text_legacy legacyPayload
  have cost : firstRing.renewalCost (Token.legacy legacyPayload).text = 12 := by
    simp only [renewalCost, unnamed, reduceCtorEq, if_false]
  have linked : List.IsChain (fun ring next : Keyring => next.Keeps ring) [firstRing, secondRing] :=
    List.isChain_cons_cons.mpr ⟨rfl, .singleton _⟩
  have enough : renewalHost.entropy.Holds 24 := by decide
  have once := Entropy.holds_of_le renewalHost.entropy 12 24 (by decide) enough
  have fits : Gcm.Sealable (Utf8.encode "pass") [1] := by decide
  have total : firstRing.renewalCost (Token.legacy legacyPayload).text +
      rotationCost firstRing [secondRing] = 24 := by
    rw [cost]
    rfl
  obtain ⟨renewed, ran, settled, kept⟩ := ((single firstRing _ renewalHost).2 _ (opened [1])
    (by rwa [cost])).1 (.inr fits)
  obtain ⟨tokens, runs, all⟩ := run firstRing [secondRing] linked _ _ renewalHost (opened [1])
    (by rwa [total]) (.inr fits)
  have refused := (((reencrypt_keeps Sealed.excess).1 firstRing _ renewalHost).2 _
    (opened Sealed.excess) (by rwa [cost])).2 (by rw [cost]; decide)
    (Sealed.not_sealable_for_excess _)
  have failed := (single firstRing _ renewalHost).1 _ unknown
  rw [cost] at ran
  have changed : renewed ≠ (Token.legacy legacyPayload).text := by
    intro same
    have named := kept.mp same
    rw [unnamed] at named
    cases named
  exact ⟨unknown, failed, opened [1], cost, rfl, enough, fits,
    ⟨renewed, _, ran, rfl, settled, changed⟩, refused, linked, tokens, _, runs, all⟩

theorem unwrap_of_rewrap (ring : Keyring) (w rewrapped : WrappedDek) (host after : Host)
    (ran : ring.rewrap w host = (.ok rewrapped, after)) : ring.unwrap rewrapped = ring.unwrap w := by
  by_cases named : w.NamesActive ring
  · rw [rewrap_of_named ring w host named] at ran
    cases ran
    rfl
  · cases unwrapped : ring.unwrap w with
    | error cause =>
      rw [rewrap_of_failed ring w host cause named unwrapped] at ran
      cases ran
    | ok dek =>
      rw [rewrap_of_unwrapped ring w host dek named unwrapped] at ran
      by_cases enough : host.entropy.Holds 12
      · rw [wrap_of_holds ring dek host enough] at ran
        cases ran
        exact unwrap_wrapped_with ring dek _
      · rw [wrap_of_not_holds ring dek host enough] at ran
        cases ran

/-- A document key that does not unwrap fails to be rewrapped with the same error, unless it names the
active key: then it is given back as it is. So what is given back unwraps unless that was the case. -/
theorem rewrap_fails_iff (ring : Keyring) (w : WrappedDek) (host : Host) :
    (∀ cause, ring.unwrap w = .error cause →
      (ring.rewrap w host = (.error cause, host) ↔ ¬ w.NamesActive ring) ∧
        (w.NamesActive ring → ring.rewrap w host = (.ok w, host))) ∧
      ∀ rewrapped after, ring.rewrap w host = (.ok rewrapped, after) →
        ring.unwrap rewrapped = ring.unwrap w ∧
          ((∃ dek, ring.unwrap rewrapped = .ok dek ∧ dek.bytes.length = 32) ↔
            ¬ (w.NamesActive ring ∧ ∃ cause, ring.unwrap w = .error cause)) := by
  constructor
  · intro cause failed
    refine ⟨⟨fun ran named => ?_, fun unnamed => rewrap_of_failed ring w host cause unnamed failed⟩,
      rewrap_of_named ring w host⟩
    rw [rewrap_of_named ring w host named] at ran
    cases ran
  · intro rewrapped after ran
    have same := unwrap_of_rewrap ring w rewrapped host after ran
    refine ⟨same, ?_⟩
    rw [same]
    cases unwrapped : ring.unwrap w with
    | ok dek => exact iff_of_true ⟨dek, rfl, dek.key.property⟩ fun kept => nomatch kept.2
    | error cause =>
      refine iff_of_false nofun fun unnamed => ?_
      rw [rewrap_of_failed ring w host cause (fun named => unnamed ⟨named, cause, rfl⟩) unwrapped]
        at ran
      cases ran

theorem rewrap_fails_iff_unknown :
    firstRing.unwrap ⟨"AAAA", "k2", "AES-256-GCM"⟩ = .error (.unknownKeyId "k2") ∧
      firstRing.rewrap ⟨"AAAA", "k2", "AES-256-GCM"⟩ scarceHost =
        (.error (.unknownKeyId "k2"), scarceHost) ∧
      ∃ rewrapped after,
        secondRing.rewrap (firstRing.wrappedWith ⟨Sized.zero 32⟩ (Sized.zero 12)) scarceHost =
            (.ok rewrapped, after) ∧
          ∃ dek, secondRing.unwrap rewrapped = .ok dek ∧ dek.bytes.length = 32 := by
  have unknown : firstRing.unwrap ⟨"AAAA", "k2", "AES-256-GCM"⟩ = .error (.unknownKeyId "k2") := rfl
  have unnamed : ¬ WrappedDek.NamesActive firstRing ⟨"AAAA", "k2", "AES-256-GCM"⟩ := by
    rintro ⟨same, -⟩
    exact absurd same (by decide)
  have keeps : secondRing.Keeps firstRing := rfl
  obtain ⟨nonce, moved⟩ := rewrap_wrapped_with firstRing secondRing keeps ⟨Sized.zero 32⟩ (Sized.zero 12)
    scarceHost (by decide)
  have failed := ((rewrap_fails_iff firstRing _ scarceHost).1 _ unknown).1.mpr unnamed
  obtain ⟨same, opens⟩ := (rewrap_fails_iff secondRing _ scarceHost).2 _ _ moved
  refine ⟨unknown, failed, _, _, moved, opens.mpr ?_⟩
  rintro ⟨-, cause, fails⟩
  rw [unwrap_of_keeps secondRing firstRing keeps] at fails
  cases fails

-- A payload that is too short for any key, under the id of the active one.
theorem unread_payload_is_kept :
    firstRing.unwrap ⟨"AAAA", "k1", "AES-256-GCM"⟩ = .error .dataTooShort ∧
      firstRing.rewrap ⟨"AAAA", "k1", "AES-256-GCM"⟩ scarceHost =
        (.ok ⟨"AAAA", "k1", "AES-256-GCM"⟩, scarceHost) :=
  ⟨by decide, rewrap_of_named firstRing _ scarceHost ⟨rfl, rfl⟩⟩

end Keyring

end Envelope
