import Envelope.Keyring.Wrap
import Envelope.Proofs.Keyring.Tokens
import Envelope.Proofs.Table

set_option autoImplicit false

namespace Envelope

def Token.noted (token : String) (host : Host) : Host :=
  if Token.isLegacy token then
    { host with events := host.events ++ [⟨.debug, "decrypted legacy v1 token", []⟩] }
  else host

namespace Keyring

theorem open_payload_congr (one other : Keyring) (id payload : String) (aad : Bytes)
    (same : one.keys.get? id = other.keys.get? id) :
    one.openPayload id payload aad = other.openPayload id payload aad := by
  simp only [openPayload, key, same]

theorem unwrap_congr (one other : Keyring) (w : WrappedDek)
    (same : one.keys.get? w.kekId = other.keys.get? w.kekId) : one.unwrap w = other.unwrap w := by
  simp only [unwrap, open_payload_congr one other w.kekId w.wrapped wrapAad same]

theorem open_token_named (ring : Keyring) (token id payload : String) (aad : Bytes)
    (parsed : Token.parse token = .ok (.named id payload)) :
    ring.openToken token aad = ring.openPayload id payload aad := by
  rw [openToken, parsed]
  rfl

theorem open_token_legacy (ring : Keyring) (token payload : String) (aad : Bytes)
    (parsed : Token.parse token = .ok (.legacy payload)) :
    ring.openToken token aad = ring.openLegacy payload := by
  rw [openToken, parsed]
  rfl

theorem decrypt_bytes_congr (one other : Keyring) (token : String) (aad otherAad : Bytes)
    (same : one.openToken token aad = other.openToken token otherAad) :
    one.decryptBytes token aad = other.decryptBytes token otherAad := by
  simp only [decryptBytes, same]

theorem decrypt_bytes_of_opened (ring : Keyring) (token : String) (aad plaintext : Bytes)
    (host : Host) (opened : ring.openToken token aad = .ok plaintext) :
    ring.decryptBytes token aad host = (.ok plaintext, Token.noted token host) := by
  simp only [decryptBytes, Action.bind_apply, opened, Action.ofExcept, Token.noted]
  cases Token.isLegacy token <;> rfl

theorem decrypt_bytes_of_failed (ring : Keyring) (token : String) (aad : Bytes) (host : Host)
    (cause : CryptoError) (failed : ring.openToken token aad = .error cause) :
    ring.decryptBytes token aad host = (.error cause, host) := by
  simp only [decryptBytes, Action.bind_apply, failed, Action.ofExcept]

theorem decrypt_bytes_fst (ring : Keyring) (token : String) (aad : Bytes) (host : Host) :
    (ring.decryptBytes token aad host).1 = ring.openToken token aad := by
  cases opened : ring.openToken token aad with
  | error cause => rw [decrypt_bytes_of_failed ring token aad host cause opened]
  | ok plaintext => rw [decrypt_bytes_of_opened ring token aad plaintext host opened]

end Keyring

def Token.OpensWith (key : Gcm.Key) (payload : String) (plaintext : Bytes) : Prop :=
  ∃ data, frame payload = .ok data ∧ Sealed.openFramed key data [] = .ok plaintext

namespace Keyring

-- The plaintext of the first key, in the order of the ids, that opens a payload.
def FirstOpens (ring : Keyring) (payload : String) (plaintext : Bytes) : Prop :=
  ∃ id key, ring.keys.get? id = some key ∧ Token.OpensWith key payload plaintext ∧
    ∀ earlier other, earlier < id → ring.keys.get? earlier = some other →
      ∀ text, ¬ Token.OpensWith other payload text

theorem open_legacy_eq_ok_iff (ring : Keyring) (payload : String) (plaintext : Bytes) :
    ring.openLegacy payload = .ok plaintext ↔
      ∃ data, Token.frame payload = .ok data ∧ ring.openWithAny? data = some plaintext := by
  rw [openLegacy]
  cases Token.frame payload with
  | error cause => exact iff_of_false nofun (by rintro ⟨_, ⟨⟩, _⟩)
  | ok data =>
    simp only [Except.ok.injEq, exists_eq_left', bind, Except.bind]
    cases ring.openWithAny? data with
    | none => exact iff_of_false nofun nofun
    | some text => simp only [Except.ok.injEq, Option.some.injEq]

theorem opens_with_iff (key : Gcm.Key) (payload : String) (data plaintext : Bytes)
    (framed : Token.frame payload = .ok data) :
    Token.OpensWith key payload plaintext ↔
      (Sealed.openFramed key data []).toOption = some plaintext := by
  simp only [Token.OpensWith, framed, Except.ok.injEq, exists_eq_left']
  cases Sealed.openFramed key data [] <;> simp [Except.toOption]

theorem opens_with_framed (key : Gcm.Key) (nonce : Gcm.Nonce) (plaintext : Bytes)
    (fits : Gcm.Openable plaintext []) :
    Token.OpensWith key (Base64.encode (nonce.val ++ Gcm.sealed key nonce plaintext []))
      plaintext :=
  ⟨_, Token.frame_framed key nonce plaintext [], Sealed.open_framed_framed key nonce plaintext [] fits⟩

theorem open_legacy_iff_first_opens (ring : Keyring) (payload : String) (plaintext : Bytes) :
    ring.openLegacy payload = .ok plaintext ↔ ring.FirstOpens payload plaintext := by
  rw [open_legacy_eq_ok_iff]
  cases framed : Token.frame payload with
  | error cause =>
    refine iff_of_false nofun ?_
    rintro ⟨_, key, -, ⟨data, other, -⟩, -⟩
    rw [framed] at other
    cases other
  | ok data =>
    have search := Table.find_some?_eq_some_iff (fun key => (Sealed.openFramed key data []).toOption)
      ring.keys.entries ring.keys.ascending plaintext
    simp only [Except.ok.injEq, exists_eq_left', FirstOpens, opens_with_iff _ payload data _ framed]
    simp only [Option.eq_none_iff_forall_ne_some] at search
    exact search

theorem open_legacy_opens_iff (ring : Keyring) (payload : String) :
    (∃ plaintext, ring.openLegacy payload = .ok plaintext) ↔
      ∃ id key plaintext, ring.keys.get? id = some key ∧ Token.OpensWith key payload plaintext := by
  constructor
  · rintro ⟨plaintext, opened⟩
    obtain ⟨id, key, present, opens, -⟩ :=
      (open_legacy_iff_first_opens ring payload plaintext).mp opened
    exact ⟨id, key, plaintext, present, opens⟩
  · rintro ⟨id, key, plaintext, present, data, framed, opened⟩
    have member := Table.mem_of_get? ring.keys.entries id key present
    have found : (ring.openWithAny? data).isSome := by
      refine List.findSome?_isSome_iff.mpr ⟨(id, key), member, ?_⟩
      rw [opened]
      rfl
    obtain ⟨text, first⟩ := Option.isSome_iff_exists.mp found
    exact ⟨text, (open_legacy_eq_ok_iff ring payload text).mpr ⟨data, framed, first⟩⟩

/-- What names its key opens alike in all rings that hold the same key under the id, or none. A
legacy token opens with the first key that fits, in the order of the ids, whatever data is given with
it and whichever key is active; and where it opens it does so in every larger ring. -/
theorem opening_is_local :
    (∀ (one other : Keyring) (id : String), one.keys.get? id = other.keys.get? id →
      (∀ token payload, Token.parse token = .ok (.named id payload) → ∀ aad,
        one.decryptBytes token aad = other.decryptBytes token aad) ∧
      ∀ payload algorithm,
        one.unwrap ⟨payload, id, algorithm⟩ = other.unwrap ⟨payload, id, algorithm⟩) ∧
    ∀ (ring : Keyring) (token payload : String), Token.parse token = .ok (.legacy payload) →
      (∀ twin : Keyring, twin.keys = ring.keys → ∀ aad otherAad,
        twin.decryptBytes token otherAad = ring.decryptBytes token aad) ∧
      (∀ aad host,
        ((∃ plaintext, (ring.decryptBytes token aad host).1 = .ok plaintext) ↔
          ∃ id key plaintext, ring.keys.get? id = some key ∧ Token.OpensWith key payload plaintext) ∧
        ∀ plaintext, (ring.decryptBytes token aad host).1 = .ok plaintext ↔
          ring.FirstOpens payload plaintext) ∧
      ∀ larger : Keyring,
        (∀ id key, ring.keys.get? id = some key → larger.keys.get? id = some key) →
          ∀ aad host, (∃ plaintext, (ring.decryptBytes token aad host).1 = .ok plaintext) →
            ∃ plaintext, (larger.decryptBytes token aad host).1 = .ok plaintext := by
  constructor
  · intro one other id same
    refine ⟨fun token payload named aad => ?_, fun _ _ => unwrap_congr one other _ same⟩
    apply decrypt_bytes_congr
    rw [open_token_named one token id payload aad named,
      open_token_named other token id payload aad named]
    exact open_payload_congr one other id payload aad same
  · intro ring token payload legacy
    refine ⟨fun twin same aad otherAad => ?_, fun aad host => ?_, fun larger keeps aad host => ?_⟩
    · apply decrypt_bytes_congr
      rw [open_token_legacy twin token payload _ legacy, open_token_legacy ring token payload _ legacy]
      simp only [openLegacy, openWithAny?, same]
    · simp only [decrypt_bytes_fst, open_token_legacy ring token payload aad legacy]
      exact ⟨open_legacy_opens_iff ring payload, open_legacy_iff_first_opens ring payload⟩
    · simp only [decrypt_bytes_fst, open_token_legacy _ token payload aad legacy, open_legacy_opens_iff]
      rintro ⟨id, key, plaintext, present, opens⟩
      exact ⟨id, key, plaintext, keeps id key present, opens⟩

def legacyPayload : String :=
  Base64.encode ((Sized.zero 12).val ++
    Gcm.sealed firstRing.activeKey (Sized.zero 12) (Utf8.encode "pass") [])

theorem id_of_first_ring (id : String) (key : Gcm.Key) (there : firstRing.keys.get? id = some key) :
    id = "k1" := by
  have member := (firstRing.keys.get?_is_some_iff id).mp (there ▸ rfl)
  exact List.mem_singleton.mp member

theorem first_opens_legacy_payload : firstRing.FirstOpens legacyPayload (Utf8.encode "pass") := by
  refine ⟨"k1", firstRing.activeKey, rfl, opens_with_framed _ _ _ (by decide),
    fun earlier other less there => ?_⟩
  exact absurd less (id_of_first_ring earlier other there ▸ String.lt_irrefl _)

theorem opening_is_local_rotated :
    firstRing.keys.get? "k1" = secondRing.keys.get? "k1" ∧
      Token.parse (Token.named "k1" "AAAA").text = .ok (.named "k1" "AAAA") ∧
      firstRing.decryptBytes (Token.named "k1" "AAAA").text [] =
        secondRing.decryptBytes (Token.named "k1" "AAAA").text [] ∧
      firstRing.unwrap ⟨"AAAA", "k1", "AES-256-GCM"⟩ =
        secondRing.unwrap ⟨"AAAA", "k1", "AES-256-GCM"⟩ ∧
      Token.parse (Token.legacy legacyPayload).text = .ok (.legacy legacyPayload) ∧
      (firstRing.decryptBytes (Token.legacy legacyPayload).text [1] scarceHost).1 =
        .ok (Utf8.encode "pass") ∧
      (∀ id key, firstRing.keys.get? id = some key → secondRing.keys.get? id = some key) ∧
      ∃ plaintext,
        (secondRing.decryptBytes (Token.legacy legacyPayload).text [1] scarceHost).1 =
          .ok plaintext := by
  obtain ⟨named, legacy⟩ := opening_is_local
  have parsed := Token.parse_text_named "k1" "AAAA" (by decide)
  have same : firstRing.keys.get? "k1" = secondRing.keys.get? "k1" := rfl
  have parsedLegacy := Token.parse_text_legacy legacyPayload
  obtain ⟨-, opens, larger⟩ := legacy firstRing _ _ parsedLegacy
  have opened := ((opens [1] scarceHost).2 _).mpr first_opens_legacy_payload
  have grown (id key) (there : firstRing.keys.get? id = some key) :
      secondRing.keys.get? id = some key := by
    obtain rfl := id_of_first_ring id key there
    exact there
  obtain ⟨decrypts, unwraps⟩ := named firstRing secondRing "k1" same
  exact ⟨same, parsed, decrypts _ _ parsed [], unwraps _ _, parsedLegacy, opened, grown,
    larger secondRing grown [1] scarceHost ⟨_, opened⟩⟩

end Keyring

end Envelope
