import Envelope.Proofs.Keyring.Renewal

set_option autoImplicit false

namespace Envelope

namespace Token

theorem text_legacy (payload : String) : (legacy payload).text = "enc:v1:" ++ payload := by
  apply String.toList_injective
  simp [text, legacyMark]

def Marked (mark text : String) : Prop :=
  ∃ rest, text = mark ++ rest

theorem is_some_after?_iff (mark text : String) :
    (Text.after? mark.toList text.toList).isSome = true ↔ Marked mark text := by
  rw [Option.isSome_iff_exists]
  constructor
  · intro ⟨rest, found⟩
    have chars := (Text.after?_eq_some_iff mark.toList text.toList rest).mp found
    exact ⟨String.ofList rest, String.toList_injective (by simpa using chars)⟩
  · intro ⟨rest, eq⟩
    exact ⟨rest.toList, by rw [eq, String.toList_append, Text.after?_append]⟩

theorem is_encrypted_iff (text : String) :
    isEncrypted text = true ↔ Marked "enc:v1:" text ∨ Marked "enc:v2:" text := by
  have named := is_some_after?_iff "enc:v2:" text
  have legacy := is_some_after?_iff "enc:v1:" text
  rw [isEncrypted, Bool.or_eq_true]
  exact (or_congr named legacy).trans or_comm

def Names (text id payload : String) : Prop :=
  IsKeyId id ∧ text = "enc:v2:" ++ id ++ ":" ++ payload

def Malformed (text : String) : TokenFault → Prop
  | .noDelimiter => ∃ rest, text = "enc:v2:" ++ rest ∧ ':' ∉ rest.toList
  | .emptyKeyId => ∃ payload, text = "enc:v2:" ++ ":" ++ payload

theorem parse_of_marked (rest : String) : parse ("enc:v2:" ++ rest) = ofNamed rest.toList := by
  have chars : ("enc:v2:" ++ rest).toList = namedMark ++ rest.toList := String.toList_append
  simp only [parse, chars, Text.after?_append]

theorem parse_of_legacy (payload : String) : parse ("enc:v1:" ++ payload) = .ok (.legacy payload) :=
  text_legacy payload ▸ parse_text_legacy payload

theorem parse_of_names (text id payload : String) (names : Names text id payload) :
    parse text = .ok (.named id payload) := by
  obtain ⟨valid, rfl⟩ := names
  exact text_named id payload ▸ parse_text_named id payload valid

theorem parse_of_malformed (text : String) (fault : TokenFault) (malformed : Malformed text fault) :
    parse text = .error (.malformedToken fault) := by
  cases fault with
  | noDelimiter =>
    obtain ⟨rest, rfl, noColon⟩ := malformed
    rw [parse_of_marked, ofNamed, (Text.cut_at?_eq_none_iff ':' rest.toList).mpr noColon]
  | emptyKeyId =>
    obtain ⟨payload, rfl⟩ := malformed
    rw [String.append_assoc, parse_of_marked, String.toList_append]
    rfl

theorem parse_of_foreign (text : String) (foreign : isEncrypted text = false) :
    parse text = .error .unsupportedPrefix := by
  simp only [isEncrypted, Bool.or_eq_false_iff, Option.isSome_eq_false_iff,
    Option.isNone_iff_eq_none] at foreign
  simp only [parse, foreign.1, foreign.2]

theorem marked_cases (rest : String) :
    (∃ fault, Malformed ("enc:v2:" ++ rest) fault) ∨
      ∃ id payload, Names ("enc:v2:" ++ rest) id payload := by
  cases cut : Text.cutAt? ':' rest.toList with
  | none => exact .inl ⟨.noDelimiter, rest, rfl, (Text.cut_at?_eq_none_iff ':' _).mp cut⟩
  | some parts =>
    obtain ⟨id, payload⟩ := parts
    obtain ⟨eq, noColon⟩ := (Text.cut_at?_eq_some_iff ':' _ id payload).mp cut
    have whole : rest = String.ofList id ++ ":" ++ String.ofList payload := by
      apply String.toList_injective
      simpa using eq
    by_cases empty : id = []
    · subst empty
      exact .inl ⟨.emptyKeyId, String.ofList payload, by rw [whole, String.append_assoc]; rfl⟩
    · refine .inr ⟨String.ofList id, String.ofList payload, ⟨?_, by simpa using noColon⟩, ?_⟩
      · intro same
        exact empty (by simpa using congrArg String.toList same)
      · rw [whole]
        simp only [String.append_assoc]

theorem text_cases (text : String) :
    isEncrypted text = false ∨ (∃ fault, Malformed text fault) ∨
      (∃ id payload, Names text id payload) ∨ ∃ payload, text = "enc:v1:" ++ payload := by
  cases marked : isEncrypted text with
  | false => exact .inl rfl
  | true =>
    rcases (is_encrypted_iff text).mp marked with legacy | ⟨rest, rfl⟩
    · exact .inr (.inr (.inr legacy))
    · rcases marked_cases rest with malformed | names
      · exact .inr (.inl malformed)
      · exact .inr (.inr (.inl names))

theorem key_id_of_of_names (text id payload : String) (names : Names text id payload) :
    keyIdOf text = some id := by
  simp only [keyIdOf, parse_of_names text id payload names]

theorem key_id_of_of_malformed (text : String) (fault : TokenFault)
    (malformed : Malformed text fault) : keyIdOf text = none := by
  simp only [keyIdOf, parse_of_malformed text fault malformed]

theorem key_id_of_eq_some_iff (text id : String) :
    keyIdOf text = some id ↔ ∃ payload, Names text id payload := by
  constructor
  · intro named
    rcases text_cases text with foreign | ⟨fault, malformed⟩ | ⟨other, payload, names⟩ | ⟨payload, rfl⟩
    · simp [keyIdOf, parse_of_foreign text foreign] at named
    · simp [key_id_of_of_malformed text fault malformed] at named
    · rw [key_id_of_of_names text other payload names] at named
      exact ⟨payload, Option.some.inj named ▸ names⟩
    · simp [keyIdOf, parse_of_legacy] at named
  · intro named
    obtain ⟨payload, names⟩ := named
    exact key_id_of_of_names text id payload names

theorem names_unique (text id other payload otherPayload : String) (one : Names text id payload)
    (two : Names text other otherPayload) : id = other ∧ payload = otherPayload := by
  have same := (parse_of_names text id payload one).symm.trans
    (parse_of_names text other otherPayload two)
  exact Token.named.inj (Except.ok.inj same)

theorem exists_malformed_iff (text : String) :
    (∃ fault, Malformed text fault) ↔ Marked "enc:v2:" text ∧ keyIdOf text = none := by
  constructor
  · intro ⟨fault, malformed⟩
    refine ⟨?_, key_id_of_of_malformed text fault malformed⟩
    cases fault with
    | noDelimiter =>
      obtain ⟨rest, eq, -⟩ := malformed
      exact ⟨rest, eq⟩
    | emptyKeyId =>
      obtain ⟨payload, eq⟩ := malformed
      exact ⟨":" ++ payload, by rw [eq, String.append_assoc]⟩
  · intro ⟨⟨rest, eq⟩, unnamed⟩
    subst eq
    refine (marked_cases rest).resolve_right fun ⟨id, payload, names⟩ => ?_
    rw [key_id_of_of_names _ id payload names] at unnamed
    cases unnamed

theorem frame_of_unread (payload : String)
    (unread : ∀ data, Text.trim payload ≠ Base64.encode data) :
    frame payload = .error .invalidBase64 := by
  have none : Base64.decode? payload = none := by
    refine Option.eq_none_iff_forall_ne_some.mpr fun data read => ?_
    exact unread data ((Base64.decode?_eq_some_iff payload data).mp read)
  rw [frame, none]

theorem frame_of_read (payload : String) (data : Bytes)
    (read : Text.trim payload = Base64.encode data) :
    frame payload = if data.length < 28 then .error .dataTooShort else .ok data := by
  rw [frame, (Base64.decode?_eq_some_iff payload data).mpr read]
  rfl

end Token

namespace Sealed

def OpensTo (data : Bytes) (result : Except CryptoError Bytes) : Prop :=
  result = .error .decryptionFailed ∨
    ∃ plaintext, result = .ok plaintext ∧ plaintext.length + 28 = data.length

theorem open_framed_opens_to (key : Gcm.Key) (data aad : Bytes) (long : 28 ≤ data.length) :
    OpensTo data (openFramed key data aad) := by
  have nonceLength : (data.take Sealed.nonceLength).length = 12 := by
    rw [List.length_take, Sealed.nonceLength]
    omega
  have restLength : (data.drop Sealed.nonceLength).length = data.length - 12 := List.length_drop
  have nonce : Sized.ofBytes? 12 (data.take Sealed.nonceLength) = some ⟨_, nonceLength⟩ :=
    (Sized.of_bytes?_eq_some_iff 12 _ _).mpr rfl
  have notShort : ¬ data.length < Sealed.nonceLength + Gcm.tagLength := Nat.not_lt.mpr long
  have tagged : ¬ (data.drop Sealed.nonceLength).length < Gcm.tagLength := by
    rw [restLength, Gcm.tagLength]
    omega
  simp only [openFramed, if_neg notShort, openWith, nonce, if_neg tagged]
  cases opened : Gcm.opened? key ⟨_, nonceLength⟩ (data.drop Sealed.nonceLength) aad with
  | none => exact .inl rfl
  | some plaintext =>
    have sealedLength := congrArg List.length ((Gcm.opened?_eq_some_iff ..).mp opened).2
    rw [restLength, Gcm.length_sealed, Gcm.tagLength] at sealedLength
    exact .inr ⟨plaintext, rfl, by omega⟩

end Sealed

namespace Keyring

def Carries (ring : Keyring) (text payload : String) : Prop :=
  text = "enc:v1:" ++ payload ∨ ∃ id ∈ ring.keys.ids, Token.Names text id payload

theorem open_token_of_foreign (ring : Keyring) (text : String) (aad : Bytes)
    (foreign : Token.isEncrypted text = false) :
    ring.openToken text aad = .error .unsupportedPrefix := by
  rw [openToken, Token.parse_of_foreign text foreign]
  rfl

theorem open_token_of_malformed (ring : Keyring) (text : String) (aad : Bytes) (fault : TokenFault)
    (malformed : Token.Malformed text fault) :
    ring.openToken text aad = .error (.malformedToken fault) := by
  rw [openToken, Token.parse_of_malformed text fault malformed]
  rfl

theorem open_token_of_unknown (ring : Keyring) (text id payload : String) (aad : Bytes)
    (names : Token.Names text id payload) (absent : id ∉ ring.keys.ids) :
    ring.openToken text aad = .error (.unknownKeyId id) := by
  have missing : ring.keys.get? id = none := by
    rw [← Option.not_isSome_iff_eq_none, KeyTable.get?_is_some_iff]
    exact absent
  rw [open_token_named ring text id payload aad (Token.parse_of_names text id payload names)]
  simp only [openPayload, key, missing]
  rfl

theorem open_token_of_carried (ring : Keyring) (text payload : String) (aad : Bytes)
    (carried : ring.Carries text payload) :
    ring.openToken text aad = ring.openLegacy payload ∨
      ∃ key, ring.openToken text aad =
        (Token.frame payload).bind fun data => Sealed.openFramed key data aad := by
  rcases carried with rfl | ⟨id, member, names⟩
  · exact .inl (open_token_legacy ring _ payload aad (Token.parse_of_legacy payload))
  · obtain ⟨held, present⟩ := Option.isSome_iff_exists.mp ((ring.keys.get?_is_some_iff id).mpr member)
    refine .inr ⟨held, ?_⟩
    rw [open_token_named ring text id payload aad (Token.parse_of_names text id payload names)]
    simp only [openPayload, key, present]
    rfl

theorem open_token_of_unframed (ring : Keyring) (text payload : String) (aad : Bytes)
    (carried : ring.Carries text payload) (cause : CryptoError)
    (unframed : Token.frame payload = .error cause) : ring.openToken text aad = .error cause := by
  rcases open_token_of_carried ring text payload aad carried with legacy | ⟨key, named⟩
  · rw [legacy, openLegacy, unframed]
    rfl
  · rw [named, unframed]
    rfl

theorem open_legacy_opens_to (ring : Keyring) (payload : String) (data : Bytes)
    (framed : Token.frame payload = .ok data) (long : 28 ≤ data.length) :
    Sealed.OpensTo data (ring.openLegacy payload) := by
  cases found : ring.openWithAny? data with
  | none =>
    refine .inl ?_
    simp only [openLegacy, framed, bind, Except.bind, found]
  | some plaintext =>
    have opened := (open_legacy_eq_ok_iff ring payload plaintext).mpr ⟨data, framed, found⟩
    refine .inr ⟨plaintext, opened, ?_⟩
    obtain ⟨entry, -, tried⟩ := List.exists_of_findSome?_eq_some found
    rcases Sealed.open_framed_opens_to entry.2 data [] long with failed | ⟨text, opens, length⟩
    · simp [failed, Except.toOption] at tried
    · simp only [opens, Except.toOption, Option.some.injEq] at tried
      exact tried ▸ length

theorem open_token_opens_to (ring : Keyring) (text payload : String) (aad data : Bytes)
    (carried : ring.Carries text payload) (framed : Token.frame payload = .ok data)
    (long : 28 ≤ data.length) : Sealed.OpensTo data (ring.openToken text aad) := by
  rcases open_token_of_carried ring text payload aad carried with legacy | ⟨key, named⟩
  · rw [legacy]
    exact open_legacy_opens_to ring payload data framed long
  · rw [named, framed]
    exact Sealed.open_framed_opens_to key data aad long

theorem carries_unique (ring : Keyring) (text payload other : String)
    (one : ring.Carries text payload) (two : ring.Carries text other) : payload = other := by
  have parsed (carried : String) (holds : ring.Carries text carried) :
      Token.parse text = .ok (.legacy carried) ∨ ∃ id, Token.parse text = .ok (.named id carried) := by
    rcases holds with rfl | ⟨id, -, names⟩
    · exact .inl (Token.parse_of_legacy carried)
    · exact .inr ⟨id, Token.parse_of_names text id carried names⟩
  rcases parsed payload one with legacy | ⟨id, named⟩
  · rcases parsed other two with same | ⟨_, differs⟩
    · exact Token.legacy.inj (Except.ok.inj (legacy.symm.trans same))
    · exact nomatch legacy.symm.trans differs
  · rcases parsed other two with differs | ⟨_, same⟩
    · exact nomatch named.symm.trans differs
    · exact (Token.named.inj (Except.ok.inj (named.symm.trans same))).2

-- All that opening a text can come to. The kind of the text is looked at first, then its key, then the
-- payload and its length.
inductive Outcome (ring : Keyring) (text : String) : Except CryptoError Bytes → Prop where
  | foreign (plain : Token.isEncrypted text = false) : Outcome ring text (.error .unsupportedPrefix)
  | malformed (fault : TokenFault) (bad : Token.Malformed text fault) :
    Outcome ring text (.error (.malformedToken fault))
  | unknown (id payload : String) (names : Token.Names text id payload) (absent : id ∉ ring.keys.ids) :
    Outcome ring text (.error (.unknownKeyId id))
  | unread (payload : String) (carried : ring.Carries text payload)
    (differs : ∀ data, Text.trim payload ≠ Base64.encode data) :
    Outcome ring text (.error .invalidBase64)
  | short (payload : String) (data : Bytes) (carried : ring.Carries text payload)
    (read : Text.trim payload = Base64.encode data) (few : data.length < 28) :
    Outcome ring text (.error .dataTooShort)
  | failed (payload : String) (data : Bytes) (carried : ring.Carries text payload)
    (read : Text.trim payload = Base64.encode data) (long : 28 ≤ data.length) :
    Outcome ring text (.error .decryptionFailed)
  | opened (payload : String) (data plaintext : Bytes) (carried : ring.Carries text payload)
    (read : Text.trim payload = Base64.encode data) (length : plaintext.length + 28 = data.length) :
    Outcome ring text (.ok plaintext)

theorem outcome_of_carried (ring : Keyring) (text payload : String) (aad : Bytes)
    (carried : ring.Carries text payload) : ring.Outcome text (ring.openToken text aad) := by
  by_cases read : ∃ data, Text.trim payload = Base64.encode data
  · obtain ⟨data, read⟩ := read
    have framed := Token.frame_of_read payload data read
    by_cases few : data.length < 28
    · rw [open_token_of_unframed ring text payload aad carried _ (framed.trans (if_pos few))]
      exact .short payload data carried read few
    · have long := Nat.not_lt.mp few
      rcases open_token_opens_to ring text payload aad data carried (framed.trans (if_neg few)) long with
        failed | ⟨plaintext, opened, length⟩
      · rw [failed]
        exact .failed payload data carried read long
      · rw [opened]
        exact .opened payload data plaintext carried read length
  · have differs := not_exists.mp read
    have unframed := Token.frame_of_unread payload differs
    rw [open_token_of_unframed ring text payload aad carried _ unframed]
    exact .unread payload carried differs

theorem outcome_open_token (ring : Keyring) (text : String) (aad : Bytes) :
    ring.Outcome text (ring.openToken text aad) := by
  rcases Token.text_cases text with
    foreign | ⟨fault, malformed⟩ | ⟨id, payload, names⟩ | ⟨payload, legacy⟩
  · rw [open_token_of_foreign ring text aad foreign]
    exact .foreign foreign
  · rw [open_token_of_malformed ring text aad fault malformed]
    exact .malformed fault malformed
  · by_cases member : id ∈ ring.keys.ids
    · exact outcome_of_carried ring text payload aad (.inr ⟨id, member, names⟩)
    · rw [open_token_of_unknown ring text id payload aad names member]
      exact .unknown id payload names member
  · exact outcome_of_carried ring text payload aad (.inl legacy)

theorem outcome_of_open_token (ring : Keyring) (text : String) (aad : Bytes)
    (result : Except CryptoError Bytes) (ran : ring.openToken text aad = result) :
    ring.Outcome text result :=
  ran ▸ outcome_open_token ring text aad

theorem open_token_foreign_iff (ring : Keyring) (text : String) (aad : Bytes) :
    ring.openToken text aad = .error .unsupportedPrefix ↔ Token.isEncrypted text = false := by
  refine ⟨fun failed => ?_, open_token_of_foreign ring text aad⟩
  cases outcome_of_open_token ring text aad _ failed with
  | foreign plain => exact plain

theorem open_token_malformed_iff (ring : Keyring) (text : String) (aad : Bytes) (fault : TokenFault) :
    ring.openToken text aad = .error (.malformedToken fault) ↔ Token.Malformed text fault := by
  refine ⟨fun failed => ?_, open_token_of_malformed ring text aad fault⟩
  cases outcome_of_open_token ring text aad _ failed with
  | malformed _ bad => exact bad

theorem open_token_unknown_iff (ring : Keyring) (text id : String) (aad : Bytes) :
    ring.openToken text aad = .error (.unknownKeyId id) ↔
      Token.keyIdOf text = some id ∧ id ∉ ring.keys.ids := by
  constructor
  · intro failed
    cases outcome_of_open_token ring text aad _ failed with
    | unknown _ payload names absent => exact ⟨Token.key_id_of_of_names text id payload names, absent⟩
  · intro ⟨named, absent⟩
    obtain ⟨payload, names⟩ := (Token.key_id_of_eq_some_iff text id).mp named
    exact open_token_of_unknown ring text id payload aad names absent

theorem open_token_unread_iff (ring : Keyring) (text payload : String) (aad : Bytes)
    (carried : ring.Carries text payload) :
    ring.openToken text aad = .error .invalidBase64 ↔
      ∀ data, Text.trim payload ≠ Base64.encode data := by
  constructor
  · intro failed
    cases outcome_of_open_token ring text aad _ failed with
    | unread other there differs =>
      obtain rfl := carries_unique ring text other payload there carried
      exact differs
  · intro differs
    have unframed := Token.frame_of_unread payload differs
    exact open_token_of_unframed ring text payload aad carried _ unframed

theorem open_token_short_iff (ring : Keyring) (text payload : String) (aad : Bytes)
    (carried : ring.Carries text payload) :
    ring.openToken text aad = .error .dataTooShort ↔
      ∃ data, Text.trim payload = Base64.encode data ∧ data.length < 28 := by
  constructor
  · intro failed
    cases outcome_of_open_token ring text aad _ failed with
    | short other data there read few =>
      obtain rfl := carries_unique ring text other payload there carried
      exact ⟨data, read, few⟩
  · intro ⟨data, read, few⟩
    have framed := (Token.frame_of_read payload data read).trans (if_pos few)
    exact open_token_of_unframed ring text payload aad carried _ framed

-- What the result of opening a text says of the text, and what the text says of the result.
structure Verdict (ring : Keyring) (text : String) (result : Except CryptoError Bytes) : Prop where
  foreign : result = .error .unsupportedPrefix ↔ Token.isEncrypted text = false
  malformed : ∀ fault, result = .error (.malformedToken fault) ↔ Token.Malformed text fault
  unnamed : (∃ fault, result = .error (.malformedToken fault)) ↔
    Token.Marked "enc:v2:" text ∧ Token.keyIdOf text = none
  unknown : ∀ id, result = .error (.unknownKeyId id) ↔
    Token.keyIdOf text = some id ∧ id ∉ ring.keys.ids
  unread : ∀ payload, ring.Carries text payload →
    (result = .error .invalidBase64 ↔ ∀ data, Text.trim payload ≠ Base64.encode data)
  short : ∀ payload, ring.Carries text payload →
    (result = .error .dataTooShort ↔
      ∃ data, Text.trim payload = Base64.encode data ∧ data.length < 28)
  long : ∀ payload data, ring.Carries text payload → Text.trim payload = Base64.encode data →
    28 ≤ data.length → Sealed.OpensTo data result
  outcome : ring.Outcome text result

theorem verdict_open_token (ring : Keyring) (text : String) (aad : Bytes) :
    ring.Verdict text (ring.openToken text aad) where
  foreign := open_token_foreign_iff ring text aad
  malformed := open_token_malformed_iff ring text aad
  unnamed := by
    simp only [open_token_malformed_iff]
    exact Token.exists_malformed_iff text
  unknown id := open_token_unknown_iff ring text id aad
  unread payload := open_token_unread_iff ring text payload aad
  short payload := open_token_short_iff ring text payload aad
  long payload data carried read long := by
    have framed := (Token.frame_of_read payload data read).trans (if_neg (Nat.not_lt.mpr long))
    exact open_token_opens_to ring text payload aad data carried framed long
  outcome := outcome_open_token ring text aad

/-- A text is a token by its mark, and names the key before the first colon after it. By this grammar
and the keys of the ring alone each error of decrypting has its texts, in the order in which they are
looked for: the mark, the key id, the key, the payload, its length. Whatever passes them all opens to
a plaintext that is 28 bytes shorter, or fails to be decrypted. -/
theorem decrypt_bytes_verdict (ring : Keyring) (text : String) (aad : Bytes) (host : Host) :
    (Token.isEncrypted text = true ↔ Token.Marked "enc:v1:" text ∨ Token.Marked "enc:v2:" text) ∧
      (∀ id, Token.keyIdOf text = some id ↔ ∃ payload, Token.Names text id payload) ∧
      (∀ id other payload otherPayload, Token.Names text id payload →
        Token.Names text other otherPayload → id = other ∧ payload = otherPayload) ∧
      ring.Verdict text (ring.decryptBytes text aad host).1 := by
  rw [decrypt_bytes_fst]
  exact ⟨Token.is_encrypted_iff text, Token.key_id_of_eq_some_iff text,
    fun id other payload otherPayload => Token.names_unique text id other payload otherPayload,
    verdict_open_token ring text aad⟩

-- A payload of three bytes, and a legacy token that another key of the ring has sealed.
theorem decrypt_bytes_verdict_short :
    Token.Names "enc:v2:k1:AAAA" "k1" "AAAA" ∧ secondRing.Carries "enc:v2:k1:AAAA" "AAAA" ∧
      (∀ id payload, Token.Names "enc:v2:k1:AAAA" id payload → "k1" = id ∧ "AAAA" = payload) ∧
      (secondRing.decryptBytes "enc:v2:k1:AAAA" [1] scarceHost).1 = .error .dataTooShort ∧
      ∃ data, Text.trim legacyPayload = Base64.encode data ∧ 28 ≤ data.length ∧
        secondRing.Carries ("enc:v1:" ++ legacyPayload) legacyPayload ∧
        Sealed.OpensTo data
          (secondRing.decryptBytes ("enc:v1:" ++ legacyPayload) [1] scarceHost).1 := by
  have names : Token.Names "enc:v2:k1:AAAA" "k1" "AAAA" := ⟨by decide, rfl⟩
  have carried : secondRing.Carries "enc:v2:k1:AAAA" "AAAA" := .inr ⟨"k1", by decide, names⟩
  obtain ⟨-, -, unique, cut⟩ := decrypt_bytes_verdict secondRing "enc:v2:k1:AAAA" [1] scarceHost
  have short := (cut.short "AAAA" carried).mpr ⟨[0, 0, 0], by decide, by decide⟩
  obtain ⟨-, -, -, whole⟩ :=
    decrypt_bytes_verdict secondRing ("enc:v1:" ++ legacyPayload) [1] scarceHost
  have read := (Base64.decode?_eq_some_iff legacyPayload _).mp (Base64.decode?_encode _)
  have long := Nat.not_lt.mp
    (Sealed.not_short_framed firstRing.activeKey (Sized.zero 12) (Utf8.encode "pass") [])
  have legacy : secondRing.Carries ("enc:v1:" ++ legacyPayload) legacyPayload := .inl rfl
  exact ⟨names, carried, fun id payload => unique "k1" id "AAAA" payload names, short, _, read, long,
    legacy, whole.long legacyPayload _ legacy read long⟩

end Keyring

end Envelope
