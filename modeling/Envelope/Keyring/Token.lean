import Envelope.Keyring.Basic
import Envelope.Sealed
import Envelope.Text.Cut
import Envelope.Text.Utf8

set_option autoImplicit false

namespace Envelope

inductive Token where
  | legacy (payload : String)
  | named (keyId payload : String)
deriving DecidableEq, Repr

namespace Token

def namedMark : List Char := ['e', 'n', 'c', ':', 'v', '2', ':']

def legacyMark : List Char := ['e', 'n', 'c', ':', 'v', '1', ':']

def ofNamed (rest : List Char) : Except CryptoError Token :=
  match Text.cutAt? ':' rest with
  | none => .error (.malformedToken .noDelimiter)
  | some (keyId, payload) =>
    if keyId.isEmpty then .error (.malformedToken .emptyKeyId)
    else .ok (.named (String.ofList keyId) (String.ofList payload))

def parse (text : String) : Except CryptoError Token :=
  match Text.after? namedMark text.toList with
  | some rest => ofNamed rest
  | none =>
    match Text.after? legacyMark text.toList with
    | some payload => .ok (.legacy (String.ofList payload))
    | none => .error .unsupportedPrefix

theorem of_named_eq_ok_iff (rest : List Char) (token : Token) :
    ofNamed rest = .ok token ↔ ∃ keyId payload : String, token = .named keyId payload ∧
      rest = keyId.toList ++ ':' :: payload.toList ∧ IsKeyId keyId := by
  unfold ofNamed
  constructor
  · intro h
    split at h
    · cases h
    · rename_i front payload found
      obtain ⟨eq, noColon⟩ := (Text.cut_at?_eq_some_iff ':' rest front payload).mp found
      split at h
      · cases h
      · rename_i someFront
        cases h
        refine ⟨_, _, rfl, by simpa using eq, fun empty => someFront ?_, by simpa using noColon⟩
        have nil : front = [] := by simpa using congrArg String.toList empty
        rw [nil]
        rfl
  · rintro ⟨keyId, payload, rfl, rfl, someKey, noColon⟩
    have found := (Text.cut_at?_eq_some_iff ':' (keyId.toList ++ ':' :: payload.toList)
      keyId.toList payload.toList).mpr ⟨rfl, noColon⟩
    have someChars : keyId.toList ≠ [] := fun nil => someKey (by simpa using nil)
    simp [found, someChars]

def text : Token → String
  | .legacy payload => String.ofList (legacyMark ++ payload.toList)
  | .named keyId payload => String.ofList (namedMark ++ keyId.toList ++ ':' :: payload.toList)

def isEncrypted (text : String) : Bool :=
  (Text.after? namedMark text.toList).isSome || (Text.after? legacyMark text.toList).isSome

def keyIdOf (text : String) : Option String :=
  match parse text with
  | .ok (.named keyId _) => some keyId
  | _ => none

def isLegacy (text : String) : Bool :=
  match parse text with
  | .ok (.legacy _) => true
  | _ => false

theorem parse_text_named (keyId payload : String) (valid : IsKeyId keyId) :
    parse (Token.named keyId payload).text = .ok (.named keyId payload) := by
  simp only [parse, text, String.toList_ofList, List.append_assoc, Text.after?_append]
  exact (of_named_eq_ok_iff _ _).mpr ⟨keyId, payload, rfl, rfl, valid⟩

theorem parse_text_legacy (payload : String) :
    parse (Token.legacy payload).text = .ok (.legacy payload) := by
  have other : Text.after? namedMark (legacyMark ++ payload.toList) = none := rfl
  simp only [parse, text, String.toList_ofList, other, Text.after?_append, String.ofList_toList]

def frame (payload : String) : Except CryptoError Bytes :=
  match Base64.decode? payload with
  | none => .error .invalidBase64
  | some data =>
    if data.length < Sealed.nonceLength + Gcm.tagLength then .error .dataTooShort else .ok data

end Token

namespace Keyring

-- A key that the ring lacks is found before a bad payload.
def openPayload (ring : Keyring) (keyId payload : String) (aad : Bytes) :
    Except CryptoError Bytes := do
  let key ← ring.key keyId
  let data ← Token.frame payload
  Sealed.openFramed key data aad

def openWithAny? (ring : Keyring) (data : Bytes) : Option Bytes :=
  ring.keys.entries.findSome? fun entry => (Sealed.openFramed entry.2 data []).toOption

def openLegacy (ring : Keyring) (payload : String) : Except CryptoError Bytes := do
  let data ← Token.frame payload
  match ring.openWithAny? data with
  | some plaintext => .ok plaintext
  | none => .error .decryptionFailed

def openToken (ring : Keyring) (text : String) (aad : Bytes) : Except CryptoError Bytes := do
  match ← Token.parse text with
  | .named keyId payload => ring.openPayload keyId payload aad
  | .legacy payload => ring.openLegacy payload

def encryptBytes (ring : Keyring) (plaintext aad : Bytes) : Action CryptoError String := do
  let sealed ← Sealed.make ring.activeKey plaintext aad
  pure (Token.named ring.active (Base64.encode sealed.framed)).text

def encrypt (ring : Keyring) (plaintext : String) (aad : Bytes) : Action CryptoError String :=
  ring.encryptBytes (Utf8.encode plaintext) aad

def decryptBytes (ring : Keyring) (text : String) (aad : Bytes) : Action CryptoError Bytes := do
  let plaintext ← Action.ofExcept (ring.openToken text aad)
  if Token.isLegacy text then
    Action.report ⟨.debug, "decrypted legacy v1 token", []⟩
  pure plaintext

-- A plaintext that is not UTF-8 is no text that was encrypted.
def decrypt (ring : Keyring) (text : String) (aad : Bytes) : Action CryptoError String := do
  let plaintext ← ring.decryptBytes text aad
  match Utf8.decode? plaintext with
  | some text => pure text
  | none => Action.ofExcept (.error .decryptionFailed)

-- Opens a token in any case, and seals it anew unless it is under the active key.
def reencrypt (ring : Keyring) (text : String) (aad : Bytes) : Action CryptoError String := do
  let plaintext ← ring.decryptBytes text aad
  if Token.keyIdOf text = some ring.active then pure text
  else ring.encryptBytes plaintext aad

end Keyring

end Envelope
