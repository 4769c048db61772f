import Envelope.Aad
import Envelope.Dek
import Envelope.Keyring.Token

set_option autoImplicit false

namespace Envelope.Keyring

def wrapAad : Bytes :=
  Utf8.encode Aad.ofWrappedDek

def wrap (ring : Keyring) (dek : Dek) : Action CryptoError WrappedDek := do
  let sealed ← Sealed.make ring.activeKey dek.bytes wrapAad
  pure ⟨Base64.encode sealed.framed, ring.active, WrappedDek.supportedAlgorithm⟩

def wrapBytes (ring : Keyring) (bytes : Bytes) : Action CryptoError WrappedDek := do
  let dek ← Action.ofExcept (Dek.ofBytes bytes)
  ring.wrap dek

-- The algorithm is looked at first, then the key id, then the payload.
def unwrap (ring : Keyring) (w : WrappedDek) : Except CryptoError Dek :=
  if w.algorithm = WrappedDek.supportedAlgorithm then do
    let bytes ← ring.openPayload w.kekId w.wrapped wrapAad
    Dek.ofBytes bytes
  else .error (.unsupportedWrapAlgorithm w.algorithm)

def rewrap (ring : Keyring) (w : WrappedDek) : Action CryptoError WrappedDek :=
  if w.kekId = ring.active ∧ w.algorithm = WrappedDek.supportedAlgorithm then pure w
  else do
    let dek ← Action.ofExcept (ring.unwrap w)
    ring.wrap dek

end Envelope.Keyring
