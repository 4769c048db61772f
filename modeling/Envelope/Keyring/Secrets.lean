import Envelope.Aad
import Envelope.Json.Basic
import Envelope.Keyring.Token

set_option autoImplicit false

namespace Envelope.Keyring

def secretFields : List String := ["client_secret", "token"]

def fieldAad (field : String) : Bytes :=
  Utf8.encode (Aad.ofConfigField field)

def plainSecret? (config : Table Json) (field : String) : Option String :=
  ((Table.get? config field).bind Json.text?).filter fun text =>
    text ≠ "" && !Token.isEncrypted text

def sealedSecret? (config : Table Json) (field : String) : Option String :=
  ((Table.get? config field).bind Json.text?).filter Token.isEncrypted

def encryptField (ring : Keyring) (config : Table Json) (field : String) :
    Action CryptoError (Table Json) :=
  match plainSecret? config field with
  | none => pure config
  | some text => do
    let token ← ring.encrypt text (fieldAad field)
    pure (Table.put config field (.str token))

def decryptField (ring : Keyring) (config : Table Json) (field : String) :
    Action CryptoError (Table Json) :=
  match sealedSecret? config field with
  | none => pure config
  | some token => do
    let text ← ring.decrypt token (fieldAad field)
    pure (Table.put config field (.str text))

def encryptSecrets (ring : Keyring) (config : Table Json) : Action CryptoError (Table Json) :=
  secretFields.foldlM ring.encryptField config

def decryptSecrets (ring : Keyring) (config : Table Json) : Action CryptoError (Table Json) :=
  secretFields.foldlM ring.decryptField config

end Envelope.Keyring
