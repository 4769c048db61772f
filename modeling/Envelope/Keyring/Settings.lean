import Envelope.Json.Fields
import Envelope.Keyring.Basic

set_option autoImplicit false

namespace Envelope

structure KeyringSettings where
  masterKey : Option String
  keyring : Option (Table String)
  activeKeyId : Option String
deriving DecidableEq, Repr

namespace KeyringSettings

def masterKeyVariable : String := "DPP_ENCRYPTION_MASTER_KEY"
def keyringVariable : String := "DPP_ENCRYPTION_KEYRING"
def activeKeyIdVariable : String := "DPP_ENCRYPTION_ACTIVE_KEY_ID"

def setting? (lookup : String → Option String) (name : String) : Option String :=
  (lookup name).filter fun text => !Text.isBlankText text

def ofLookup (lookup : String → Option String) : Except CryptoError KeyringSettings :=
  let masterKey := (setting? lookup masterKeyVariable).map Text.trim
  let activeKeyId := (setting? lookup activeKeyIdVariable).map Text.trim
  match setting? lookup keyringVariable with
  | none => .ok ⟨masterKey, none, activeKeyId⟩
  | some text =>
    match (Json.Raw.parse? text).bind Json.Raw.textMap? with
    | some keyring => .ok ⟨masterKey, some keyring, activeKeyId⟩
    | none => .error (.keyring (.notStrings keyringVariable))

def ofRaw? (raw : Json.Raw) : Option KeyringSettings := do
  let fields ← raw.fields? ["master_key", "keyring", "active_key_id"] true
  let masterKey ← Json.Raw.optional? Json.Raw.text? (Table.get? fields "master_key")
  let keyring ← Json.Raw.optional? Json.Raw.textMap? (Table.get? fields "keyring")
  let activeKeyId ← Json.Raw.optional? Json.Raw.text? (Table.get? fields "active_key_id")
  pure ⟨masterKey, keyring, activeKeyId⟩

def parse? (text : String) : Option KeyringSettings :=
  (Json.Raw.parse? text).bind ofRaw?

def someText (inner : Option String) : String :=
  match inner with
  | some text => "Some(" ++ text ++ ")"
  | none => "None"

def summary (config : KeyringSettings) : String :=
  "KeyringConfig \x7b master_key: " ++
    someText (config.masterKey.map fun _ => Text.quoted "[REDACTED]") ++ ", keyring: " ++
    someText (config.keyring.map fun keyring => Text.quotedList (Table.keys keyring)) ++
    ", active_key_id: " ++ someText (config.activeKeyId.map Text.quoted) ++ " \x7d"

end KeyringSettings

namespace Keyring

def requestOf (config : KeyringSettings) : Except KeyringError (List (String × String) × String) :=
  match config.keyring, config.masterKey with
  | some keyring, _ => .ok (keyring, config.activeKeyId.getD defaultId)
  | none, some masterKey => .ok ([(defaultId, masterKey)], defaultId)
  | none, none => .error .unconfigured

def loadSettings (config : KeyringSettings) : Action CryptoError Keyring :=
  match requestOf config with
  | .ok request => load request.1 request.2
  | .error cause => Action.ofExcept (.error (.keyring cause))

end Keyring

end Envelope
