import Envelope.Text.Quoted

set_option autoImplicit false

namespace Envelope

inductive KeyringError where
  | empty
  | unconfigured
  | invalidId (id : String)
  | keyNotBase64 (id : String)
  | keyLength (id : String) (got : Nat)
  | notStrings (setting : String)
deriving DecidableEq, Repr

def KeyringError.message : KeyringError → String
  | .empty => "keyring is empty"
  | .unconfigured => "no master key or keyring configured"
  | .invalidId id => "invalid key id " ++ Text.quoted id ++ ": must be non-empty and contain no ':'"
  | .keyNotBase64 id => "key " ++ Text.quoted id ++ " is not valid base64"
  | .keyLength id got => "key " ++ Text.quoted id ++ " must be 32 bytes, got " ++ toString got
  | .notStrings setting => setting ++ " is not a JSON object of strings"

inductive TokenFault where
  | noDelimiter
  | emptyKeyId
deriving DecidableEq, Repr

def TokenFault.message : TokenFault → String
  | .noDelimiter => "missing key-id delimiter"
  | .emptyKeyId => "empty key-id"

-- Every failure to open a ciphertext is `decryptionFailed`, whatever its cause.
inductive CryptoError where
  | keyring (cause : KeyringError)
  | invalidBase64
  | keyLength (got : Nat)
  | dekLength (got : Nat)
  | nonceLength (got : Nat)
  | unknownKeyId (id : String)
  | malformedToken (fault : TokenFault)
  | dataTooShort
  | unsupportedPrefix
  | unsupportedWrapAlgorithm (algorithm : String)
  | encryptionFailed
  | decryptionFailed
  | entropyExhausted
deriving DecidableEq, Repr

def CryptoError.message : CryptoError → String
  | .keyring cause => "Keyring configuration error: " ++ cause.message
  | .invalidBase64 => "Invalid base64 payload"
  | .keyLength got => "Invalid key length: expected 32 bytes, got " ++ toString got
  | .dekLength got => "Invalid DEK length: expected 32 bytes, got " ++ toString got
  | .nonceLength got => "Invalid nonce length: expected 12 bytes, got " ++ toString got
  | .unknownKeyId id => "Unknown key id: " ++ id
  | .malformedToken fault => "Malformed token: " ++ fault.message
  | .dataTooShort => "Encrypted data too short"
  | .unsupportedPrefix => "Unsupported token prefix"
  | .unsupportedWrapAlgorithm algorithm => "Unsupported DEK wrap algorithm: " ++ algorithm
  | .encryptionFailed => "Encryption failed"
  | .decryptionFailed => "Decryption failed: key mismatch, AAD mismatch, or corrupted ciphertext"
  | .entropyExhausted => "Random number generation failed: entropy exhausted"

inductive FieldError where
  | missingDek
  | missingRow (ref : String)
  | hashMismatch (ref : String)
  | unsupportedAlgorithm (algorithm : String)
  | notJson
  | crypto (cause : CryptoError)
deriving DecidableEq, Repr

def FieldError.message : FieldError → String
  | .missingDek => "Missing wrapped DEK or KEK id for a document with encrypted fields"
  | .missingRow ref => "No encrypted field row for reference " ++ ref
  | .hashMismatch ref => "Encrypted field hash mismatch for reference " ++ ref
  | .unsupportedAlgorithm algorithm => "Unsupported field algorithm: " ++ algorithm
  | .notJson => "Serialization error: the plaintext is not JSON"
  | .crypto cause => cause.message

end Envelope
