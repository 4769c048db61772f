import Envelope.Aad
import Envelope.Action
import Envelope.Bytes.Base64
import Envelope.Bytes.Basic
import Envelope.Bytes.Hex
import Envelope.Cipher.Aes
import Envelope.Cipher.Gcm
import Envelope.Cipher.Ghash
import Envelope.Cipher.Sha256
import Envelope.Decimal.Binary64
import Envelope.Decimal.Layout
import Envelope.Decimal.Shortest
import Envelope.Dek
import Envelope.Entropy
import Envelope.Error
import Envelope.Event
import Envelope.Field.Marker
import Envelope.Field.Prepared
import Envelope.Field.Record
import Envelope.Field.Resolved
import Envelope.Field.Tag
import Envelope.Json.Basic
import Envelope.Json.Edit
import Envelope.Json.Fields
import Envelope.Json.Parser
import Envelope.Json.Pointer
import Envelope.Json.Printer
import Envelope.Json.Raw
import Envelope.Json.Walk
import Envelope.Keyring.Basic
import Envelope.Keyring.Secrets
import Envelope.Keyring.Settings
import Envelope.Keyring.Token
import Envelope.Keyring.Wrap
import Envelope.Proofs.Base64
import Envelope.Proofs.Entropy
import Envelope.Proofs.Field.Binding
import Envelope.Proofs.Field.Hiding
import Envelope.Proofs.Field.Idempotence
import Envelope.Proofs.Field.Marking
import Envelope.Proofs.Field.Outermost
import Envelope.Proofs.Field.Preparing
import Envelope.Proofs.Field.Recovery
import Envelope.Proofs.Field.Relocation
import Envelope.Proofs.Field.Reordering
import Envelope.Proofs.Field.Resolving
import Envelope.Proofs.Field.Rotation
import Envelope.Proofs.Field.RoundTrip
import Envelope.Proofs.Field.Sealing
import Envelope.Proofs.Field.Secrecy
import Envelope.Proofs.Field.Sites
import Envelope.Proofs.Field.Storage
import Envelope.Proofs.Field.Tagged
import Envelope.Proofs.Field.Tenants
import Envelope.Proofs.Ghash
import Envelope.Proofs.Json.Canonical
import Envelope.Proofs.Json.Edit
import Envelope.Proofs.Json.Fields
import Envelope.Proofs.Json.Insertion
import Envelope.Proofs.Json.Numbers
import Envelope.Proofs.Json.Order
import Envelope.Proofs.Json.Place
import Envelope.Proofs.Json.Pointer
import Envelope.Proofs.Json.Reading
import Envelope.Proofs.Json.Rewrite
import Envelope.Proofs.Json.Strings
import Envelope.Proofs.Json.TextMap
import Envelope.Proofs.Json.Tree
import Envelope.Proofs.Json.Visits
import Envelope.Proofs.Json.Walk
import Envelope.Proofs.Keyring.Construction
import Envelope.Proofs.Keyring.Grammar
import Envelope.Proofs.Keyring.Locality
import Envelope.Proofs.Keyring.Redaction
import Envelope.Proofs.Keyring.Renewal
import Envelope.Proofs.Keyring.Rotation
import Envelope.Proofs.Keyring.Secrets
import Envelope.Proofs.Keyring.Settings
import Envelope.Proofs.Keyring.Tokens
import Envelope.Proofs.Keyring.Wrapping
import Envelope.Proofs.Sealed
import Envelope.Proofs.Table
import Envelope.Proofs.Text
import Envelope.Sealed
import Envelope.Table
import Envelope.Text.Blank
import Envelope.Text.Case
import Envelope.Text.Cut
import Envelope.Text.Printable
import Envelope.Text.Quoted
import Envelope.Text.Utf8
import Envelope.Time.Date
import Envelope.Time.Timestamp
import Envelope.Uuid
