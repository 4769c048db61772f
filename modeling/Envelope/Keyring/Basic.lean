import Envelope.Action
import Envelope.Bytes.Base64
import Envelope.Cipher.Gcm
import Envelope.Table

set_option autoImplicit false

namespace Envelope

def IsKeyId (id : String) : Prop :=
  id ≠ "" ∧ ':' ∉ id.toList

instance (id : String) : Decidable (IsKeyId id) :=
  inferInstanceAs (Decidable (_ ∧ _))

structure KeyTable where
  entries : Table Gcm.Key
  ascending : Table.Ascending entries
  valid : ∀ id ∈ Table.keys entries, IsKeyId id

namespace KeyTable

def empty : KeyTable where
  entries := []
  ascending := List.Pairwise.nil
  valid := by simp [Table.keys]

def ids (keys : KeyTable) : List String :=
  Table.keys keys.entries

def get? (keys : KeyTable) (id : String) : Option Gcm.Key :=
  Table.get? keys.entries id

def place (keys : KeyTable) (id : String) (key : Gcm.Key) (valid : IsKeyId id) : KeyTable where
  entries := Table.place keys.entries id key
  ascending := Table.ascending_place keys.entries id key keys.ascending
  valid other member := by
    rcases (Table.mem_keys_place keys.entries id other key).mp member with rfl | old
    · exact valid
    · exact keys.valid other old

theorem get?_is_some_iff (keys : KeyTable) (id : String) : (keys.get? id).isSome ↔ id ∈ keys.ids :=
  Table.get?_is_some_iff keys.entries id

theorem get?_place (keys : KeyTable) (id other : String) (key : Gcm.Key) (valid : IsKeyId id) :
    (keys.place id key valid).get? other = if id = other then some key else keys.get? other :=
  Table.get?_place keys.entries id other key

end KeyTable

def keyOfText (id text : String) : Except KeyringError Gcm.Key :=
  match Base64.decode? text with
  | none => .error (.keyNotBase64 id)
  | some bytes =>
    match Sized.ofBytes? 32 bytes with
    | none => .error (.keyLength id bytes.length)
    | some key => .ok key

def KeyTable.addAll (keys : KeyTable) : List (String × String) → Except KeyringError KeyTable
  | [] => .ok keys
  | (id, text) :: rest =>
    if valid : IsKeyId id then
      match keyOfText id text with
      | .ok key => addAll (keys.place id key valid) rest
      | .error cause => .error cause
    else .error (.invalidId id)

structure Keyring where
  keys : KeyTable
  active : String
  active_mem : active ∈ keys.ids

namespace Keyring

def defaultId : String := "default"

def ofKeys (keys : KeyTable) (requested : String) : Except KeyringError Keyring :=
  if present : requested ∈ keys.ids then .ok ⟨keys, requested, present⟩
  else
    match first : keys.ids with
    | [] => .error .empty
    | id :: _ => .ok ⟨keys, id, first ▸ List.mem_cons_self⟩

def ofEntries (entries : List (String × String)) (requested : String) :
    Except KeyringError Keyring :=
  match KeyTable.empty.addAll entries with
  | .ok keys => ofKeys keys requested
  | .error cause => .error cause

def loadEvents (ring : Keyring) (requested : String) : List Event :=
  (if ring.active = requested then []
   else [⟨.warn, "active key id not in keyring, falling back to first entry",
     [("requested", requested), ("substituted", ring.active)]⟩]) ++
  [⟨.debug, "keyring loaded",
    [("keys", toString ring.keys.ids.length), ("active", ring.active)]⟩]

def load (entries : List (String × String)) (requested : String) : Action CryptoError Keyring :=
  fun host =>
    match ofEntries entries requested with
    | .ok ring => (.ok ring, { host with events := host.events ++ ring.loadEvents requested })
    | .error cause => (.error (.keyring cause), host)

def loadMasterKey (text : String) : Action CryptoError Keyring :=
  load [(defaultId, text)] defaultId

def key (ring : Keyring) (id : String) : Except CryptoError Gcm.Key :=
  match ring.keys.get? id with
  | some key => .ok key
  | none => .error (.unknownKeyId id)

def activeKey (ring : Keyring) : Gcm.Key :=
  (ring.keys.get? ring.active).get ((ring.keys.get?_is_some_iff ring.active).mpr ring.active_mem)

theorem is_key_id_active (ring : Keyring) : IsKeyId ring.active :=
  ring.keys.valid ring.active ring.active_mem

def summary (ring : Keyring) : String :=
  "KeyringEncryptor \x7b key_ids: " ++ Text.quotedList ring.keys.ids ++ ", active_key_id: " ++
    Text.quoted ring.active ++ " \x7d"

end Keyring

end Envelope
