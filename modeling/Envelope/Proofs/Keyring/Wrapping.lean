import Envelope.Keyring.Wrap
import Envelope.Proofs.Base64
import Envelope.Proofs.Sealed

set_option autoImplicit false

namespace Envelope

theorem Token.frame_framed (key : Gcm.Key) (nonce : Gcm.Nonce) (plaintext aad : Bytes) :
    frame (Base64.encode (nonce.val ++ Gcm.sealed key nonce plaintext aad)) =
      .ok (nonce.val ++ Gcm.sealed key nonce plaintext aad) := by
  simp only [frame, Base64.decode?_encode, if_neg (Sealed.not_short_framed key nonce plaintext aad)]

theorem Dek.of_bytes_bytes (dek : Dek) : Dek.ofBytes dek.bytes = .ok dek := by
  simp only [Dek.ofBytes, Dek.bytes, Sized.of_bytes?_val]

namespace Keyring

def ofKey (key : Gcm.Key) : Keyring where
  keys := KeyTable.empty.place defaultId key (by decide)
  active := defaultId
  active_mem := List.mem_cons_self

def wrappedWith (ring : Keyring) (dek : Dek) (nonce : Gcm.Nonce) : WrappedDek :=
  ⟨Base64.encode (nonce.val ++ Gcm.sealed ring.activeKey nonce dek.bytes wrapAad), ring.active,
    WrappedDek.supportedAlgorithm⟩

theorem sealable_dek (dek : Dek) : Gcm.Sealable dek.bytes wrapAad := by
  refine ⟨?_, by decide⟩
  rw [Dek.bytes, dek.key.property]
  decide

theorem wrap_of_holds (ring : Keyring) (dek : Dek) (host : Host)
    (enough : host.entropy.Holds 12) :
    ring.wrap dek host =
      (.ok (ring.wrappedWith dek (host.entropy.next 12)),
        { host with entropy := host.entropy.advance 12 }) := by
  simp only [wrap, Action.bind_apply, Sealed.make_of_holds _ _ _ host enough (sealable_dek dek),
    Action.pure_apply]
  rfl

theorem wrap_of_not_holds (ring : Keyring) (dek : Dek) (host : Host)
    (short : ¬ host.entropy.Holds 12) : ring.wrap dek host = (.error .entropyExhausted, host) := by
  simp only [wrap, Action.bind_apply, Sealed.make_of_not_holds _ _ _ host short]

-- A ring that holds the active key of another under the same id.
def Keeps (keeper ring : Keyring) : Prop :=
  keeper.keys.get? ring.active = some ring.activeKey

theorem keeps_self (ring : Keyring) : ring.Keeps ring := (Option.some_get _).symm

theorem open_payload_framed (keeper ring : Keyring) (keeps : keeper.Keeps ring) (nonce : Gcm.Nonce)
    (plaintext aad : Bytes) (fits : Gcm.Sealable plaintext aad) :
    keeper.openPayload ring.active
        (Base64.encode (nonce.val ++ Gcm.sealed ring.activeKey nonce plaintext aad)) aad =
      .ok plaintext := by
  have held : keeper.key ring.active = .ok ring.activeKey := by
    rw [Keeps] at keeps
    simp only [key, keeps]
  simp only [openPayload, held, Token.frame_framed]
  exact Sealed.open_framed_framed ring.activeKey nonce plaintext aad
    (Gcm.openable_of_sealable plaintext aad fits)

theorem unwrap_of_keeps (keeper ring : Keyring) (keeps : keeper.Keeps ring) (dek : Dek)
    (nonce : Gcm.Nonce) : keeper.unwrap (ring.wrappedWith dek nonce) = .ok dek := by
  simp only [unwrap, wrappedWith, if_pos,
    open_payload_framed keeper ring keeps nonce dek.bytes wrapAad (sealable_dek dek)]
  exact Dek.of_bytes_bytes dek

theorem unwrap_wrapped_with (ring : Keyring) (dek : Dek) (nonce : Gcm.Nonce) :
    ring.unwrap (ring.wrappedWith dek nonce) = .ok dek :=
  unwrap_of_keeps ring ring ring.keeps_self dek nonce

end Keyring

-- A wrapped key that names the active key of a ring, whatever its payload holds.
abbrev WrappedDek.NamesActive (ring : Keyring) (w : WrappedDek) : Prop :=
  w.kekId = ring.active ∧ w.algorithm = supportedAlgorithm

namespace Keyring

theorem rewrap_of_named (ring : Keyring) (w : WrappedDek) (host : Host)
    (named : w.NamesActive ring) : ring.rewrap w host = (.ok w, host) := by
  rw [rewrap, if_pos named, Action.pure_apply]

theorem rewrap_of_failed (ring : Keyring) (w : WrappedDek) (host : Host) (cause : CryptoError)
    (unnamed : ¬ w.NamesActive ring) (failed : ring.unwrap w = .error cause) :
    ring.rewrap w host = (.error cause, host) := by
  rw [rewrap, if_neg unnamed, Action.bind_apply, failed]
  rfl

theorem rewrap_of_unwrapped (ring : Keyring) (w : WrappedDek) (host : Host) (dek : Dek)
    (unnamed : ¬ w.NamesActive ring) (unwrapped : ring.unwrap w = .ok dek) :
    ring.rewrap w host = ring.wrap dek host := by
  rw [rewrap, if_neg unnamed, Action.bind_apply, unwrapped]
  rfl

end Keyring

end Envelope
