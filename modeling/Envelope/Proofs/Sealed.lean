import Envelope.Dek
import Envelope.Proofs.Entropy

set_option autoImplicit false

namespace Envelope

namespace Entropy

theorem bytes_from_get_d (bytes : Bytes) (start n : Nat) (within : start + n ≤ bytes.length) :
    bytesFrom (fun i => bytes.getD i 0) start n = (bytes.drop start).take n := by
  induction n generalizing start with
  | zero => rfl
  | succ n ih =>
    have inside : start < bytes.length := by omega
    rw [bytesFrom, ih (start + 1) (by omega), List.drop_eq_getElem_cons inside, List.take_succ_cons,
      List.getD_eq_getElem?_getD, List.getElem?_eq_getElem inside, Option.getD_some]

end Entropy

def Host.Draws (host : Host) (nonce : Bytes) : Prop :=
  host.entropy.Holds 12 ∧ (host.entropy.next 12).val = nonce

def Host.ofNonce (nonce : Gcm.Nonce) : Host :=
  ⟨⟨fun i => nonce.val.getD i 0, 0, some 12⟩, .epoch, []⟩

theorem Host.draws_of_nonce (nonce : Gcm.Nonce) : (ofNonce nonce).Draws nonce.val := by
  have length : nonce.val.length = 12 := nonce.property
  refine ⟨fun limit given => ?_, ?_⟩
  · rw [← Option.some.inj given]
    exact Nat.le_refl 12
  · change Entropy.bytesFrom (fun i => nonce.val.getD i 0) 0 12 = nonce.val
    rw [Entropy.bytes_from_get_d nonce.val 0 12 (by omega), List.drop_zero,
      List.take_of_length_le (Nat.le_of_eq length)]

namespace Sealed

theorem make_of_holds (key : Gcm.Key) (plaintext aad : Bytes) (host : Host)
    (enough : host.entropy.Holds 12) (fits : Gcm.Sealable plaintext aad) :
    make key plaintext aad host =
      (.ok ⟨host.entropy.next 12, Gcm.sealed key (host.entropy.next 12) plaintext aad⟩,
        { host with entropy := host.entropy.advance 12 }) := by
  simp only [make, Action.bind_apply, Action.draw_of_holds 12 host enough, Gcm.sealed?, if_pos fits,
    Action.pure_apply]

theorem make_of_not_sealable (key : Gcm.Key) (plaintext aad : Bytes) (host : Host)
    (enough : host.entropy.Holds 12) (large : ¬ Gcm.Sealable plaintext aad) :
    make key plaintext aad host =
      (.error .encryptionFailed, { host with entropy := host.entropy.advance 12 }) := by
  simp only [make, Action.bind_apply, Action.draw_of_holds 12 host enough, Gcm.sealed?, if_neg large,
    Action.ofExcept]

theorem make_of_not_holds (key : Gcm.Key) (plaintext aad : Bytes) (host : Host)
    (short : ¬ host.entropy.Holds 12) :
    make key plaintext aad host = (.error .entropyExhausted, host) := by
  simp only [make, Action.bind_apply, Action.draw_of_not_holds 12 host short]

theorem holds_of_make (key : Gcm.Key) (plaintext aad : Bytes) (host after : Host) (sealed : Sealed)
    (made : make key plaintext aad host = (.ok sealed, after)) :
    host.entropy.Holds 12 ∧ Gcm.Sealable plaintext aad := by
  by_cases enough : host.entropy.Holds 12
  · by_cases fits : Gcm.Sealable plaintext aad
    · exact ⟨enough, fits⟩
    · rw [make_of_not_sealable key plaintext aad host enough fits] at made
      cases made
  · rw [make_of_not_holds key plaintext aad host enough] at made
    cases made

theorem open_with_sealed (key : Gcm.Key) (nonce : Gcm.Nonce) (plaintext aad : Bytes)
    (fits : Gcm.Openable plaintext aad) :
    openWith key nonce.val (Gcm.sealed key nonce plaintext aad) aad = .ok plaintext := by
  have long : ¬ (Gcm.sealed key nonce plaintext aad).length < Gcm.tagLength := by
    rw [Gcm.length_sealed]
    omega
  simp only [openWith, Sized.of_bytes?_val, if_neg long, Gcm.opened?_sealed key nonce plaintext aad fits]

theorem not_short_framed (key : Gcm.Key) (nonce : Gcm.Nonce) (plaintext aad : Bytes) :
    ¬ (nonce.val ++ Gcm.sealed key nonce plaintext aad).length < nonceLength + Gcm.tagLength := by
  rw [List.length_append, nonce.property, Gcm.length_sealed, nonceLength]
  omega

theorem open_framed_framed (key : Gcm.Key) (nonce : Gcm.Nonce) (plaintext aad : Bytes)
    (fits : Gcm.Openable plaintext aad) :
    openFramed key (nonce.val ++ Gcm.sealed key nonce plaintext aad) aad = .ok plaintext := by
  have nonceLength : nonce.val.length = 12 := nonce.property
  have front : (nonce.val ++ Gcm.sealed key nonce plaintext aad).take Sealed.nonceLength =
      nonce.val := List.take_left' nonceLength
  have back : (nonce.val ++ Gcm.sealed key nonce plaintext aad).drop Sealed.nonceLength =
      Gcm.sealed key nonce plaintext aad := List.drop_left' nonceLength
  rw [openFramed, if_neg (not_short_framed key nonce plaintext aad), front, back,
    open_with_sealed key nonce plaintext aad fits]

theorem open_with_eq_ok_iff (key : Gcm.Key) (nonce ciphertext aad plaintext : Bytes) :
    openWith key nonce ciphertext aad = .ok plaintext ↔
      ∃ drawn : Gcm.Nonce, drawn.val = nonce ∧ Gcm.Openable plaintext aad ∧
        ciphertext = Gcm.sealed key drawn plaintext aad := by
  constructor
  · intro opens
    unfold openWith at opens
    cases read : Sized.ofBytes? 12 nonce with
    | none =>
      rw [read] at opens
      cases opens
    | some drawn =>
      refine ⟨drawn, (Sized.of_bytes?_eq_some_iff 12 nonce drawn).mp read, ?_⟩
      rw [← Gcm.opened?_eq_some_iff]
      simp only [read] at opens
      by_cases short : ciphertext.length < Gcm.tagLength
      · rw [if_pos short] at opens
        cases opens
      · rw [if_neg short] at opens
        cases opened : Gcm.opened? key drawn ciphertext aad with
        | none =>
          rw [opened] at opens
          cases opens
        | some other =>
          rw [opened] at opens
          cases opens
          rfl
  · rintro ⟨drawn, rfl, fits, rfl⟩
    exact open_with_sealed key drawn plaintext aad fits

theorem open_framed_of_long (key : Gcm.Key) (data aad : Bytes) (long : 28 ≤ data.length) :
    openFramed key data aad = openWith key (data.take 12) (data.drop 12) aad := by
  have notShort : ¬ data.length < nonceLength + Gcm.tagLength := Nat.not_lt.mpr long
  rw [openFramed, if_neg notShort]
  rfl

-- Sealing that draws a nonce, and opening, each of which undoes the other within the cipher's limits.
structure Inverse (sealing : Bytes → Bytes → Action CryptoError Sealed)
    (opening : Bytes → Bytes → Bytes → Except CryptoError Bytes) : Prop where
  opens : ∀ plaintext aad host, host.entropy.Holds 12 → Gcm.Sealable plaintext aad →
    ∃ sealed : Sealed,
      sealing plaintext aad host = (.ok sealed, { host with entropy := host.entropy.advance 12 }) ∧
        sealed.nonce = host.entropy.next 12 ∧
        sealed.ciphertext.length = plaintext.length + 16 ∧
        opening sealed.nonce.val sealed.ciphertext aad = .ok plaintext
  refuses : ∀ plaintext aad host, host.entropy.Holds 12 → ¬ Gcm.Sealable plaintext aad →
    sealing plaintext aad host =
      (.error .encryptionFailed, { host with entropy := host.entropy.advance 12 })
  seals : ∀ nonce ciphertext aad plaintext, opening nonce ciphertext aad = .ok plaintext →
    (∃ host : Host, host.Draws nonce) ∧ (Gcm.Sealable plaintext aad → ∀ host : Host, host.Draws nonce →
      sealing plaintext aad host = (.ok ⟨host.entropy.next 12, ciphertext⟩,
        { host with entropy := host.entropy.advance 12 }))
  single : ∀ nonce ciphertext other aad plaintext,
    opening nonce ciphertext aad = .ok plaintext → opening nonce other aad = .ok plaintext →
      ciphertext = other

theorem inverse (key : Gcm.Key) : Inverse (make key) (openWith key) where
  opens plaintext aad host enough fits :=
    ⟨_, make_of_holds key plaintext aad host enough fits, rfl, Gcm.length_sealed ..,
      open_with_sealed key _ plaintext aad (Gcm.openable_of_sealable plaintext aad fits)⟩
  refuses plaintext aad host enough large := make_of_not_sealable key plaintext aad host enough large
  seals nonce ciphertext aad plaintext opens := by
    obtain ⟨drawn, same, -, made⟩ := (open_with_eq_ok_iff key nonce ciphertext aad plaintext).mp opens
    refine ⟨⟨Host.ofNonce drawn, same ▸ Host.draws_of_nonce drawn⟩, fun fits host draws => ?_⟩
    have nonces : host.entropy.next 12 = drawn := Subtype.ext (draws.2.trans same.symm)
    rw [make_of_holds key plaintext aad host draws.1 fits, nonces, made]
  single nonce ciphertext other aad plaintext opens opensToo := by
    obtain ⟨drawn, same, -, made⟩ := (open_with_eq_ok_iff key nonce ciphertext aad plaintext).mp opens
    obtain ⟨twin, again, -, madeToo⟩ := (open_with_eq_ok_iff key nonce other aad plaintext).mp opensToo
    have nonces : drawn = twin := Subtype.ext (same.trans again.symm)
    rw [made, madeToo, nonces]

/-- Under a key, and under a document key, sealing draws a nonce of 12 bytes and makes 16 bytes more
than the plaintext, and opening gives the plaintext back, from a frame too; what is beyond the cipher's
limits is not sealed. What opens to a plaintext is what sealing that plaintext gives where the nonce is
drawn, and nothing else opens to it. A frame of 28 bytes or more is a nonce of 12 bytes and a
ciphertext. -/
theorem seal_and_open_inverse :
    (∀ key : Gcm.Key, Inverse (make key) (openWith key)) ∧
      (∀ dek : Dek, Inverse dek.sealValue dek.openValue) ∧
      (∀ key plaintext aad host, host.entropy.Holds 12 → Gcm.Sealable plaintext aad →
        ∃ sealed : Sealed,
          make key plaintext aad host =
              (.ok sealed, { host with entropy := host.entropy.advance 12 }) ∧
            sealed.framed = sealed.nonce.val ++ sealed.ciphertext ∧
            openFramed key sealed.framed aad = .ok plaintext) ∧
      ∀ key data aad, 28 ≤ data.length →
        openFramed key data aad = openWith key (data.take 12) (data.drop 12) aad := by
  refine ⟨inverse, fun dek => inverse dek.key, fun key plaintext aad host enough fits => ?_,
    open_framed_of_long⟩
  exact ⟨_, make_of_holds key plaintext aad host enough fits, rfl,
    open_framed_framed key _ plaintext aad (Gcm.openable_of_sealable plaintext aad fits)⟩

-- A key whose bytes count up, a nonce that counts down, and a text that ends within a block.
def countingKey : Gcm.Key :=
  ⟨(List.range 32).map UInt8.ofNat, by decide⟩

def fallingNonce : Gcm.Nonce :=
  ⟨(List.range 12).reverse.map UInt8.ofNat, by decide⟩

def oddText : Bytes :=
  (List.range 21).map UInt8.ofNat

-- One byte more than can be sealed.
def excess : Bytes :=
  List.replicate (Gcm.maxLength + 1) 0

theorem not_length_excess_le : ¬ excess.length ≤ Gcm.maxLength := by
  rw [excess, List.length_replicate]
  exact Nat.not_succ_le_self _

theorem not_sealable_excess (aad : Bytes) : ¬ Gcm.Sealable excess aad :=
  fun fits => not_length_excess_le fits.1

theorem not_sealable_for_excess (plaintext : Bytes) : ¬ Gcm.Sealable plaintext excess :=
  fun fits => not_length_excess_le fits.2

theorem seal_and_open_inverse_odd :
    (Host.ofNonce fallingNonce).entropy.Holds 12 ∧ Gcm.Sealable oddText [7] ∧
      ∃ sealed after,
        make countingKey oddText [7] (Host.ofNonce fallingNonce) = (.ok sealed, after) ∧
          sealed.nonce.val = fallingNonce.val ∧ sealed.ciphertext.length = 37 ∧
          openWith countingKey fallingNonce.val sealed.ciphertext [7] = .ok oddText ∧
          (∀ other, openWith countingKey fallingNonce.val other [7] = .ok oddText →
            sealed.ciphertext = other) ∧
          openFramed countingKey sealed.framed [7] = .ok oddText ∧
          28 ≤ sealed.framed.length ∧
          openFramed countingKey sealed.framed [7] =
            openWith countingKey (sealed.framed.take 12) (sealed.framed.drop 12) [7] ∧
          make countingKey excess [7] (Host.ofNonce fallingNonce) =
            (.error .encryptionFailed, after) := by
  obtain ⟨enough, nonce⟩ := Host.draws_of_nonce fallingNonce
  have fits : Gcm.Sealable oddText [7] := by decide
  obtain ⟨undoes, -, frames, splits⟩ := seal_and_open_inverse
  obtain ⟨sealed, made, drawn, length, opens⟩ :=
    (undoes countingKey).opens oddText [7] _ enough fits
  have sameNonce : sealed.nonce.val = fallingNonce.val := drawn ▸ nonce
  obtain ⟨framed, madeToo, -, opensFramed⟩ := frames countingKey oddText [7] _ enough fits
  obtain rfl := Except.ok.inj (congrArg Prod.fst (made.symm.trans madeToo))
  have long : 28 ≤ sealed.framed.length := by
    rw [framed, List.length_append, length]
    exact Nat.le_add_left_of_le (by decide)
  rw [sameNonce] at opens
  exact ⟨enough, fits, sealed, _, made, sameNonce, length, opens,
    fun other opensToo => (undoes countingKey).single _ _ other _ _ opens opensToo, opensFramed, long,
    splits countingKey sealed.framed [7] long,
    (undoes countingKey).refuses excess [7] _ enough (not_sealable_excess [7])⟩

end Sealed

end Envelope
