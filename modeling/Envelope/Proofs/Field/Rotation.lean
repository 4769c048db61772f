import Envelope.Proofs.Field.RoundTrip
import Envelope.Proofs.Keyring.Rotation
import Envelope.Proofs.Keyring.Tokens

set_option autoImplicit false

namespace Envelope

open Keyring

theorem resolved_of_dek (ring keeper : Keyring) (document : Json) (tenant : String)
    (rows : List Record) (stored other : StoredDek) (dek : Dek) (unwraps : stored.Unwraps ring (.ok dek))
    (otherUnwraps : other.Unwraps keeper (.ok dek)) :
    resolved keeper document tenant rows other = resolved ring document tenant rows stored := by
  by_cases empty : rows = []
  · simp only [resolved, List.isEmpty_iff, if_pos empty]
  · rw [resolved_of_unwraps keeper document tenant rows other dek empty otherUnwraps,
      resolved_of_unwraps ring document tenant rows stored dek empty unwraps]

def Prepared.OpensWith (prepared : Prepared) (first ring : Keyring) (w : WrappedDek) : Prop :=
  ∀ keeper : Keyring, keeper.Keeps ring → ∀ reader later twin,
    (resolve keeper prepared.document reader prepared.records (.ofWrapped w) later).1 =
      (resolvePrepared first prepared reader twin).1

theorem opens_with_of_settled (prepared : Prepared) (first ring : Keyring) (dek : Dek)
    (original w : WrappedDek) (has : prepared.wrappedDek = some original)
    (issued : first.unwrap original = .ok dek) (settled : w.Settled dek ring) :
    prepared.OpensWith first ring w := by
  intro keeper keeps reader later twin
  rw [resolvePrepared, of_prepared_of_wrapped prepared original has, resolve_fst, resolve_fst]
  exact resolved_of_dek first keeper prepared.document reader prepared.records _ _ dek
    (unwraps_of_wrapped first original _ issued)
    (unwraps_of_wrapped keeper w _ (settled.opens keeper keeps))

theorem wrapped_of_prepare (ring : Keyring) (document : Json) (tenant : String) (host after : Host)
    (prepared : Prepared) (original : WrappedDek) (wellFormed : document.WellFormed)
    (prepares : prepare ring document tenant host = (.ok prepared, after))
    (has : prepared.wrappedDek = some original) :
    ∃ dek nonce, original = ring.wrappedWith dek nonce := by
  obtain rfl := prepared_eq_outcome ring document tenant host after prepared wellFormed prepares
  simp only [Prepared.outcome] at has
  split at has
  · cases has
  · exact ⟨_, _, (Option.some.inj has).symm⟩

/-- Along rings of which each holds the active key of the one before, a document key is never lost:
after every step it is wrapped under the active key, stays as it is when it is rewrapped there again,
and opens, with the documents prepared with it, in every ring that holds that key. -/
theorem rewrap_all_settles (first : Keyring) (rings : List Keyring)
    (linked : List.IsChain (fun ring next => next.Keeps ring) (first :: rings)) :
    (∀ (dek : Dek) (host : Host), host.entropy.Holds (12 + rotationCost first rings) →
      ∃ original wraps,
        first.wrapBytes dek.bytes host =
            (.ok original, { host with entropy := host.entropy.advance 12 }) ∧
          rewrapAll rings original { host with entropy := host.entropy.advance 12 } =
            (.ok wraps,
              { host with entropy := host.entropy.advance (12 + rotationCost first rings) }) ∧
          List.Forall₂ (WrappedDek.Settled dek) (first :: rings) (original :: wraps)) ∧
      ∀ (document : Json) (tenant : String) (start after : Host) (prepared : Prepared)
        (original : WrappedDek), document.WellFormed →
        prepare first document tenant start = (.ok prepared, after) →
        prepared.wrappedDek = some original →
        ∀ host : Host, host.entropy.Holds (rotationCost first rings) →
          ∃ wraps,
            rewrapAll rings original host =
                (.ok wraps, { host with entropy := host.entropy.advance (rotationCost first rings) }) ∧
              List.Forall₂ (prepared.OpensWith first) (first :: rings) (original :: wraps) := by
  constructor
  · intro dek host enough
    have wrapped := wrap_of_holds first dek host
      (Entropy.holds_of_le host.entropy _ _ (Nat.le_add_right _ _) enough)
    obtain ⟨wraps, run, settled⟩ := rewrap_all_wrapped_with first rings dek (host.entropy.next 12)
      { host with entropy := host.entropy.advance 12 } linked
      ((Entropy.holds_advance_iff ..).mpr enough)
    rw [Entropy.advance_advance] at run
    refine ⟨_, wraps, ?_, run, .cons (settled_wrapped_with first dek _) settled⟩
    rw [wrap_bytes_bytes, wrapped]
  · intro document tenant start after prepared original wellFormed prepares has host enough
    obtain ⟨dek, nonce, rfl⟩ :=
      wrapped_of_prepare first document tenant start after prepared original wellFormed prepares has
    have issued := unwrap_wrapped_with first dek nonce
    obtain ⟨wraps, run, settled⟩ := rewrap_all_wrapped_with first rings dek nonce host linked enough
    refine ⟨wraps, run, ?_⟩
    exact (List.Forall₂.cons (settled_wrapped_with first dek nonce) settled).imp
      fun ring w stands => opens_with_of_settled prepared first ring dek _ w has issued stands

def lateRing : Keyring where
  keys := KeyTable.empty.place secondRing.active secondRing.activeKey secondRing.is_key_id_active
  active := secondRing.active
  active_mem := List.mem_cons_self

theorem rewrap_all_settles_late :
    List.IsChain (fun ring next : Keyring => next.Keeps ring) [firstRing, secondRing, lateRing] ∧
      rotationCost firstRing [secondRing, lateRing] = 12 ∧
      (∃ original wraps,
        firstRing.wrapBytes (Sized.zero 32).val smallHost =
            (.ok original, { smallHost with entropy := smallHost.entropy.advance 12 }) ∧
          rewrapAll [secondRing, lateRing] original
              { smallHost with entropy := smallHost.entropy.advance 12 } =
            (.ok wraps, { smallHost with entropy := smallHost.entropy.advance 24 }) ∧
          List.Forall₂ (WrappedDek.Settled ⟨Sized.zero 32⟩) [firstRing, secondRing, lateRing]
            (original :: wraps)) ∧
      ∃ prepared original wraps,
        (prepare firstRing smallDocument "acme" smallHost).1 = .ok prepared ∧
          prepared.wrappedDek = some original ∧
          rewrapAll [secondRing, lateRing] original scarceHost =
            (.ok wraps, { scarceHost with entropy := scarceHost.entropy.advance 12 }) ∧
          List.Forall₂ (prepared.OpensWith firstRing) [firstRing, secondRing, lateRing]
            (original :: wraps) := by
  have linked : List.IsChain (fun ring next : Keyring => next.Keeps ring)
      [firstRing, secondRing, lateRing] :=
    List.isChain_cons_cons.mpr ⟨rfl, List.isChain_cons_cons.mpr ⟨rfl, .singleton _⟩⟩
  obtain ⟨wrapped, prepared⟩ := rewrap_all_settles firstRing [secondRing, lateRing] linked
  have outcome := (prepare_of_holds firstRing smallDocument "acme" smallHost well_formed_small_document
    (by decide) (by decide)).1
  obtain ⟨wraps, run, opens⟩ := prepared smallDocument "acme" smallHost _ _ _ well_formed_small_document
    (Prod.ext outcome rfl) rfl scarceHost (by decide)
  exact ⟨linked, rfl, wrapped ⟨Sized.zero 32⟩ smallHost (by decide), _, _, wraps, outcome, rfl, run,
    opens⟩

end Envelope
