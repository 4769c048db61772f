import Envelope.Proofs.Keyring.Wrapping
import Mathlib.Data.List.Forall2

set_option autoImplicit false

namespace Envelope

namespace Keyring

theorem wrap_bytes_bytes (ring : Keyring) (dek : Dek) : ring.wrapBytes dek.bytes = ring.wrap dek := by
  funext host
  simp only [wrapBytes, Dek.of_bytes_bytes, Action.bind_apply, Action.ofExcept]

def inTurn {α : Type} (step : Keyring → α → Action CryptoError α) :
    List Keyring → α → Action CryptoError (List α)
  | [], _ => pure []
  | ring :: rest, current => do
    let moved ← step ring current
    let later ← inTurn step rest moved
    pure (moved :: later)

def rewrapAll (rings : List Keyring) (w : WrappedDek) : Action CryptoError (List WrappedDek) :=
  inTurn rewrap rings w

def stepCost (ring next : Keyring) : Nat :=
  if ring.active = next.active then 0 else 12

def rotationCost : Keyring → List Keyring → Nat
  | _, [] => 0
  | ring, next :: rest => stepCost ring next + rotationCost next rest

-- What each step settles in the next ring, a run along linked rings settles in all of them. What a
-- step needs where it seals anew, a run needs only if one of its steps does.
theorem in_turn_of_linked {α : Type} (step : Keyring → α → Action CryptoError α)
    (Settled : Keyring → α → Prop) (Fits : Prop)
    (moves : ∀ (ring next : Keyring) (current : α) (host : Host), next.Keeps ring →
      Settled ring current → host.entropy.Holds (stepCost ring next) →
      (stepCost ring next = 0 ∨ Fits) →
        ∃ moved, step next current host =
            (.ok moved, { host with entropy := host.entropy.advance (stepCost ring next) }) ∧
          Settled next moved)
    (first : Keyring) (rings : List Keyring) (current : α) (host : Host)
    (linked : List.IsChain (fun ring next => next.Keeps ring) (first :: rings))
    (settled : Settled first current) (enough : host.entropy.Holds (rotationCost first rings))
    (fits : rotationCost first rings = 0 ∨ Fits) :
    ∃ all, inTurn step rings current host =
        (.ok all, { host with entropy := host.entropy.advance (rotationCost first rings) }) ∧
      List.Forall₂ Settled rings all := by
  induction rings generalizing first current host with
  | nil => exact ⟨[], rfl, .nil⟩
  | cons next rest ih =>
    obtain ⟨keeps, later⟩ := List.isChain_cons_cons.mp linked
    have here := Entropy.holds_of_le host.entropy _ _ (Nat.le_add_right _ _) enough
    have nothing : rotationCost first (next :: rest) = 0 →
        stepCost first next = 0 ∧ rotationCost next rest = 0 := Nat.add_eq_zero_iff.mp
    obtain ⟨moved, stepped, there⟩ := moves first next current host keeps settled here
      (fits.imp_left fun none => (nothing none).1)
    obtain ⟨all, run, others⟩ := ih next moved
      { host with entropy := host.entropy.advance (stepCost first next) } later there
      ((Entropy.holds_advance_iff ..).mpr enough) (fits.imp_left fun none => (nothing none).2)
    refine ⟨_, ?_, .cons there others⟩
    simp only [inTurn, Action.bind_apply, stepped, run, Action.pure_apply,
      Entropy.advance_advance, rotationCost]

theorem wrapped_with_of_keeps (ring next : Keyring) (keeps : next.Keeps ring)
    (same : ring.active = next.active) (dek : Dek) (nonce : Gcm.Nonce) :
    ring.wrappedWith dek nonce = next.wrappedWith dek nonce := by
  have key : ring.activeKey = next.activeKey := by
    have own := next.keeps_self
    rw [Keeps, ← same, keeps] at own
    exact Option.some.inj own
  rw [wrappedWith, wrappedWith, key, same]

theorem rewrap_wrapped_with (ring next : Keyring) (keeps : next.Keeps ring) (dek : Dek)
    (nonce : Gcm.Nonce) (host : Host) (enough : host.entropy.Holds (stepCost ring next)) :
    ∃ fresh, next.rewrap (ring.wrappedWith dek nonce) host =
      (.ok (next.wrappedWith dek fresh),
        { host with entropy := host.entropy.advance (stepCost ring next) }) := by
  by_cases same : ring.active = next.active
  · refine ⟨nonce, ?_⟩
    rw [wrapped_with_of_keeps ring next keeps same, rewrap_of_named next _ host ⟨rfl, rfl⟩, stepCost,
      if_pos same]
    rfl
  · have moved : ¬ (ring.wrappedWith dek nonce).NamesActive next := fun named => same named.1
    have unwrapped := unwrap_of_keeps next ring keeps dek nonce
    rw [stepCost, if_neg same] at enough ⊢
    refine ⟨host.entropy.next 12, ?_⟩
    rw [rewrap_of_unwrapped next _ host dek moved unwrapped, wrap_of_holds next dek host enough]

end Keyring

structure WrappedDek.Settled (dek : Dek) (ring : Keyring) (w : WrappedDek) : Prop where
  kekId : w.kekId = ring.active
  algorithm : w.algorithm = "AES-256-GCM"
  stays : ∀ host, ring.rewrap w host = (.ok w, host)
  opens : ∀ keeper : Keyring, keeper.Keeps ring → keeper.unwrap w = .ok dek

namespace Keyring

theorem settled_wrapped_with (ring : Keyring) (dek : Dek) (nonce : Gcm.Nonce) :
    (ring.wrappedWith dek nonce).Settled dek ring where
  kekId := rfl
  algorithm := rfl
  stays host := rewrap_of_named ring _ host ⟨rfl, rfl⟩
  opens keeper keeps := unwrap_of_keeps keeper ring keeps dek nonce

-- Along linked rings, the key goes from one active key to the next, whether a step seals it anew or
-- leaves it.
theorem rewrap_all_wrapped_with (first : Keyring) (rings : List Keyring) (dek : Dek)
    (nonce : Gcm.Nonce) (host : Host)
    (linked : List.IsChain (fun ring next => next.Keeps ring) (first :: rings))
    (enough : host.entropy.Holds (rotationCost first rings)) :
    ∃ wraps, rewrapAll rings (first.wrappedWith dek nonce) host =
        (.ok wraps, { host with entropy := host.entropy.advance (rotationCost first rings) }) ∧
      List.Forall₂ (WrappedDek.Settled dek) rings wraps := by
  -- A step that leaves the key keeps its nonce, one that seals it draws another: any nonce will do.
  have moves : ∀ (ring next : Keyring) (w : WrappedDek) (host : Host), next.Keeps ring →
      (∃ nonce, w = ring.wrappedWith dek nonce) → host.entropy.Holds (stepCost ring next) →
      (stepCost ring next = 0 ∨ True) →
        ∃ moved, next.rewrap w host =
            (.ok moved, { host with entropy := host.entropy.advance (stepCost ring next) }) ∧
          ∃ nonce, moved = next.wrappedWith dek nonce := by
    rintro ring next _ host keeps ⟨nonce, rfl⟩ enough -
    obtain ⟨fresh, rewrapped⟩ := rewrap_wrapped_with ring next keeps dek nonce host enough
    exact ⟨_, rewrapped, fresh, rfl⟩
  obtain ⟨wraps, run, wrapped⟩ :=
    in_turn_of_linked rewrap _ True moves first rings _ host linked ⟨nonce, rfl⟩ enough (.inr trivial)
  refine ⟨wraps, run, wrapped.imp ?_⟩
  rintro ring _ ⟨fresh, rfl⟩
  exact settled_wrapped_with ring dek fresh

end Keyring

end Envelope
