import Envelope.Action

set_option autoImplicit false

namespace Envelope

namespace Entropy

def ahead (entropy : Entropy) (offset n : Nat) : Sized n :=
  (entropy.advance offset).next n

theorem advance_advance (entropy : Entropy) (a b : Nat) :
    (entropy.advance a).advance b = entropy.advance (a + b) := by
  simp only [advance, Nat.add_assoc]

theorem ahead_advance (entropy : Entropy) (start offset n : Nat) :
    (entropy.advance start).ahead offset n = entropy.ahead (start + offset) n := by
  simp only [ahead, advance_advance]

theorem holds_advance_iff (entropy : Entropy) (a b : Nat) :
    (entropy.advance a).Holds b ↔ entropy.Holds (a + b) := by
  simp only [Holds, advance, Nat.add_assoc]

theorem holds_of_le (entropy : Entropy) (a b : Nat) (fewer : a ≤ b) (enough : entropy.Holds b) :
    entropy.Holds a := fun limit given =>
  Nat.le_trans (Nat.add_le_add_left fewer _) (enough limit given)

end Entropy

def Host.advance (host : Host) (bytes readings : Nat) : Host :=
  { host with entropy := host.entropy.advance bytes, clock := host.clock.advance readings }

@[simp]
theorem Host.entropy_advance (host : Host) (bytes readings : Nat) :
    (host.advance bytes readings).entropy = host.entropy.advance bytes := rfl

@[simp]
theorem Host.clock_advance (host : Host) (bytes readings : Nat) :
    (host.advance bytes readings).clock = host.clock.advance readings := rfl

theorem Host.advance_advance (host : Host) (bytes readings more others : Nat) :
    (host.advance bytes readings).advance more others =
      host.advance (bytes + more) (readings + others) := by
  simp only [advance, Entropy.advance, Clock.advance, Nat.add_assoc]

namespace Action

theorem of_crypto_ok {α : Type} (action : Action CryptoError α) (host after : Host) (value : α)
    (ran : action host = (.ok value, after)) : ofCrypto action host = (.ok value, after) := by
  rw [ofCrypto, ran]
  rfl

theorem of_crypto_error {α : Type} (action : Action CryptoError α) (host after : Host)
    (cause : CryptoError) (ran : action host = (.error cause, after)) :
    ofCrypto action host = (.error (.crypto cause), after) := by
  rw [ofCrypto, ran]
  rfl

end Action

end Envelope
