import Envelope.Bytes.Basic

set_option autoImplicit false

namespace Envelope

structure Entropy where
  byteAt : Nat → UInt8
  used : Nat := 0
  limit : Option Nat := none

namespace Entropy

def bytesFrom (byteAt : Nat → UInt8) (start : Nat) : Nat → Bytes
  | 0 => []
  | n + 1 => byteAt start :: bytesFrom byteAt (start + 1) n

theorem length_bytes_from (byteAt : Nat → UInt8) (start n : Nat) :
    (bytesFrom byteAt start n).length = n := by
  induction n generalizing start with
  | zero => rfl
  | succ n ih => rw [bytesFrom, List.length_cons, ih]

def Holds (entropy : Entropy) (n : Nat) : Prop :=
  ∀ limit, entropy.limit = some limit → entropy.used + n ≤ limit

instance (entropy : Entropy) (n : Nat) : Decidable (entropy.Holds n) :=
  match h : entropy.limit with
  | none => isTrue fun limit eq => by simp [h] at eq
  | some limit =>
    if fits : entropy.used + n ≤ limit then isTrue fun other eq => by simp_all
    else isFalse fun holds => fits (holds limit h)

def next (entropy : Entropy) (n : Nat) : Sized n :=
  ⟨bytesFrom entropy.byteAt entropy.used n, length_bytes_from ..⟩

def advance (entropy : Entropy) (n : Nat) : Entropy :=
  { entropy with used := entropy.used + n }

-- A draw of more bytes than there are takes none.
def draw? (entropy : Entropy) (n : Nat) : Option (Sized n × Entropy) :=
  if entropy.Holds n then some (entropy.next n, entropy.advance n) else none

end Entropy

end Envelope
