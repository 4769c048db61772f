import Envelope.Entropy
import Envelope.Error
import Envelope.Event
import Envelope.Time.Timestamp

set_option autoImplicit false

namespace Envelope

structure Clock where
  timeAt : Nat → Timestamp
  readings : Nat := 0

namespace Clock

def epoch : Clock := ⟨fun _ => Timestamp.epoch, 0⟩

def now (clock : Clock) : Timestamp := clock.timeAt clock.readings

def advance (clock : Clock) (n : Nat) : Clock :=
  { clock with readings := clock.readings + n }

end Clock

structure Host where
  entropy : Entropy
  clock : Clock
  events : List Event := []

abbrev Action (ε α : Type) := ExceptT ε (StateM Host) α

namespace Action

def draw (n : Nat) : Action CryptoError (Sized n) := fun host =>
  match host.entropy.draw? n with
  | some (bytes, entropy) => (.ok bytes, { host with entropy })
  | none => (.error .entropyExhausted, host)

def report {ε : Type} (event : Event) : Action ε Unit := fun host =>
  (.ok (), { host with events := host.events ++ [event] })

def now {ε : Type} : Action ε Timestamp := fun host =>
  (.ok host.clock.now, { host with clock := host.clock.advance 1 })

def ofExcept {ε α : Type} (result : Except ε α) : Action ε α := fun host => (result, host)

def ofCrypto {α : Type} (action : Action CryptoError α) : Action FieldError α := fun host =>
  ((action host).1.mapError .crypto, (action host).2)

theorem bind_apply {ε α β : Type} (action : Action ε α) (next : α → Action ε β) (host : Host) :
    (action >>= next) host =
      match action host with
      | (.ok value, after) => next value after
      | (.error cause, after) => (.error cause, after) := by
  change (StateT.bind action (ExceptT.bindCont next)) host = _
  simp only [StateT.bind]
  rcases action host with ⟨result, after⟩
  cases result <;> rfl

theorem pure_apply {ε α : Type} (value : α) (host : Host) :
    (pure value : Action ε α) host = (.ok value, host) := rfl

theorem draw_of_holds (n : Nat) (host : Host) (h : host.entropy.Holds n) :
    draw n host = (.ok (host.entropy.next n), { host with entropy := host.entropy.advance n }) := by
  simp only [draw, Entropy.draw?, if_pos h]

theorem draw_of_not_holds (n : Nat) (host : Host) (h : ¬ host.entropy.Holds n) :
    draw n host = (.error .entropyExhausted, host) := by
  simp only [draw, Entropy.draw?, if_neg h]

end Action

end Envelope
