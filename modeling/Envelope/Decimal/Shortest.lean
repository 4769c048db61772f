import Envelope.Decimal.Binary64

set_option autoImplicit false

namespace Envelope

structure Decimal where
  digits : Nat
  scale : Int
deriving DecidableEq, Repr

namespace Decimal

def stripped : Nat → Decimal → Decimal
  | 0, d => d
  | fuel + 1, d =>
    if d.digits ≠ 0 ∧ d.digits % 10 = 0 then stripped fuel ⟨d.digits / 10, d.scale + 1⟩ else d

def digitCount (n : Nat) : Nat :=
  (Nat.toDigits 10 n).length

-- The exponent `e` with `10 ^ e ≤ numerator / denominator < 10 ^ (e + 1)`.
def exponentOf (numerator denominator : Nat) : Int :=
  if denominator ≤ numerator then (digitCount (numerator / denominator) : Int) - 1
  else -(digitCount ((denominator + numerator - 1) / numerator - 1) : Int)

-- The reals around a floating-point number that round to it: between `low` and `high` quarters of
-- `2 ^ exponent`, the ends included for an even mantissa.
structure Interval where
  value : Nat
  low : Nat
  high : Nat
  closed : Bool
  exponent : Int

namespace Interval

def ofMantissa (mantissa : Nat) (exponent : Int) : Interval :=
  let atPower := mantissa = Nat.pow 2 52 ∧ exponent ≠ Binary64.leastExponent
  ⟨4 * mantissa, 4 * mantissa - (if atPower then 1 else 2), 4 * mantissa + 2, mantissa % 2 = 0,
    exponent - 2⟩

def numerator (i : Interval) (quarters : Nat) : Nat := quarters * Nat.pow 2 i.exponent.toNat
def denominator (i : Interval) : Nat := Nat.pow 2 (-i.exponent).toNat

def compared (i : Interval) (quarters : Nat) (d : Decimal) : Nat × Nat :=
  (i.numerator quarters * Nat.pow 10 (-d.scale).toNat,
    d.digits * Nat.pow 10 d.scale.toNat * i.denominator)

def contains (i : Interval) (d : Decimal) : Bool :=
  let below := i.compared i.low d
  let above := i.compared i.high d
  if i.closed then below.1 ≤ below.2 && above.2 ≤ above.1
  else below.1 < below.2 && above.2 < above.1

def nearer (i : Interval) (lower upper : Decimal) : Decimal :=
  let down := i.compared i.value lower
  let up := i.compared i.value upper
  let below := down.1 - down.2
  let above := up.2 - up.1
  if below < above then lower
  else if above < below then upper
  else if lower.digits % 2 = 0 then lower else upper

def best? (i : Interval) (scale : Int) : Option Decimal :=
  let whole := i.numerator i.value * Nat.pow 10 (-scale).toNat /
    (i.denominator * Nat.pow 10 scale.toNat)
  let lower : Decimal := ⟨whole, scale⟩
  let upper : Decimal := ⟨whole + 1, scale⟩
  match i.contains lower, i.contains upper with
  | true, true => some (i.nearer lower upper)
  | true, false => some lower
  | false, true => some upper
  | false, false => none

def search (i : Interval) : Nat → Int → Decimal
  | 0, scale => (i.best? scale).getD ⟨0, 0⟩
  | steps + 1, scale =>
    match i.best? scale with
    | some d => d
    | none => search i steps (scale - 1)

end Interval

-- Seventeen digits always tell floating-point numbers apart.
def shortest (mantissa : Nat) (exponent : Int) : Decimal :=
  if mantissa = 0 then ⟨0, 0⟩
  else
    let i := Interval.ofMantissa mantissa exponent
    stripped 20 (i.search 17 (exponentOf (i.numerator i.value) i.denominator))

end Decimal

end Envelope
