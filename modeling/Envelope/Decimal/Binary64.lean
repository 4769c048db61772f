set_option autoImplicit false

namespace Envelope

structure Binary64 where
  negative : Bool
  mantissa : Nat
  exponent : Int
deriving DecidableEq, Repr

namespace Binary64

def leastExponent : Int := -1074
def greatestExponent : Int := 971
def mantissaLimit : Nat := Nat.pow 2 53

def zero (negative : Bool) : Binary64 := ⟨negative, 0, leastExponent⟩

def roundHalfEven (numerator denominator : Nat) : Nat :=
  let q := numerator / denominator
  let twice := 2 * (numerator % denominator)
  if twice > denominator ∨ (twice = denominator ∧ q % 2 = 1) then q + 1 else q

def roundAt (numerator denominator : Nat) (exponent : Int) : Nat :=
  roundHalfEven (numerator * Nat.pow 2 (-exponent).toNat) (denominator * Nat.pow 2 exponent.toNat)

-- The exponent at which a positive quotient has a mantissa of 53 bits, or the least exponent.
def exponentOf (numerator denominator : Nat) : Int :=
  let guess : Int := (numerator.log2 : Int) - denominator.log2 - 53
  let whole := numerator * Nat.pow 2 (-guess).toNat / (denominator * Nat.pow 2 guess.toNat)
  let exponent := if whole < mantissaLimit then guess else guess + 1
  max exponent leastExponent

def ofQuotient? (negative : Bool) (numerator denominator : Nat) : Option Binary64 :=
  let exponent := exponentOf numerator denominator
  let rounded := roundAt numerator denominator exponent
  let carried := rounded = mantissaLimit
  let mantissa := if carried then mantissaLimit / 2 else rounded
  let exponent := if carried then exponent + 1 else exponent
  if exponent > greatestExponent then none else some ⟨negative, mantissa, exponent⟩

-- The nearest number to `digits * 10 ^ scale`. Readers that trade this for speed can be one unit in the
-- last place off, as at 31.245270191439438. Decimals that are far out of range are told by their count
-- of digits, so that no large power is taken.
def ofDecimal? (negative : Bool) (digits : Nat) (scale : Int) : Option Binary64 :=
  let magnitude : Int := (Nat.toDigits 10 digits).length + scale
  if digits = 0 ∨ magnitude < -330 then some (zero negative)
  else if magnitude > 310 then none
  else ofQuotient? negative (digits * Nat.pow 10 scale.toNat) (Nat.pow 10 (-scale).toNat)

end Binary64

end Envelope
