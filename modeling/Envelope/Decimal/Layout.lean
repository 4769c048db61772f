import Envelope.Decimal.Shortest

set_option autoImplicit false

namespace Envelope.Decimal

def positionalFrom : Int := -5
def positionalTo : Int := 15

def positional (digits : List Char) (exponent : Int) : List Char :=
  if exponent < 0 then
    '0' :: '.' :: List.replicate (-exponent - 1).toNat '0' ++ digits
  else
    let whole := exponent.toNat + 1
    let padded := digits ++ List.replicate (whole - digits.length) '0'
    let fraction := padded.drop whole
    padded.take whole ++ '.' :: (if fraction.isEmpty then ['0'] else fraction)

def scientific (digits : List Char) (exponent : Int) : List Char :=
  let fraction := digits.drop 1
  digits.take 1 ++ (if fraction.isEmpty then [] else '.' :: fraction) ++
    'e' :: (if exponent < 0 then '-' else '+') ::
      Nat.toDigits 10 exponent.natAbs

def chars (d : Decimal) : List Char :=
  let digits := Nat.toDigits 10 d.digits
  let exponent : Int := d.scale + digits.length - 1
  if positionalFrom ≤ exponent ∧ exponent ≤ positionalTo then positional digits exponent
  else scientific digits exponent

end Envelope.Decimal

namespace Envelope.Binary64

def chars (x : Binary64) : List Char :=
  (if x.negative then ['-'] else []) ++ (Decimal.shortest x.mantissa x.exponent).chars

end Envelope.Binary64
