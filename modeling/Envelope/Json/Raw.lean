import Envelope.Json.Basic
import Envelope.Text.Utf8

set_option autoImplicit false

namespace Envelope.Json

inductive Piece where
  | plain (c : Char)
  | escaped (c : Char)
  | unit (value : Nat)
deriving DecidableEq, Repr

structure Numeral where
  negative : Bool
  digits : Nat
  scale : Int
  integral : Bool
deriving DecidableEq, Repr

inductive Raw where
  | null
  | bool (value : Bool)
  | num (numeral : Numeral)
  | str (pieces : List Piece)
  | arr (items : List Raw)
  | obj (members : List (List Piece × Raw))
deriving Repr

def isControl (c : Char) : Bool :=
  c.toNat < 0x20

def isHighSurrogate (unit : Nat) : Bool :=
  0xD800 ≤ unit && unit < 0xDC00

def isLowSurrogate (unit : Nat) : Bool :=
  0xDC00 ≤ unit && unit < 0xE000

def surrogatePair (high low : Nat) : Nat :=
  0x10000 + (high - 0xD800) * 0x400 + (low - 0xDC00)

namespace Piece

def chars? : List Piece → Option (List Char)
  | [] => some []
  | .plain c :: rest => if isControl c then none else (chars? rest).map (c :: ·)
  | .escaped c :: rest => (chars? rest).map (c :: ·)
  | .unit high :: .unit low :: rest =>
    if isHighSurrogate high then
      if isLowSurrogate low then (chars? rest).map (Char.ofNat (surrogatePair high low) :: ·)
      else none
    else if isLowSurrogate high then none
    else (chars? (.unit low :: rest)).map (Char.ofNat high :: ·)
  | .unit value :: rest =>
    if isHighSurrogate value || isLowSurrogate value then none
    else (chars? rest).map (Char.ofNat value :: ·)

def text? (pieces : List Piece) : Option String :=
  (chars? pieces).map String.ofList

def surrogateBytes (unit : Nat) : Bytes :=
  [UInt8.ofNat (0xE0 + unit / 0x1000), UInt8.ofNat (0x80 + unit / 0x40 % 0x40),
    UInt8.ofNat (0x80 + unit % 0x40)]

def unitBytes (unit : Nat) : Bytes :=
  if isHighSurrogate unit || isLowSurrogate unit then surrogateBytes unit
  else String.utf8EncodeChar (Char.ofNat unit)

-- The bytes of a string that is read as bytes, where every character and every unit may stand.
def bytes : List Piece → Bytes
  | [] => []
  | .plain c :: rest => String.utf8EncodeChar c ++ bytes rest
  | .escaped c :: rest => String.utf8EncodeChar c ++ bytes rest
  | .unit high :: .unit low :: rest =>
    if isHighSurrogate high && isLowSurrogate low then
      String.utf8EncodeChar (Char.ofNat (surrogatePair high low)) ++ bytes rest
    else unitBytes high ++ bytes (.unit low :: rest)
  | .unit value :: rest => unitBytes value ++ bytes rest

def isPlainControl : Piece → Bool
  | .plain c => isControl c
  | _ => false

end Piece

-- Integers from -2^63 to 2^64 - 1 stay integers, except that `-0` is a float, as all else is.
def Numeral.number? (n : Numeral) : Option Number :=
  if n.integral ∧ ¬ n.negative ∧ n.digits < 18446744073709551616 then some (.int n.digits)
  else if n.integral ∧ n.negative ∧ n.digits ≠ 0 ∧ n.digits ≤ 9223372036854775808 then
    some (.int (-n.digits))
  else (Binary64.ofDecimal? n.negative n.digits n.scale).map .float

namespace Raw

def text? : Raw → Option String
  | .str pieces => Piece.text? pieces
  | _ => none

def depthLimit : Nat := 127

mutual
-- The value that a tree of at most the given depth stands for. A repeated key keeps the place of
-- the first and the value of the last.
def value? : Nat → Raw → Option Json
  | _, .null => some .null
  | _, .bool b => some (.bool b)
  | _, .num numeral => numeral.number?.map .num
  | _, .str pieces => (Piece.text? pieces).map .str
  | 0, .arr _ => none
  | depth + 1, .arr items => (items? depth items).map .arr
  | 0, .obj _ => none
  | depth + 1, .obj members =>
    (members? depth members).map fun entries => .obj (Table.putAll [] entries)
def items? : Nat → List Raw → Option (List Json)
  | _, [] => some []
  | depth, item :: rest => do
    let value ← value? depth item
    let values ← items? depth rest
    pure (value :: values)
def members? : Nat → List (List Piece × Raw) → Option (List (String × Json))
  | _, [] => some []
  | depth, (key, member) :: rest => do
    let name ← Piece.text? key
    let value ← value? depth member
    let values ← members? depth rest
    pure ((name, value) :: values)
end

mutual
-- What a value must satisfy where nothing reads it: no string holds a raw control character.
def skippable : Raw → Bool
  | .str pieces => !pieces.any Piece.isPlainControl
  | .arr items => itemsSkippable items
  | .obj members => membersSkippable members
  | _ => true
def itemsSkippable : List Raw → Bool
  | [] => true
  | item :: rest => skippable item && itemsSkippable rest
def membersSkippable : List (List Piece × Raw) → Bool
  | [] => true
  | (key, value) :: rest =>
    !key.any Piece.isPlainControl && skippable value && membersSkippable rest
end

end Raw

end Envelope.Json
