import Envelope.Bytes.Hex
import Envelope.Json.Raw
import Envelope.Text.Cut

set_option autoImplicit false

namespace Envelope.Json

open Text (after?)

def isGap (c : Char) : Bool :=
  c = ' ' || c = '\t' || c = '\n' || c = '\r'

def skipGaps (chars : List Char) : List Char :=
  chars.dropWhile isGap

def escape? (c : Char) : Option Char :=
  if c = '"' ∨ c = '\\' ∨ c = '/' then some c
  else if c = 'b' then some '\x08'
  else if c = 'f' then some '\x0c'
  else if c = 'n' then some '\n'
  else if c = 'r' then some '\r'
  else if c = 't' then some '\t'
  else none

def unit? (a b c d : Char) : Option Nat := do
  let w ← Hex.digit? a
  let x ← Hex.digit? b
  let y ← Hex.digit? c
  let z ← Hex.digit? d
  pure (((w * 16 + x) * 16 + y) * 16 + z)

def Piece.scan : List Char → Option (List Piece × List Char)
  | [] => none
  | '\\' :: 'u' :: a :: b :: c :: d :: rest => do
    let value ← unit? a b c d
    let scanned ← Piece.scan rest
    pure (.unit value :: scanned.1, scanned.2)
  | '\\' :: c :: rest => do
    let meant ← escape? c
    let scanned ← Piece.scan rest
    pure (.escaped meant :: scanned.1, scanned.2)
  | c :: rest =>
    if c = '"' then some ([], rest)
    else do
      let scanned ← Piece.scan rest
      pure (.plain c :: scanned.1, scanned.2)

namespace Numeral

def splitSign (chars : List Char) : Bool × List Char :=
  match after? ['-'] chars with
  | some rest => (true, rest)
  | none => (false, chars)

def digits? (chars : List Char) : Option (List Char × List Char) :=
  let digits := chars.takeWhile Char.isDigit
  if digits.isEmpty then none else some (digits, chars.dropWhile Char.isDigit)

def whole? (chars : List Char) : Option (List Char × List Char) := do
  let scanned ← digits? chars
  if scanned.1.length > 1 ∧ scanned.1.head? = some '0' then none else some scanned

def fraction? (chars : List Char) : Option (List Char × List Char) :=
  match after? ['.'] chars with
  | some rest => digits? rest
  | none => some ([], chars)

def exponentSign (chars : List Char) : Bool × List Char :=
  match after? ['+'] chars with
  | some rest => (false, rest)
  | none => splitSign chars

def exponent? (chars : List Char) : Option (Option Int × List Char) :=
  match (after? ['e'] chars).or (after? ['E'] chars) with
  | some rest => do
    let sign := exponentSign rest
    let scanned ← digits? sign.2
    let size : Int := Nat.ofDigitChars 10 scanned.1 0
    pure (some (if sign.1 then -size else size), scanned.2)
  | none => some (none, chars)

def scan (chars : List Char) : Option (Numeral × List Char) := do
  let sign := splitSign chars
  let whole ← whole? sign.2
  let fraction ← fraction? whole.2
  let exponent ← exponent? fraction.2
  pure (⟨sign.1, Nat.ofDigitChars 10 (whole.1 ++ fraction.1) 0,
    exponent.1.getD 0 - fraction.1.length, fraction.1.isEmpty && exponent.1.isNone⟩, exponent.2)

end Numeral

namespace Raw

def scanScalar (chars : List Char) : Option (Raw × List Char) :=
  match after? ['n', 'u', 'l', 'l'] chars with
  | some rest => some (.null, rest)
  | none =>
    match after? ['t', 'r', 'u', 'e'] chars with
    | some rest => some (.bool true, rest)
    | none =>
      match after? ['f', 'a', 'l', 's', 'e'] chars with
      | some rest => some (.bool false, rest)
      | none => (Numeral.scan chars).map fun scanned => (.num scanned.1, scanned.2)

mutual
-- The value at the front of a text, and what follows it. Every nested call lowers the fuel by
-- one, and of two such calls one takes a character off the text.
def scan : Nat → List Char → Option (Raw × List Char)
  | 0, _ => none
  | fuel + 1, chars =>
    match skipGaps chars with
    | [] => none
    | c :: rest =>
      if c = '{' then
        match after? ['}'] (skipGaps rest) with
        | some rest => some (.obj [], rest)
        | none => (scanMembers fuel (skipGaps rest)).map fun scanned => (.obj scanned.1, scanned.2)
      else if c = '[' then
        match after? [']'] (skipGaps rest) with
        | some rest => some (.arr [], rest)
        | none => (scanItems fuel (skipGaps rest)).map fun scanned => (.arr scanned.1, scanned.2)
      else if c = '"' then
        (Piece.scan rest).map fun scanned => (.str scanned.1, scanned.2)
      else scanScalar (c :: rest)
def scanItems : Nat → List Char → Option (List Raw × List Char)
  | 0, _ => none
  | fuel + 1, chars => do
    let item ← scan fuel chars
    match skipGaps item.2 with
    | [] => none
    | c :: rest =>
      if c = ',' then
        (scanItems fuel rest).map fun scanned => (item.1 :: scanned.1, scanned.2)
      else if c = ']' then some ([item.1], rest)
      else none
def scanMembers : Nat → List Char → Option (List (List Piece × Raw) × List Char)
  | 0, _ => none
  | fuel + 1, chars => do
    let opened ← after? ['"'] (skipGaps chars)
    let key ← Piece.scan opened
    let named ← after? [':'] (skipGaps key.2)
    let value ← scan fuel named
    match skipGaps value.2 with
    | [] => none
    | c :: rest =>
      if c = ',' then
        (scanMembers fuel rest).map fun scanned => ((key.1, value.1) :: scanned.1, scanned.2)
      else if c = '}' then some ([(key.1, value.1)], rest)
      else none
end

def parseChars? (chars : List Char) : Option Raw :=
  match scan (2 * chars.length + 2) chars with
  | some (raw, rest) => if (skipGaps rest).isEmpty then some raw else none
  | none => none

def parse? (text : String) : Option Raw :=
  parseChars? text.toList

end Raw

def parse? (text : String) : Option Json :=
  (Raw.parse? text).bind (Raw.value? Raw.depthLimit)

def ofBytes? (bytes : Bytes) : Option Json :=
  (Utf8.decode? bytes).bind parse?

end Envelope.Json
