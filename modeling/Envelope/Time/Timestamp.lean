import Envelope.Text.Blank
import Envelope.Time.Date

set_option autoImplicit false

namespace Envelope

-- A leap second is second 60.
structure Timestamp where
  date : Date
  hour : Nat
  minute : Nat
  second : Nat
  nanosecond : Nat
deriving DecidableEq, Repr

namespace Timestamp

def epoch : Timestamp := ⟨⟨1970, 1, 1⟩, 0, 0, 0, 0⟩

def padded (width n : Nat) : List Char :=
  let digits := Nat.toDigits 10 n
  List.replicate (width - digits.length) '0' ++ digits

-- Years of four digits have no sign.
def yearChars (year : Int) : List Char :=
  if 0 ≤ year ∧ year ≤ 9999 then padded 4 year.natAbs
  else (if year < 0 then '-' else '+') :: padded 4 year.natAbs

-- No digits, or three, six or nine, as few as hold the value.
def fractionChars (nanosecond : Nat) : List Char :=
  if nanosecond = 0 then []
  else if nanosecond % 1000000 = 0 then '.' :: padded 3 (nanosecond / 1000000)
  else if nanosecond % 1000 = 0 then '.' :: padded 6 (nanosecond / 1000)
  else '.' :: padded 9 nanosecond

def text (t : Timestamp) : String :=
  String.ofList (yearChars t.date.year ++ '-' :: padded 2 t.date.month ++ '-' :: padded 2 t.date.day ++
    'T' :: padded 2 t.hour ++ ':' :: padded 2 t.minute ++ ':' :: padded 2 t.second ++
    fractionChars t.nanosecond ++ ['Z'])

def toUtc (t : Timestamp) (ahead : Int) : Timestamp :=
  let minutes : Int := t.hour * 60 + t.minute - ahead
  let date := if minutes < 0 then t.date.previous else if minutes < 1440 then t.date else t.date.next
  let ofDay := (minutes % 1440).toNat
  { t with date := date, hour := ofDay / 60, minute := ofDay % 60 }

def number? (width : Nat) (chars : List Char) : Option (Nat × List Char) :=
  let chars := Text.trimStart chars
  let digits := (chars.takeWhile Char.isDigit).take width
  if digits.isEmpty then none
  else some (Nat.ofDigitChars 10 digits 0, chars.drop digits.length)

def sign? : List Char → Option (Bool × List Char)
  | '+' :: rest => some (false, rest)
  | '-' :: rest => some (true, rest)
  | _ => none

-- A year has four digits at most, or any number of digits after a sign.
def year? (chars : List Char) : Option (Int × List Char) :=
  let chars := Text.trimStart chars
  match sign? chars with
  | none => (number? 4 chars).map fun scanned => (scanned.1, scanned.2)
  | some (negative, rest) =>
    let digits := rest.takeWhile Char.isDigit
    let size : Int := Nat.ofDigitChars 10 digits 0
    if digits.isEmpty then none
    else some (if negative then -size else size, rest.dropWhile Char.isDigit)

def separator? (c : Char) (chars : List Char) : Option (List Char) :=
  match Text.trimStart chars with
  | d :: rest => if d = c then some rest else none
  | [] => none

def date? (chars : List Char) : Option (Date × List Char) := do
  let year ← year? chars
  let chars ← separator? '-' year.2
  let month ← number? 2 chars
  let chars ← separator? '-' month.2
  let day ← number? 2 chars
  pure (⟨year.1, month.1, day.1⟩, day.2)

-- The digits after a point, of which nine count.
def fraction? : List Char → Option (Nat × List Char)
  | '.' :: rest =>
    let digits := rest.takeWhile Char.isDigit
    let counted := digits.take 9
    if digits.isEmpty then none
    else
      some (Nat.ofDigitChars 10 counted 0 * Nat.pow 10 (9 - counted.length),
        rest.dropWhile Char.isDigit)
  | chars => some (0, chars)

def betweenDateAndTime? : List Char → Option (List Char)
  | c :: rest => if c = 'T' ∨ c = 't' ∨ c = ' ' then some rest else none
  | [] => none

def twoDigits? : List Char → Option (Nat × List Char)
  | a :: b :: rest =>
    if a.isDigit ∧ b.isDigit then some (Nat.ofDigitChars 10 [a, b] 0, rest) else none
  | _ => none

def offset? (chars : List Char) : Option (Int × List Char) :=
  match chars with
  | c :: rest =>
    if (chars.take 3).map Char.toUpper = ['U', 'T', 'C'] then some (0, chars.drop 3)
    else if c = 'Z' ∨ c = 'z' then some (0, rest)
    else if c = '+' ∨ c = '-' ∨ c = '\u2212' then do
      let hours ← twoDigits? rest
      let minutes ← twoDigits? (hours.2.dropWhile fun c => c = ':' || Text.isBlank c)
      let size : Int := hours.1 * 60 + minutes.1
      if minutes.1 ≥ 60 ∨ size ≥ 1440 then none
      else some (if c = '+' then size else -size, minutes.2)
    else none
  | [] => none

def parse? (text : String) : Option Timestamp := do
  let date ← date? text.toList
  let chars ← betweenDateAndTime? date.2
  let hour ← number? 2 chars
  let chars ← separator? ':' hour.2
  let minute ← number? 2 chars
  let chars ← separator? ':' minute.2
  let second ← number? 2 chars
  let fraction ← fraction? second.2
  let offset ← offset? (Text.trimStart fraction.2)
  let t : Timestamp :=
    toUtc ⟨date.1, hour.1, minute.1, second.1, fraction.1⟩ offset.1
  if date.1.IsValid ∧ hour.1 ≤ 23 ∧ minute.1 ≤ 59 ∧ second.1 ≤ 60 ∧ t.date.IsValid ∧
      (Text.trimStart offset.2).isEmpty
  then some t
  else none

end Timestamp

end Envelope
