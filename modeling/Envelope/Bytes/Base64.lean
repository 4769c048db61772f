import Envelope.Bytes.Basic
import Envelope.Text.Blank

set_option autoImplicit false

namespace Envelope.Base64

def alphabet : List Char :=
  (List.range 26).map (fun i => Char.ofNat ('A'.toNat + i)) ++
    (List.range 26).map (fun i => Char.ofNat ('a'.toNat + i)) ++
    (List.range 10).map (fun i => Char.ofNat ('0'.toNat + i)) ++ ['+', '/']

def digitChar (n : Nat) : Char :=
  alphabet.getD n '='

def digit? (c : Char) : Option Nat :=
  alphabet.idxOf? c

def encodeChars : Bytes → List Char
  | [] => []
  | [a] => [digitChar (a.toNat / 4), digitChar (a.toNat % 4 * 16), '=', '=']
  | [a, b] =>
    [digitChar (a.toNat / 4), digitChar (a.toNat % 4 * 16 + b.toNat / 16),
      digitChar (b.toNat % 16 * 4), '=']
  | a :: b :: c :: rest =>
    digitChar (a.toNat / 4) :: digitChar (a.toNat % 4 * 16 + b.toNat / 16) ::
      digitChar (b.toNat % 16 * 4 + c.toNat / 64) :: digitChar (c.toNat % 64) :: encodeChars rest

def encode (bytes : Bytes) : String :=
  String.ofList (encodeChars bytes)

def lastByte? (p q : Char) : Option Bytes := do
  let w ← digit? p
  let x ← digit? q
  if x % 16 = 0 then some [UInt8.ofNat (w * 4 + x / 16)] else none

def lastTwoBytes? (p q r : Char) : Option Bytes := do
  let w ← digit? p
  let x ← digit? q
  let y ← digit? r
  if y % 4 = 0 then some [UInt8.ofNat (w * 4 + x / 16), UInt8.ofNat (x % 16 * 16 + y / 4)]
  else none

def threeBytes? (p q r s : Char) : Option Bytes := do
  let w ← digit? p
  let x ← digit? q
  let y ← digit? r
  let z ← digit? s
  pure [UInt8.ofNat (w * 4 + x / 16), UInt8.ofNat (x % 16 * 16 + y / 4),
    UInt8.ofNat (y % 4 * 64 + z)]

def decodeChars? : List Char → Option Bytes
  | [] => some []
  | [p, q, '=', '='] => lastByte? p q
  | [p, q, r, '='] => lastTwoBytes? p q r
  | p :: q :: r :: s :: rest => do
    let group ← threeBytes? p q r s
    let bytes ← decodeChars? rest
    pure (group ++ bytes)
  | _ => none

def decode? (text : String) : Option Bytes :=
  decodeChars? (Text.trimChars text.toList)

theorem digit?_digit_char (n : Nat) (small : n < 64) : digit? (digitChar n) = some n := by
  have every : ∀ m : Fin 64, digit? (digitChar m) = some m.val := by decide
  exact every ⟨n, small⟩

theorem digit_char_of_digit? (c : Char) (n : Nat) (h : digit? c = some n) :
    digitChar n = c ∧ n < 64 := by
  obtain ⟨bound, eq, -⟩ := List.idxOf?_eq_some_iff.mp h
  refine ⟨?_, bound⟩
  simp only [digitChar, List.getD_eq_getElem?_getD, List.getElem?_eq_getElem bound, eq,
    Option.getD_some]

theorem digit?_pad : digit? '=' = none := by decide

theorem to_nat_of_nat_small (n : Nat) (small : n < 256) : (UInt8.ofNat n).toNat = n :=
  UInt8.toNat_ofNat_of_lt' small

theorem last_byte?_eq_some (p q : Char) (bytes : Bytes) (h : lastByte? p q = some bytes) :
    [p, q, '=', '='] = encodeChars bytes := by
  simp only [lastByte?, Option.bind_eq_bind, Option.bind_eq_some_iff] at h
  obtain ⟨w, hw, x, hx, h⟩ := h
  obtain ⟨rfl, wSmall⟩ := digit_char_of_digit? p w hw
  obtain ⟨rfl, xSmall⟩ := digit_char_of_digit? q x hx
  split at h
  · cases h
    have value := to_nat_of_nat_small (w * 4 + x / 16) (by omega)
    simp only [encodeChars, value, show (w * 4 + x / 16) / 4 = w by omega,
      show (w * 4 + x / 16) % 4 * 16 = x by omega]
  · cases h

theorem last_two_bytes?_eq_some (p q r : Char) (bytes : Bytes)
    (h : lastTwoBytes? p q r = some bytes) : [p, q, r, '='] = encodeChars bytes := by
  simp only [lastTwoBytes?, Option.bind_eq_bind, Option.bind_eq_some_iff] at h
  obtain ⟨w, hw, x, hx, y, hy, h⟩ := h
  obtain ⟨rfl, wSmall⟩ := digit_char_of_digit? p w hw
  obtain ⟨rfl, xSmall⟩ := digit_char_of_digit? q x hx
  obtain ⟨rfl, ySmall⟩ := digit_char_of_digit? r y hy
  split at h
  · cases h
    have first := to_nat_of_nat_small (w * 4 + x / 16) (by omega)
    have second := to_nat_of_nat_small (x % 16 * 16 + y / 4) (by omega)
    simp only [encodeChars, first, second, show (w * 4 + x / 16) / 4 = w by omega,
      show (w * 4 + x / 16) % 4 * 16 + (x % 16 * 16 + y / 4) / 16 = x by omega,
      show (x % 16 * 16 + y / 4) % 16 * 4 = y by omega]
  · cases h

theorem three_bytes?_eq_some (p q r s : Char) (group bytes : Bytes)
    (h : threeBytes? p q r s = some group) :
    p :: q :: r :: s :: encodeChars bytes = encodeChars (group ++ bytes) := by
  simp only [threeBytes?, Option.bind_eq_bind, Option.bind_eq_some_iff, Option.pure_def,
    Option.some.injEq] at h
  obtain ⟨w, hw, x, hx, y, hy, z, hz, rfl⟩ := h
  obtain ⟨rfl, wSmall⟩ := digit_char_of_digit? p w hw
  obtain ⟨rfl, xSmall⟩ := digit_char_of_digit? q x hx
  obtain ⟨rfl, ySmall⟩ := digit_char_of_digit? r y hy
  obtain ⟨rfl, zSmall⟩ := digit_char_of_digit? s z hz
  have first := to_nat_of_nat_small (w * 4 + x / 16) (by omega)
  have second := to_nat_of_nat_small (x % 16 * 16 + y / 4) (by omega)
  have third := to_nat_of_nat_small (y % 4 * 64 + z) (by omega)
  simp only [List.cons_append, List.nil_append, encodeChars, first, second, third,
    show (w * 4 + x / 16) / 4 = w by omega,
    show (w * 4 + x / 16) % 4 * 16 + (x % 16 * 16 + y / 4) / 16 = x by omega,
    show (x % 16 * 16 + y / 4) % 16 * 4 + (y % 4 * 64 + z) / 64 = y by omega,
    show (y % 4 * 64 + z) % 64 = z by omega]

theorem eq_encode_chars_of_decode_chars? (chars : List Char) (bytes : Bytes)
    (h : decodeChars? chars = some bytes) : chars = encodeChars bytes := by
  fun_induction decodeChars? chars generalizing bytes with
  | case1 =>
    cases h
    rfl
  | case2 p q => exact last_byte?_eq_some p q bytes h
  | case3 p q r => exact last_two_bytes?_eq_some p q r bytes h
  | case4 p q r s rest _ _ ih =>
    simp only [Option.bind_eq_bind, Option.bind_eq_some_iff, Option.pure_def,
      Option.some.injEq] at h
    obtain ⟨group, hGroup, tail, hTail, rfl⟩ := h
    rw [ih tail hTail]
    exact three_bytes?_eq_some p q r s group tail hGroup
  | case5 => cases h

theorem decode_chars?_group (p q r s : Char) (rest : List Char) (solid : s ≠ '=') :
    decodeChars? (p :: q :: r :: s :: rest) =
      (threeBytes? p q r s).bind fun group => (decodeChars? rest).map (group ++ ·) := by
  rw [decodeChars?]
  · cases threeBytes? p q r s <;> cases decodeChars? rest <;> rfl
  · exact fun _ pad _ => solid pad
  · exact fun pad _ => solid pad

theorem digit_char_ne_pad (n : Nat) (small : n < 64) : digitChar n ≠ '=' := by
  intro eq
  have found := digit?_digit_char n small
  rw [eq, digit?_pad] at found
  cases found

theorem decode_chars?_encode_chars (bytes : Bytes) : decodeChars? (encodeChars bytes) = some bytes := by
  fun_induction encodeChars bytes with
  | case1 => rfl
  | case2 a =>
    have bound := a.toNat_lt
    simp only [decodeChars?, lastByte?, digit?_digit_char _ (show a.toNat / 4 < 64 by omega),
      digit?_digit_char _ (show a.toNat % 4 * 16 < 64 by omega), Option.bind_eq_bind,
      Option.bind_some, show a.toNat % 4 * 16 % 16 = 0 by omega, if_pos,
      show a.toNat / 4 * 4 + a.toNat % 4 * 16 / 16 = a.toNat by omega, UInt8.ofNat_toNat]
  | case3 a b =>
    have aBound := a.toNat_lt
    have bBound := b.toNat_lt
    have solid := digit_char_ne_pad (b.toNat % 16 * 4) (by omega)
    rw [decodeChars?]
    · simp only [lastTwoBytes?, digit?_digit_char _ (show a.toNat / 4 < 64 by omega),
        digit?_digit_char _ (show a.toNat % 4 * 16 + b.toNat / 16 < 64 by omega),
        digit?_digit_char _ (show b.toNat % 16 * 4 < 64 by omega), Option.bind_eq_bind,
        Option.bind_some, show b.toNat % 16 * 4 % 4 = 0 by omega, if_pos,
        show a.toNat / 4 * 4 + (a.toNat % 4 * 16 + b.toNat / 16) / 16 = a.toNat by omega,
        show (a.toNat % 4 * 16 + b.toNat / 16) % 16 * 16 + b.toNat % 16 * 4 / 4 = b.toNat by omega,
        UInt8.ofNat_toNat]
    · exact solid
  | case4 a b c rest ih =>
    have aBound := a.toNat_lt
    have bBound := b.toNat_lt
    have cBound := c.toNat_lt
    rw [decode_chars?_group _ _ _ _ _ (digit_char_ne_pad _ (by omega)), ih]
    simp only [threeBytes?, digit?_digit_char _ (show a.toNat / 4 < 64 by omega),
      digit?_digit_char _ (show a.toNat % 4 * 16 + b.toNat / 16 < 64 by omega),
      digit?_digit_char _ (show b.toNat % 16 * 4 + c.toNat / 64 < 64 by omega),
      digit?_digit_char _ (show c.toNat % 64 < 64 by omega), Option.bind_eq_bind, Option.bind_some,
      Option.pure_def, Option.map_some, List.cons_append, List.nil_append,
      show a.toNat / 4 * 4 + (a.toNat % 4 * 16 + b.toNat / 16) / 16 = a.toNat by omega,
      show (a.toNat % 4 * 16 + b.toNat / 16) % 16 * 16 +
        (b.toNat % 16 * 4 + c.toNat / 64) / 4 = b.toNat by omega,
      show (b.toNat % 16 * 4 + c.toNat / 64) % 4 * 64 + c.toNat % 64 = c.toNat by omega,
      UInt8.ofNat_toNat]

theorem decode_chars?_eq_some_iff (chars : List Char) (bytes : Bytes) :
    decodeChars? chars = some bytes ↔ chars = encodeChars bytes :=
  ⟨eq_encode_chars_of_decode_chars? chars bytes, fun h => h ▸ decode_chars?_encode_chars bytes⟩

end Envelope.Base64
