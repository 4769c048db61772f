import Envelope.Bytes.Basic

set_option autoImplicit false

namespace Envelope.Hex

def encodeByte (byte : UInt8) : List Char :=
  [Nat.digitChar (byte.toNat / 16), Nat.digitChar (byte.toNat % 16)]

def encode (bytes : Bytes) : String :=
  String.ofList (bytes.flatMap encodeByte)

def digit? (c : Char) : Option Nat :=
  if '0' ≤ c ∧ c ≤ '9' then some (c.toNat - '0'.toNat)
  else if 'a' ≤ c ∧ c ≤ 'f' then some (c.toNat - 'a'.toNat + 10)
  else if 'A' ≤ c ∧ c ≤ 'F' then some (c.toNat - 'A'.toNat + 10)
  else none

def decodeChars? : List Char → Option Bytes
  | [] => some []
  | high :: low :: rest => do
    let h ← digit? high
    let l ← digit? low
    let bytes ← decodeChars? rest
    pure (UInt8.ofNat (h * 16 + l) :: bytes)
  | [_] => none

def decode? (text : String) : Option Bytes :=
  decodeChars? text.toList

theorem digit?_digit_char (n : Nat) (small : n < 16) : digit? (Nat.digitChar n) = some n := by
  have every : ∀ m : Fin 16, digit? (Nat.digitChar m) = some m.val := by decide
  exact every ⟨n, small⟩

theorem decode_chars?_encode (bytes : Bytes) :
    decodeChars? (bytes.flatMap encodeByte) = some bytes := by
  induction bytes with
  | nil => rfl
  | cons byte tail ih =>
    have bound : byte.toNat < 256 := byte.toNat_lt
    have joined : byte.toNat / 16 * 16 + byte.toNat % 16 = byte.toNat := by omega
    simp only [List.flatMap_cons, encodeByte, List.cons_append, List.nil_append, decodeChars?, ih,
      digit?_digit_char _ (show byte.toNat / 16 < 16 by omega),
      digit?_digit_char _ (show byte.toNat % 16 < 16 by omega), joined, UInt8.ofNat_toNat,
      Option.bind_eq_bind, Option.bind_some, Option.pure_def]

theorem decode?_encode (bytes : Bytes) : decode? (encode bytes) = some bytes := by
  simp [decode?, encode, decode_chars?_encode]

theorem encode_injective (a b : Bytes) (h : encode a = encode b) : a = b := by
  have eq := congrArg decode? h
  simpa only [decode?_encode, Option.some.injEq] using eq

end Envelope.Hex
