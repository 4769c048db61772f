import Envelope.Cipher.Aes

set_option autoImplicit false

namespace Envelope.Ghash

-- An element of GF(2^128): the highest bit of `high` is the coefficient of 1.
structure Element where
  high : UInt64
  low : UInt64
deriving DecidableEq, Repr

namespace Element

def zero : Element := ⟨0, 0⟩

def add (x y : Element) : Element :=
  ⟨x.high ^^^ y.high, x.low ^^^ y.low⟩

-- The product with `x`, modulo x^128 + x^7 + x^2 + x + 1.
def double (x : Element) : Element :=
  let high := x.high >>> 1
  let low := (x.low >>> 1) ||| (x.high <<< 63)
  if x.low &&& 1 = 0 then ⟨high, low⟩ else ⟨high ^^^ 0xE100000000000000, low⟩

def mulWord : Nat → UInt64 → Element → Element → Element × Element
  | 0, _, power, sum => (power, sum)
  | n + 1, word, power, sum =>
    mulWord n (word <<< 1) power.double
      (if word &&& 0x8000000000000000 = 0 then sum else sum.add power)

def mul (x y : Element) : Element :=
  let upper := mulWord 64 x.high y zero
  (mulWord 64 x.low upper.1 upper.2).2

def word (bytes : Bytes) : UInt64 :=
  bytes.foldl (fun word byte => (word <<< 8) ||| byte.toUInt64) 0

def ofBytes (bytes : Bytes) : Element :=
  ⟨word (bytes.take 8), word (bytes.drop 8)⟩

def wordBytes (word : UInt64) : Bytes :=
  [(word >>> 56).toUInt8, (word >>> 48).toUInt8, (word >>> 40).toUInt8, (word >>> 32).toUInt8,
   (word >>> 24).toUInt8, (word >>> 16).toUInt8, (word >>> 8).toUInt8, word.toUInt8]

def toBytes (x : Element) : Bytes :=
  wordBytes x.high ++ wordBytes x.low

theorem length_to_bytes (x : Element) : x.toBytes.length = 16 := rfl

end Element

def blocks : Nat → Bytes → List Element
  | 0, _ => []
  | n + 1, bytes =>
    let block := bytes.take 16
    Element.ofBytes (block ++ List.replicate (16 - block.length) 0) :: blocks n (bytes.drop 16)

def blocksOf (bytes : Bytes) : List Element :=
  blocks ((bytes.length + 15) / 16) bytes

def lengths (aad ciphertext : Nat) : Element :=
  ⟨UInt64.ofNat (aad * 8), UInt64.ofNat (ciphertext * 8)⟩

def absorb (key sum : Element) (message : List Element) : Element :=
  message.foldl (fun sum block => (sum.add block).mul key) sum

def checksum (key : Element) (aad ciphertext : Bytes) : Element :=
  absorb key Element.zero
    (blocksOf aad ++ blocksOf ciphertext ++ [lengths aad.length ciphertext.length])

end Envelope.Ghash
