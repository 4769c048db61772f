import Envelope.Bytes.Basic

set_option autoImplicit false

namespace Envelope.Aes

-- The product with `x` in GF(2^8), modulo x^8 + x^4 + x^3 + x + 1.
def double (byte : UInt8) : UInt8 :=
  if byte &&& 0x80 = 0 then byte <<< 1 else (byte <<< 1) ^^^ 0x1B

def substitutions : Array (Array UInt8) := #[
  #[0x63, 0x7C, 0x77, 0x7B, 0xF2, 0x6B, 0x6F, 0xC5, 0x30, 0x01, 0x67, 0x2B, 0xFE, 0xD7, 0xAB, 0x76],
  #[0xCA, 0x82, 0xC9, 0x7D, 0xFA, 0x59, 0x47, 0xF0, 0xAD, 0xD4, 0xA2, 0xAF, 0x9C, 0xA4, 0x72, 0xC0],
  #[0xB7, 0xFD, 0x93, 0x26, 0x36, 0x3F, 0xF7, 0xCC, 0x34, 0xA5, 0xE5, 0xF1, 0x71, 0xD8, 0x31, 0x15],
  #[0x04, 0xC7, 0x23, 0xC3, 0x18, 0x96, 0x05, 0x9A, 0x07, 0x12, 0x80, 0xE2, 0xEB, 0x27, 0xB2, 0x75],
  #[0x09, 0x83, 0x2C, 0x1A, 0x1B, 0x6E, 0x5A, 0xA0, 0x52, 0x3B, 0xD6, 0xB3, 0x29, 0xE3, 0x2F, 0x84],
  #[0x53, 0xD1, 0x00, 0xED, 0x20, 0xFC, 0xB1, 0x5B, 0x6A, 0xCB, 0xBE, 0x39, 0x4A, 0x4C, 0x58, 0xCF],
  #[0xD0, 0xEF, 0xAA, 0xFB, 0x43, 0x4D, 0x33, 0x85, 0x45, 0xF9, 0x02, 0x7F, 0x50, 0x3C, 0x9F, 0xA8],
  #[0x51, 0xA3, 0x40, 0x8F, 0x92, 0x9D, 0x38, 0xF5, 0xBC, 0xB6, 0xDA, 0x21, 0x10, 0xFF, 0xF3, 0xD2],
  #[0xCD, 0x0C, 0x13, 0xEC, 0x5F, 0x97, 0x44, 0x17, 0xC4, 0xA7, 0x7E, 0x3D, 0x64, 0x5D, 0x19, 0x73],
  #[0x60, 0x81, 0x4F, 0xDC, 0x22, 0x2A, 0x90, 0x88, 0x46, 0xEE, 0xB8, 0x14, 0xDE, 0x5E, 0x0B, 0xDB],
  #[0xE0, 0x32, 0x3A, 0x0A, 0x49, 0x06, 0x24, 0x5C, 0xC2, 0xD3, 0xAC, 0x62, 0x91, 0x95, 0xE4, 0x79],
  #[0xE7, 0xC8, 0x37, 0x6D, 0x8D, 0xD5, 0x4E, 0xA9, 0x6C, 0x56, 0xF4, 0xEA, 0x65, 0x7A, 0xAE, 0x08],
  #[0xBA, 0x78, 0x25, 0x2E, 0x1C, 0xA6, 0xB4, 0xC6, 0xE8, 0xDD, 0x74, 0x1F, 0x4B, 0xBD, 0x8B, 0x8A],
  #[0x70, 0x3E, 0xB5, 0x66, 0x48, 0x03, 0xF6, 0x0E, 0x61, 0x35, 0x57, 0xB9, 0x86, 0xC1, 0x1D, 0x9E],
  #[0xE1, 0xF8, 0x98, 0x11, 0x69, 0xD9, 0x8E, 0x94, 0x9B, 0x1E, 0x87, 0xE9, 0xCE, 0x55, 0x28, 0xDF],
  #[0x8C, 0xA1, 0x89, 0x0D, 0xBF, 0xE6, 0x42, 0x68, 0x41, 0x99, 0x2D, 0x0F, 0xB0, 0x54, 0xBB, 0x16]]

def substitute (byte : UInt8) : UInt8 :=
  (substitutions.getD (byte.toNat / 16) #[]).getD (byte.toNat % 16) 0

structure Column where
  a : UInt8
  b : UInt8
  c : UInt8
  d : UInt8
deriving DecidableEq, Repr

namespace Column

def add (x y : Column) : Column :=
  ⟨x.a ^^^ y.a, x.b ^^^ y.b, x.c ^^^ y.c, x.d ^^^ y.d⟩

def sub (x : Column) : Column :=
  ⟨substitute x.a, substitute x.b, substitute x.c, substitute x.d⟩

def mix (x : Column) : Column :=
  ⟨double x.a ^^^ double x.b ^^^ x.b ^^^ x.c ^^^ x.d,
   x.a ^^^ double x.b ^^^ double x.c ^^^ x.c ^^^ x.d,
   x.a ^^^ x.b ^^^ double x.c ^^^ double x.d ^^^ x.d,
   double x.a ^^^ x.a ^^^ x.b ^^^ x.c ^^^ double x.d⟩

-- The key schedule's step on every eighth column.
def turn (constant : UInt8) (x : Column) : Column :=
  ⟨substitute x.b ^^^ constant, substitute x.c, substitute x.d, substitute x.a⟩

def toBytes (x : Column) : Bytes :=
  [x.a, x.b, x.c, x.d]

end Column

structure Block where
  p : Column
  q : Column
  r : Column
  s : Column
deriving DecidableEq, Repr

namespace Block

def add (x y : Block) : Block :=
  ⟨x.p.add y.p, x.q.add y.q, x.r.add y.r, x.s.add y.s⟩

def sub (x : Block) : Block :=
  ⟨x.p.sub, x.q.sub, x.r.sub, x.s.sub⟩

def shiftRows (x : Block) : Block :=
  ⟨⟨x.p.a, x.q.b, x.r.c, x.s.d⟩, ⟨x.q.a, x.r.b, x.s.c, x.p.d⟩,
   ⟨x.r.a, x.s.b, x.p.c, x.q.d⟩, ⟨x.s.a, x.p.b, x.q.c, x.r.d⟩⟩

def mixColumns (x : Block) : Block :=
  ⟨x.p.mix, x.q.mix, x.r.mix, x.s.mix⟩

def toBytes (x : Block) : Bytes :=
  x.p.toBytes ++ x.q.toBytes ++ x.r.toBytes ++ x.s.toBytes

def ofFn (byte : Nat → UInt8) : Block :=
  ⟨⟨byte 0, byte 1, byte 2, byte 3⟩, ⟨byte 4, byte 5, byte 6, byte 7⟩,
   ⟨byte 8, byte 9, byte 10, byte 11⟩, ⟨byte 12, byte 13, byte 14, byte 15⟩⟩

def ofBytes (bytes : Bytes) : Block :=
  ofFn fun i => bytes.getD i 0

theorem length_to_bytes (x : Block) : x.toBytes.length = 16 := rfl

end Block

def nextKeys (constant : UInt8) (x y : Block) : Block × Block :=
  let p := x.p.add (y.s.turn constant)
  let q := x.q.add p
  let r := x.r.add q
  let s := x.s.add r
  let t := y.p.add s.sub
  let u := y.q.add t
  let v := y.r.add u
  let w := y.s.add v
  (⟨p, q, r, s⟩, ⟨t, u, v, w⟩)

def roundKeysFrom (constant : UInt8) (x y : Block) : Nat → List Block
  | 0 => []
  | n + 1 =>
    let next := nextKeys constant x y
    next.1 :: next.2 :: roundKeysFrom (double constant) next.1 next.2 n

def roundKeys (key : Sized 32) : List Block :=
  let x := Block.ofBytes key.val
  let y := Block.ofBytes (key.val.drop 16)
  (x :: y :: roundKeysFrom 1 x y 7).take 15

def rounds : List Block → Block → Block
  | [], block => block
  | [key], block => block.sub.shiftRows.add key
  | key :: keys, block => rounds keys (block.sub.shiftRows.mixColumns.add key)

def encryptWith (keys : List Block) (block : Block) : Block :=
  match keys with
  | [] => block
  | key :: rest => rounds rest (block.add key)

example :
    encryptWith (roundKeys ⟨(List.range 32).map UInt8.ofNat, by decide⟩)
        (Block.ofFn fun i => UInt8.ofNat (17 * i)) =
      Block.ofBytes [0x8E, 0xA2, 0xB7, 0xCA, 0x51, 0x67, 0x45, 0xBF,
        0xEA, 0xFC, 0x49, 0x90, 0x4B, 0x49, 0x60, 0x89] := by
  decide +kernel

end Envelope.Aes
