import Envelope.Decimal.Layout
import Envelope.Json.Basic
import Envelope.Text.Utf8

set_option autoImplicit false

namespace Envelope

def Number.chars : Number → List Char
  | .int value => (if value < 0 then ['-'] else []) ++ Nat.toDigits 10 value.natAbs
  | .float value => value.chars

namespace Json

def controlEscape (c : Char) : List Char :=
  ['\\', 'u', '0', '0', Nat.digitChar (c.toNat / 16), Nat.digitChar (c.toNat % 16)]

def escapeChar (c : Char) : List Char :=
  if c = '"' then ['\\', '"']
  else if c = '\\' then ['\\', '\\']
  else if c = '\x08' then ['\\', 'b']
  else if c = '\x0c' then ['\\', 'f']
  else if c = '\n' then ['\\', 'n']
  else if c = '\r' then ['\\', 'r']
  else if c = '\t' then ['\\', 't']
  else if c.toNat < 0x20 then controlEscape c
  else [c]

def quote (text : String) : List Char :=
  '"' :: text.toList.flatMap escapeChar ++ ['"']

mutual
def chars : Json → List Char
  | .null => ['n', 'u', 'l', 'l']
  | .bool true => ['t', 'r', 'u', 'e']
  | .bool false => ['f', 'a', 'l', 's', 'e']
  | .num value => value.chars
  | .str value => quote value
  | .arr [] => ['[', ']']
  | .arr (item :: rest) => '[' :: (chars item ++ itemsChars rest)
  | .obj [] => ['{', '}']
  | .obj ((key, value) :: rest) => '{' :: (quote key ++ ':' :: (chars value ++ membersChars rest))
def itemsChars : List Json → List Char
  | [] => [']']
  | item :: rest => ',' :: (chars item ++ itemsChars rest)
def membersChars : List (String × Json) → List Char
  | [] => ['}']
  | (key, value) :: rest => ',' :: (quote key ++ ':' :: (chars value ++ membersChars rest))
end

def text (value : Json) : String :=
  String.ofList (chars value)

mutual
def sortKeys : Json → Json
  | .arr items => .arr (sortItems items)
  | .obj members => .obj (Table.sorted (sortMembers members))
  | value => value
def sortItems : List Json → List Json
  | [] => []
  | item :: rest => sortKeys item :: sortItems rest
def sortMembers : List (String × Json) → List (String × Json)
  | [] => []
  | (key, value) :: rest => (key, sortKeys value) :: sortMembers rest
end

def canonical (value : Json) : String :=
  text (sortKeys value)

def canonicalBytes (value : Json) : Bytes :=
  Utf8.encode (canonical value)

def sameContent (a b : Json) : Bool :=
  sortKeys a = sortKeys b

end Json

end Envelope
