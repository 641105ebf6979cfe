import Dice.Decimal

/-!
Compact JSON: integers, strings, arrays and objects, written without blanks.

In a string only the quote, the backslash and the control characters of ASCII are escaped, so the
written form holds no control character.
-/

namespace Dice

inductive Json where
  | number (value : Int)
  | string (chars : List Char)
  | array (items : List Json)
  | object (fields : List (List Char × Json))

namespace Json

/-- The escape of a control character that has no letter of its own. -/
def escapeCode (c : Char) : List Char :=
  ['\\', 'u', '0', '0', Nat.digitChar (c.toNat / 16), Nat.digitChar (c.toNat % 16)]

def escape (c : Char) : List Char :=
  if c = '"' then ['\\', '"']
  else if c = '\\' then ['\\', '\\']
  else if c = '\x08' then ['\\', 'b']
  else if c = '\t' then ['\\', 't']
  else if c = '\n' then ['\\', 'n']
  else if c = '\x0c' then ['\\', 'f']
  else if c = '\r' then ['\\', 'r']
  else if c.toNat < 0x20 then escapeCode c
  else [c]

def quote (chars : List Char) : List Char :=
  '"' :: chars.flatMap escape ++ ['"']

mutual

def chars : Json → List Char
  | number value => Decimal.ofInt value
  | string text => quote text
  | array items => '[' :: itemChars items
  | object fields => '{' :: fieldChars fields

/-- The items of an array with the bracket that ends it. -/
def itemChars : List Json → List Char
  | [] => [']']
  | [last] => chars last ++ [']']
  | item :: others => chars item ++ ',' :: itemChars others

/-- The fields of an object with the brace that ends it. -/
def fieldChars : List (List Char × Json) → List Char
  | [] => ['}']
  | [(name, last)] => quote name ++ ':' :: chars last ++ ['}']
  | (name, value) :: others => quote name ++ ':' :: chars value ++ ',' :: fieldChars others

end

def text (json : Json) : String :=
  String.ofList json.chars

end Json

end Dice
