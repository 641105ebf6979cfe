import Dice.Text.Bytes

namespace Dice

/-- The bytes from `start` up to, and without, `stop`. -/
structure Span where
  start : Nat
  stop : Nat
deriving DecidableEq, Repr

structure Excerpt where
  text : List Char
  span : Span
deriving DecidableEq, Repr

/-- A line and a column, both from 1; a column counts characters. -/
structure Position where
  line : Nat := 1
  column : Nat := 1
deriving DecidableEq, Repr

namespace Position

def isLineEnd (c : Char) : Bool :=
  c ∈ ['\n', '\x0b', '\x0c', '\r', '\u0085', '\u2028', '\u2029']

/-- The position behind a text that starts here. A carriage return and a line feed end one line
together. -/
def after (position : Position) : List Char → Position
  | [] => position
  | '\r' :: '\n' :: rest => after { line := position.line + 1 } rest
  | c :: rest =>
    if isLineEnd c then after { line := position.line + 1 } rest
    else after { position with column := position.column + 1 } rest

end Position

def Span.position (span : Span) (text : List Char) : Position :=
  Position.after {} (Text.before span.start text)

end Dice
