import Dice.Parse.Number
import Dice.Piece
import Dice.Term
import Dice.Text.Blank

namespace Dice

inductive Meaning where
  | dice (term : Term)
  | constant (value : Int)
deriving DecidableEq, Repr

namespace Meaning

def term? : Meaning → Option Term
  | dice term => some term
  | constant _ => none

def constant? : Meaning → Option Int
  | dice _ => none
  | constant value => some value

end Meaning

namespace Parse

/-- The number in front of a marker; one die need not be counted. -/
def readCount (max : UInt16) (text : List Char) : Except Flaw Number :=
  if text = [] then .ok Number.one else readNumber .count max text

/-- Reads a piece. A marker without sides is noticed before its count is looked at. -/
def readPiece (max : UInt16) (piece : Piece) : Except Flaw Meaning :=
  let sign := piece.sign.getD default
  let head := Text.trim piece.head
  match piece.sides with
  | some (_, rest) =>
    let sides := Text.trim rest
    if sides = [] then .error .malformed else do
      let count ← readCount max head
      let sides ← readNumber .sides max sides
      return .dice ⟨count, sides, sign⟩
  | none =>
    if head = [] then .error .malformed else do
      let value ← readNumber .modifier max head
      return .constant (sign.apply value.val)

end Parse

/-- The piece as an error shows it: without the blanks around it, but with all its bytes. -/
def Located.excerpt (located : Located) : Excerpt :=
  ⟨Text.trim located.piece.chars, located.span⟩

def Located.read (max : UInt16) (located : Located) : Except ParseError Meaning :=
  (Parse.readPiece max located.piece).mapError (.flawed located.excerpt)

end Dice
