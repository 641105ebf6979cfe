import Dice.Expression
import Dice.Parse.Meaning

/-!
Reading expressions.

A text is cut into pieces and the pieces are read in order. The first flaw rejects the text; only a
text without flaws is held against the cap on dice. The constants add up to the modifier.
-/

namespace Dice.Expression

/-- Puts an expression together from what its pieces mean. -/
def ofMeanings (maxDice : Option UInt32) (source : String) (meanings : List Meaning) :
    Except ParseError Expression :=
  let terms := meanings.filterMap Meaning.term?
  let modifier := Saturating.sum 0 (meanings.filterMap Meaning.constant?)
  let count := Term.diceCount terms
  match maxDice.filter fun max => max.toNat < count with
  | some max => .error (.tooManyDice count max)
  | none =>
    match Formula.ofTerms? terms modifier with
    | none => .error .noDice
    | some formula => .ok { formula with source := some source }

/-- The pieces of a text within the blanks around it, placed in the whole text. -/
def piecesOf (text : List Char) : List Located :=
  Located.ofChars (Text.byteSize (Text.leadingBlanks text)) (Text.trim text)

/-- Reads an expression within limits. -/
def parseWith (limits : Limits) (text : String) : Except ParseError Expression :=
  if Text.trim text.toList = [] then .error .empty else do
    let meanings ← (piecesOf text.toList).mapM (Located.read limits.maxValue)
    ofMeanings limits.maxDice text meanings

def parse (text : String) : Except ParseError Expression :=
  parseWith {} text

end Dice.Expression
