import Dice.Json
import Dice.Outcome

/-!
Records: the JSON forms in which expressions and outcomes are handed on.

The record of an expression holds its terms and modifier, but not its source; the record of an
outcome holds the source, or else the canonical text, and the rolls.
-/

namespace Dice

def Sign.record (sign : Sign) : Json :=
  .string sign.name.toList

def Term.record (term : Term) : Json :=
  .object [("count".toList, .number term.count.val), ("sides".toList, .number term.sides.val),
    ("sign".toList, term.sign.record)]

def Formula.record (formula : Formula) : Json :=
  .object [("terms".toList, .array (formula.terms.map Term.record)),
    ("modifier".toList, .number formula.modifier.toInt)]

def Outcome.record (outcome : Outcome) : Json :=
  .object [("expression".toList, .string outcome.expression.sourceText.toList),
    ("rolls".toList, .array (outcome.rolls.map .number)),
    ("modifier".toList, .number outcome.modifier.toInt),
    ("total".toList, .number outcome.total.toInt)]

end Dice
