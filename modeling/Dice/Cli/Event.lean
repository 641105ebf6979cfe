import Dice.Outcome
import Dice.Parse.Error
import Dice.Text.Quoted

namespace Dice.Cli

inductive Event where
  | parsed (input : String) (expression : Expression)
  | rejected (input : String) (error : ParseError)
  | seeded (seed : UInt64)
  | rolled (outcome : Outcome)

namespace Event

def isWarning : Event → Bool
  | seeded _ => true
  | parsed _ _ | rejected _ _ | rolled _ => false

def line : Event → String
  | parsed input expression =>
    "DEBUG parsed dice expression input=" ++ Text.quoted input ++ " expression=" ++ expression.text
  | rejected input error =>
    "DEBUG rejected dice expression input=" ++ Text.quoted input ++ " err=" ++ error.message
  | seeded seed =>
    "WARN using a seeded generator, rolls are reproducible and not secure seed=" ++
      toString seed.toNat
  | rolled outcome =>
    "DEBUG rolled dice expression expression=" ++ outcome.expression.text ++ " dice=" ++
      toString outcome.rolls.length ++ " total=" ++ toString outcome.total.toInt

/-- The events that are written. -/
def shown (debug : Bool) (events : List Event) : List Event :=
  events.filter fun event => debug || event.isWarning

end Event

end Dice.Cli
