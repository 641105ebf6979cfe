import Dice.Text.Plain

namespace Dice.Cli

inductive Setting where
  | times
  | seed
  | maxDice
  | listLimit
deriving DecidableEq, Repr

namespace Setting

/-- The option with a name for its value, as errors show it. -/
def label : Setting → String
  | times => "--times <TIMES>"
  | seed => "--seed <SEED>"
  | maxDice => "--max-dice <MAX_DICE>"
  | listLimit => "--list-limit <LIST_LIMIT>"

end Setting

inductive Switch where
  | json
  | debug
deriving DecidableEq, Repr

def Switch.label : Switch → String
  | json => "--json"
  | debug => "--debug"

inductive NumeralFlaw where
  | empty
  | invalidDigit
  | tooLarge
  | tooSmall
  | outOfRange (value : Int) (max : Nat)
deriving DecidableEq, Repr

def NumeralFlaw.reason : NumeralFlaw → String
  | empty => "cannot parse integer from empty string"
  | invalidDigit => "invalid digit found in string"
  | tooLarge => "number too large to fit in target type"
  | tooSmall => "number too small to fit in target type"
  | outOfRange value max => toString value ++ " is not in 0..=" ++ toString max

inductive UsageError where
  | badValue (setting : Setting) (value : String) (flaw : NumeralFlaw)
  | missingValue (setting : Setting)
  /-- The option with this label takes no value. -/
  | surplusValue (label value : String)
  /-- The option with this label was given before. -/
  | repeated (label : String)
deriving DecidableEq, Repr

namespace UsageError

def shown (value : String) : String :=
  String.ofList (Text.plain value.toList)

def message : UsageError → String
  | badValue setting value flaw =>
    "error: invalid value '" ++ shown value ++ "' for '" ++ setting.label ++ "': " ++ flaw.reason
  | missingValue setting =>
    "error: a value is required for '" ++ setting.label ++ "' but none was supplied"
  | surplusValue label value =>
    "error: unexpected value '" ++ shown value ++ "' for '" ++ label ++
      "' found; no more were expected"
  | repeated label => "error: the argument '" ++ label ++ "' cannot be used multiple times"

end UsageError

structure Settings where
  times : Option Nat := none
  seed : Option UInt64 := none
  maxDice : Option UInt32 := none
  listLimit : Option Nat := none
  json : Bool := false
  debug : Bool := false
deriving DecidableEq, Repr, Inhabited

end Dice.Cli
