import Dice.Span

namespace Dice

/-- Bounds on what is accepted: no single number may exceed `maxValue`, and the whole expression
may roll no more than `maxDice` dice, if that is given. -/
structure Limits where
  maxValue : UInt16 := 10000
  maxDice : Option UInt32 := none
deriving DecidableEq, Repr

inductive Role where
  | count
  | sides
  | modifier
deriving DecidableEq, Repr

def Role.text : Role → String
  | count => "dice count"
  | sides => "dice sides"
  | modifier => "modifier"

inductive Flaw where
  /-- Nothing follows the sign, or nothing follows the marker. -/
  | malformed
  | notNumeric (role : Role)
  | notPositive (role : Role)
  | tooLarge (role : Role) (max : UInt16)
deriving DecidableEq, Repr

inductive ParseError where
  /-- The text holds blanks only. -/
  | empty
  | flawed (excerpt : Excerpt) (flaw : Flaw)
  /-- There are constants only. -/
  | noDice
  | tooManyDice (count : Nat) (max : UInt32)
deriving DecidableEq, Repr

namespace ParseError

def excerpt? : ParseError → Option Excerpt
  | flawed excerpt _ => some excerpt
  | empty | noDice | tooManyDice _ _ => none

def message : ParseError → String
  | empty => "expression is empty"
  | flawed excerpt flaw =>
    let shown := "\"" ++ String.ofList excerpt.text ++ "\""
    match flaw with
    | .malformed => "malformed term " ++ shown
    | .notNumeric role => role.text ++ " must be numeric in " ++ shown
    | .notPositive role => role.text ++ " must be positive in " ++ shown
    | .tooLarge role max =>
      role.text ++ " exceeds the maximum of " ++ toString max.toNat ++ " in " ++ shown
  | noDice => "expression must include at least one dice term"
  | tooManyDice count max =>
    "expression rolls " ++ toString count ++ " dice, more than the maximum of " ++
      toString max.toNat

end ParseError

end Dice
