import Dice.Expression
import Dice.Roller.Basic
import Dice.Saturating

/-!
Outcomes: what a roll of an expression showed.

The rolls stand in the order of the terms, each with the sign of its term. An expression is rolled
term by term, with a running total that saturates; the first fault ends it, and an outcome is never
partial.
-/

namespace Dice

structure Outcome where
  expression : Expression
  rolls : List Int
  total : Int64
deriving Repr

/-- What has been rolled so far: the rolls, and what they come to with the modifier. -/
structure Tally where
  rolls : List Int
  total : Int64

def Tally.add (tally : Tally) (rolls : List Int) : Tally where
  rolls := tally.rolls ++ rolls
  total := Saturating.sum tally.total rolls

/-- Rolls the terms in order, each onto the tally of those before it. -/
def Formula.roll {σ : Type} (formula : Formula) (roller : Roller σ) : Rolling σ Tally :=
  formula.terms.foldlM (fun tally term => tally.add <$> roller.checkedTerm term)
    ⟨[], formula.modifier⟩

def Expression.roll {σ : Type} (expression : Expression) (roller : Roller σ) :
    Rolling σ Outcome := do
  let tally ← expression.toFormula.roll roller
  return ⟨expression, tally.rolls, tally.total⟩

namespace Outcome

instance : BEq Outcome where
  beq first second :=
    first.expression == second.expression && first.rolls == second.rolls &&
      first.total == second.total

theorem beq_iff {first second : Outcome} : (first == second) = true ↔
    first.expression.toFormula = second.expression.toFormula ∧ first.rolls = second.rolls ∧
      first.total = second.total := by
  change (first.expression == second.expression && first.rolls == second.rolls &&
    first.total == second.total) = true ↔ _
  rw [Bool.and_eq_true, Bool.and_eq_true, Expression.beq_iff, beq_iff_eq, beq_iff_eq, and_assoc]

def modifier (outcome : Outcome) : Int64 :=
  outcome.expression.modifier

/-- The number of rolls that a list with this limit leaves out. -/
def omitted (limit : Option Nat) (rolls : List Int) : Nat :=
  match limit with
  | none => 0
  | some limit => rolls.length - limit

/-- The rolls that a list with this limit shows. -/
def listed (limit : Option Nat) (rolls : List Int) : List Int :=
  match limit with
  | none => rolls
  | some limit => rolls.take limit

/-- The listed rolls between commas, and how many more there are. The comma in front of that number
is written even if no roll is listed. -/
def rollChars (limit : Option Nat) (rolls : List Int) : List Char :=
  [',', ' '].intercalate ((listed limit rolls).map Decimal.ofInt) ++
    if omitted limit rolls = 0 then [] else
      ',' :: ' ' :: Decimal.ofNat (omitted limit rolls) ++ " more...".toList

/-- The expression, its rolls up to the limit, and the total. -/
def describeChars (limit : Option Nat) (outcome : Outcome) : List Char :=
  outcome.expression.chars ++ ' ' :: '[' :: rollChars limit outcome.rolls ++
    ']' :: ' ' :: '=' :: ' ' :: Decimal.ofInt outcome.total.toInt

def describe (limit : Option Nat) (outcome : Outcome) : String :=
  String.ofList (outcome.describeChars limit)

def text (outcome : Outcome) : String :=
  outcome.describe none

theorem length_listed_add_omitted (limit : Option Nat) (rolls : List Int) :
    (listed limit rolls).length + omitted limit rolls = rolls.length := by
  cases limit with
  | none => simp [listed, omitted]
  | some limit =>
    simp only [listed, omitted, List.length_take]
    omega

end Outcome

end Dice
