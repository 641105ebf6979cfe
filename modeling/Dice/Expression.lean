import Dice.Formula

/-!
Expressions: formulas that remember the text they were read from.

The text takes no part in equality: two expressions are equal when their formulas are.
-/

namespace Dice

structure Expression extends Formula where
  source : Option String
deriving Repr

namespace Expression

/-- An expression that was not read from a text. -/
def ofFormula (formula : Formula) : Expression :=
  { formula with source := none }

instance : BEq Expression where
  beq first second := first.toFormula == second.toFormula

instance : Hashable Expression where
  hash expression := hash expression.toFormula

/-- The text the expression was read from, or else the canonical one. -/
def sourceText (expression : Expression) : String :=
  expression.source.getD expression.text

@[ext] theorem ext {first second : Expression} (terms : first.terms = second.terms)
    (modifier : first.modifier = second.modifier) (source : first.source = second.source) :
    first = second := by
  obtain ⟨first, _⟩ := first
  obtain ⟨second, _⟩ := second
  cases Formula.ext terms modifier
  cases source
  rfl

theorem beq_iff {first second : Expression} :
    (first == second) = true ↔ first.toFormula = second.toFormula :=
  beq_iff_eq (a := first.toFormula)

end Expression

end Dice
