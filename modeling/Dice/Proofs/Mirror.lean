import Dice.Proofs.Reach
import Dice.Proofs.Roller.Flat
import Dice.Roller.Fixed

namespace Dice

open Rolling Roller

/-- The formula with every term negated, and its modifier too. -/
def Formula.negated (formula : Formula) : Formula where
  terms := formula.terms.map Term.negated
  terms_ne_nil := mt List.map_eq_nil_iff.mp formula.terms_ne_nil
  modifier := -formula.modifier

section

variable {σ : Type} {die : Number → Rolling σ Nat}

/-- The same face is drawn and checked; only its sign differs. -/
theorem Roller.signedDie_opposite (sides : Number) (sign : Sign) :
    signedDie die sides sign.opposite = (fun roll => -roll) <$> signedDie die sides sign := by
  unfold signedDie
  rw [map_bind]
  congr 1
  funext face
  split
  · rfl
  · simp

theorem Formula.dice_negated (formula : Formula) :
    formula.negated.dice = formula.dice.map fun each => (each.1, each.2.opposite) := by
  simp [Formula.dice, Formula.negated, List.flatMap_map, List.map_flatMap, Term.dice,
    Term.negated]

theorem Formula.rolls_negated (formula : Formula) : formula.negated.rolls (.ofDie die) =
    List.map (fun roll => -roll) <$> formula.rolls (.ofDie die) := by
  rw [Formula.rolls_ofDie, Formula.rolls_ofDie, dice_negated, List.mapM_map, ← mapM_map_eq]
  congr 1
  funext each
  exact signedDie_opposite each.1 each.2

end

namespace Expression

variable {expression mirrored : Expression}

theorem runFrom_roll_negated {σ : Type} {die : Number → Rolling σ Nat}
    (negated : mirrored.toFormula = expression.toFormula.negated) (start : σ) :
    (mirrored.roll (.ofDie die)).runFrom start =
      (((expression.roll (.ofDie die)).runFrom start).1.map fun outcome =>
        .ofRolls mirrored (outcome.rolls.map fun roll => -roll),
        ((expression.roll (.ofDie die)).runFrom start).2) := by
  rw [roll_eq, roll_eq, negated, Formula.rolls_negated]
  simp only [runFrom_map]
  rcases (expression.toFormula.rolls (.ofDie die)).runFrom start with ⟨fault | rolls, finish⟩ <;>
    rfl

theorem total_negated (negated : mirrored.toFormula = expression.toFormula.negated)
    {rolls : List Int}
    (room : expression.modifier.toInt.natAbs + (rolls.map Int.natAbs).sum < 2 ^ 63) :
    (Outcome.ofRolls mirrored (rolls.map fun roll => -roll)).total.toInt =
      -(Outcome.ofRolls expression rolls).total.toInt := by
  have modifier : mirrored.modifier = -expression.modifier := congrArg Formula.modifier negated
  rw [Outcome.ofRolls, Outcome.ofRolls, modifier]
  exact Saturating.toInt_sum_neg room

/-- With room for all sums, an expression with every term and the modifier negated is rolled from
each state as the expression is: it succeeds if the expression does, with all rolls and the total
negated, and fails if it does, with the same fault, and the roller is left in the same state. -/
theorem roll_of_negated {σ : Type} (die : Number → Rolling σ Nat)
    (negated : mirrored.toFormula = expression.toFormula.negated)
    (room : expression.modifier.toInt.natAbs + Term.reach expression.terms < 2 ^ 63) (start : σ) :
    ((∃ outcome finish, (mirrored.roll (.ofDie die)).runFrom start = (.ok outcome, finish)) ↔
      ∃ outcome finish, (expression.roll (.ofDie die)).runFrom start = (.ok outcome, finish)) ∧
    (∀ outcome finish, (expression.roll (.ofDie die)).runFrom start = (.ok outcome, finish) →
      ∃ other, (mirrored.roll (.ofDie die)).runFrom start = (.ok other, finish) ∧
        other.expression = mirrored ∧ other.rolls = (outcome.rolls.map fun roll => -roll) ∧
        other.total.toInt = -outcome.total.toInt) ∧
    ∀ fault finish, (mirrored.roll (.ofDie die)).runFrom start = (.error fault, finish) ↔
      (expression.roll (.ofDie die)).runFrom start = (.error fault, finish) := by
  rw [runFrom_roll_negated negated]
  rcases rolled : (expression.roll (.ofDie die)).runFrom start with ⟨fault | outcome, finish⟩
  · simp [Except.map]
  · obtain ⟨rolls, drawn, rfl⟩ := runFrom_roll_eq_ok_iff_rolls.mp rolled
    have faces := Formula.sum_natAbs_le_reach drawn
    have left : expression.modifier.toInt.natAbs + (rolls.map Int.natAbs).sum < 2 ^ 63 := by omega
    refine ⟨⟨fun _ => ⟨_, _, rfl⟩, fun _ => ⟨_, _, rfl⟩⟩, ?_, by simp [Except.map]⟩
    intro outcome finish same
    cases same
    exact ⟨_, rfl, rfl, rfl, total_negated negated left⟩

/-- Two dice of six sides without one of four sides, and three. -/
theorem roll_of_negated_dice : ∃ formula other,
    Formula.ofTerms? [⟨⟨2, by decide, by decide⟩, ⟨6, by decide, by decide⟩, .positive⟩,
      ⟨.one, ⟨4, by decide, by decide⟩, .negative⟩] 3 = some formula ∧
    formula.modifier.toInt.natAbs + Term.reach formula.terms < 2 ^ 63 ∧
    ((ofFormula formula).roll .replay).runFrom [6, 2, 4, 5] =
      (.ok ⟨ofFormula formula, [6, 2, -4], 7⟩, [5]) ∧
    ((ofFormula formula.negated).roll .replay).runFrom [6, 2, 4, 5] = (.ok other, [5]) ∧
    other.rolls = [-6, -2, 4] ∧ other.total.toInt = -7 ∧
    ((ofFormula formula.negated).roll .replay).runFrom [6, 7, 1] =
      (.error (.badFace 7 ⟨6, by decide, by decide⟩), [1]) := by
  have room : (3 : Int64).toInt.natAbs + Term.reach
      [⟨⟨2, by decide, by decide⟩, ⟨6, by decide, by decide⟩, .positive⟩,
        ⟨.one, ⟨4, by decide, by decide⟩, .negative⟩] < 2 ^ 63 := by decide
  have mirror := @roll_of_negated (ofFormula ⟨_, List.cons_ne_nil _ _, 3⟩) (ofFormula _)
    (List Nat) nextFace rfl room
  obtain ⟨other, rolled, _, rolls, total⟩ := (mirror [6, 2, 4, 5]).2.1 ⟨_, [6, 2, -4], 7⟩ [5] rfl
  refine ⟨_, other, rfl, room, rfl, rolled, rolls, total,
    ((mirror [6, 7, 1]).2.2 _ _).mpr rfl⟩

end Expression

end Dice
