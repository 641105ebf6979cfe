import Dice.Proofs.Reach
import Dice.Roller.Fixed

namespace Dice

open Rolling Saturating

variable {σ : Type} {roller : Roller σ} {start finish : σ}

namespace Expression

variable {expression : Expression} {outcome : Outcome}

private theorem sum_natAbs_lt_of_roll
    (rolled : (expression.roll roller).runFrom start = (.ok outcome, finish))
    (few : expression.diceCount < 2 ^ 48) : (outcome.rolls.map Int.natAbs).sum < 2 ^ 64 := by
  obtain ⟨rolls, drawn, rfl⟩ := runFrom_roll_eq_ok_iff_rolls.mp rolled
  have bound : (rolls.map Int.natAbs).sum ≤ 65535 * expression.diceCount :=
    (Formula.sum_natAbs_le_reach drawn).trans (Term.reach_le_diceCount expression.terms)
  exact Nat.lt_of_le_of_lt bound (by omega)

/-- The total is the modifier plus the sum of the rolls if no sum on the way to it leaves the range
of the word, and for as many dice as fit into any memory only then. -/
theorem toInt_total_of_roll
    (rolled : (expression.roll roller).runFrom start = (.ok outcome, finish)) :
    ((∀ front, front <+: outcome.rolls → Fits (expression.modifier.toInt + front.sum)) →
      outcome.total.toInt = expression.modifier.toInt + outcome.rolls.sum) ∧
    (expression.diceCount < 2 ^ 48 →
      outcome.total.toInt = expression.modifier.toInt + outcome.rolls.sum →
      ∀ front, front <+: outcome.rolls → Fits (expression.modifier.toInt + front.sum)) := by
  have total : outcome.total = Saturating.sum expression.modifier outcome.rolls := by
    obtain ⟨rolls, _, rfl⟩ := runFrom_roll_eq_ok_iff_rolls.mp rolled
    rfl
  rw [total]
  constructor
  · exact toInt_sum_of_fits
  · intro few
    exact fits_of_toInt_sum (sum_natAbs_lt_of_roll rolled few)

/-- Two dice that take the total to the end of the range, but not out of it. -/
theorem toInt_total_up_to_the_end : ∃ formula outcome,
    Formula.ofTerms? [⟨.one, ⟨6, by decide, by decide⟩, .positive⟩, ⟨.one, .one, .negative⟩]
      (Int64.maxValue - 6) = some formula ∧
    ((ofFormula formula).roll Roller.highest).runFrom () = (.ok outcome, ()) ∧
    (∀ front, front <+: outcome.rolls → Fits ((ofFormula formula).modifier.toInt + front.sum)) ∧
    outcome.total.toInt = (ofFormula formula).modifier.toInt + outcome.rolls.sum := by
  have rolled : ((ofFormula ⟨[⟨.one, ⟨6, by decide, by decide⟩, .positive⟩,
      ⟨.one, .one, .negative⟩], by decide, Int64.maxValue - 6⟩).roll Roller.highest).runFrom () =
        (.ok ⟨_, [6, -1], Int64.maxValue - 1⟩, ()) := rfl
  have fits : ∀ front ∈ [6, -1].inits, Fits ((Int64.maxValue - 6).toInt + front.sum) := by decide
  have within := fun front shorter => fits front ((List.mem_inits front _).mpr shorter)
  exact ⟨_, _, rfl, rolled, within, (toInt_total_of_roll rolled).1 within⟩

/-- The modifier is at the end of the range, where the first roll is lost, but not the second. -/
theorem total_of_saturated_roll : ∃ formula outcome,
    Formula.ofTerms? [⟨.one, .one, .positive⟩, ⟨.one, .one, .negative⟩] Int64.maxValue =
      some formula ∧
    ((ofFormula formula).roll Roller.highest).runFrom () = (.ok outcome, ()) ∧
    Fits (outcome.modifier.toInt + outcome.rolls.sum) ∧
    outcome.total.toInt ≠ outcome.modifier.toInt + outcome.rolls.sum := by
  have rolled : ((ofFormula ⟨[⟨.one, .one, .positive⟩, ⟨.one, .one, .negative⟩], by decide,
      Int64.maxValue⟩).roll Roller.highest).runFrom () =
        (.ok ⟨_, [1, -1], Int64.maxValue - 1⟩, ()) := rfl
  refine ⟨_, _, rfl, rolled, ?_, ?_⟩
  · change Fits (Int64.maxValue.toInt + [1, -1].sum)
    decide
  · change (Int64.maxValue - 1).toInt ≠ Int64.maxValue.toInt + [1, -1].sum
    decide

end Expression

end Dice
