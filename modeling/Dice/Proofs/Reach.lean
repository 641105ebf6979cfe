import Dice.Proofs.Roller.Calls
import Dice.Proofs.Saturating

namespace Dice

namespace Term

/-- The sum of the greatest faces of all dice. -/
def reach : List Term → Nat
  | [] => 0
  | term :: others => term.count.val * term.sides.val + reach others

variable {term : Term} {roll : Int} {rolls : List Int}

theorem reach_le_diceCount (terms : List Term) : reach terms ≤ 65535 * diceCount terms := by
  induction terms with
  | nil => exact Nat.le_refl 0
  | cons term others ih =>
    have face : term.count.val * term.sides.val ≤ term.count.val * 65535 :=
      Nat.mul_le_mul_left _ (Nat.le_of_lt_succ term.sides.lt_size)
    rw [reach, diceCount, Nat.mul_add]
    omega

theorem natAbs_le_sides (range : term.lowest ≤ roll ∧ roll ≤ term.highest) :
    roll.natAbs ≤ term.sides.val := by
  obtain ⟨face, inside, rfl⟩ := range_iff.mp range
  rw [Sign.natAbs_apply, Int.natAbs_natCast]
  exact inside.2

/-- No roll moves a total by more than 16 bits can say. -/
theorem natAbs_le_of_blocks {terms : List Term} {blocks : List (List Int)}
    (fit : List.Forall₂ Block terms blocks) : ∀ roll ∈ blocks.flatten, roll.natAbs ≤ 65535 := by
  induction fit with
  | nil => exact List.forall_mem_nil _
  | @cons term block terms blocks first others ih =>
    rw [List.flatten_cons, List.forall_mem_append]
    refine ⟨fun roll member => ?_, ih⟩
    exact (natAbs_le_sides (first.range roll member)).trans (Nat.le_of_lt_succ term.sides.lt_size)

theorem Block.sum_natAbs_le (block : term.Block rolls) :
    (rolls.map Int.natAbs).sum ≤ term.count.val * term.sides.val := by
  rw [← block.length, ← List.length_map Int.natAbs, ← smul_eq_mul]
  apply List.sum_le_card_nsmul
  intro size member
  obtain ⟨roll, present, rfl⟩ := List.mem_map.mp member
  exact natAbs_le_sides (block.range roll present)

theorem sum_natAbs_le_reach {terms : List Term} {blocks : List (List Int)}
    (fit : List.Forall₂ Block terms blocks) :
    (blocks.flatten.map Int.natAbs).sum ≤ reach terms := by
  induction fit with
  | nil => exact Nat.le_refl 0
  | cons first others ih =>
    rw [List.flatten_cons, List.map_append, List.sum_append, reach]
    exact Nat.add_le_add first.sum_natAbs_le ih

end Term

open Rolling Saturating

variable {σ : Type} {roller : Roller σ} {start finish : σ}

theorem Formula.sum_natAbs_le_reach {formula : Formula} {rolls : List Int}
    (rolled : (formula.rolls roller).runFrom start = (.ok rolls, finish)) :
    (rolls.map Int.natAbs).sum ≤ Term.reach formula.terms := by
  obtain ⟨blocks, calls, rfl⟩ := runFrom_rolls_eq_ok_iff.mp rolled
  exact Term.sum_natAbs_le_reach calls.blocks

namespace Expression

variable {expression : Expression} {outcome : Outcome}

theorem unclamped_of_reach
    (room : expression.modifier.toInt.natAbs + Term.reach expression.terms < 2 ^ 63)
    (rolled : (expression.roll roller).runFrom start = (.ok outcome, finish)) :
    Unclamped expression.modifier outcome.rolls ∧
      outcome.total.toInt = expression.modifier.toInt + outcome.rolls.sum := by
  obtain ⟨rolls, drawn, rfl⟩ := runFrom_roll_eq_ok_iff_rolls.mp rolled
  have faces := Formula.sum_natAbs_le_reach drawn
  have left : expression.modifier.toInt.natAbs + (rolls.map Int.natAbs).sum < 2 ^ 63 := by omega
  exact ⟨unclamped_of_room left, toInt_sum left⟩

end Expression

end Dice
