import Dice.Proofs.Reach
import Dice.Proofs.Roller.Flat
import Dice.Roller.Fixed

namespace Dice

open Rolling

/-- What an outcome shows, however its dice are grouped: the rolls and the total. -/
def Outcome.shown (outcome : Outcome) : List Int × Int :=
  (outcome.rolls, outcome.total.toInt)

variable {σ : Type}

theorem Formula.rolls_append {first second joined : Formula} (roller : Roller σ)
    (terms : joined.terms = first.terms ++ second.terms) :
    joined.rolls roller = do
      let front ← first.rolls roller
      let back ← second.rolls roller
      return front ++ back := by
  simp [Formula.rolls, terms, List.mapM_append]

namespace Expression

theorem shown_roll (expression : Expression) (roller : Roller σ) :
    Outcome.shown <$> expression.roll roller = do
      let rolls ← expression.toFormula.rolls roller
      return (rolls, (Saturating.sum expression.modifier rolls).toInt) := by
  simp [roll_eq, Outcome.shown, Outcome.ofRolls]

/-- Expressions with the same dice in a row and the same modifier roll alike with every roller that
is made of its dice: from each state they show the same or fail alike, and leave the same state.
With any roller at all, and room for all sums, the terms of two expressions behind each other and
both modifiers together are rolled as the first expression and then the second. -/
theorem roll_regrouped :
    (∀ {σ : Type} (die : Number → Rolling σ Nat) (first second : Expression),
      first.modifier = second.modifier → first.dice = second.dice →
        Outcome.shown <$> first.roll (.ofDie die) = Outcome.shown <$> second.roll (.ofDie die)) ∧
    ∀ {σ : Type} (roller : Roller σ) (first second joined : Expression),
      joined.terms = first.terms ++ second.terms →
      joined.modifier.toInt = first.modifier.toInt + second.modifier.toInt →
      first.modifier.toInt.natAbs + second.modifier.toInt.natAbs +
        (Term.reach first.terms + Term.reach second.terms) ≤ 2 ^ 63 - 1 →
      Outcome.shown <$> joined.roll roller = do
        let front ← first.roll roller
        let back ← second.roll roller
        return (front.rolls ++ back.rolls, front.total.toInt + back.total.toInt) := by
  constructor
  · intro σ die first second modifier dice
    rw [shown_roll, shown_roll, Formula.rolls_ofDie, Formula.rolls_ofDie, modifier, dice]
  · intro σ roller first second joined terms modifier room
    rw [shown_roll, Formula.rolls_append roller terms]
    simp only [roll_eq, map_eq_pure_bind, Outcome.ofRolls, bind_assoc, pure_bind]
    apply ext_runFrom
    intro start
    apply runFrom_bind_congr
    intro front middle rolled
    apply runFrom_bind_congr
    intro back finish behind
    have few := Formula.sum_natAbs_le_reach rolled
    have fewer := Formula.sum_natAbs_le_reach behind
    rw [Saturating.toInt_sum_append modifier (by omega)]

/-- Five dice at once and in two terms, replayed; and two terms of either sign, alone and together,
from rolls that were prepared. -/
theorem roll_regrouped_dice : ∃ five split first second joined : Expression,
    five.terms = [⟨⟨5, by decide, by decide⟩, ⟨6, by decide, by decide⟩, .positive⟩] ∧
    split.terms = [⟨⟨2, by decide, by decide⟩, ⟨6, by decide, by decide⟩, .positive⟩,
      ⟨⟨3, by decide, by decide⟩, ⟨6, by decide, by decide⟩, .positive⟩] ∧
    five.modifier = split.modifier ∧ five.dice = split.dice ∧
    Outcome.shown <$> five.roll .replay = Outcome.shown <$> split.roll .replay ∧
    first.terms = [⟨⟨2, by decide, by decide⟩, ⟨6, by decide, by decide⟩, .positive⟩] ∧
    second.terms = [⟨.one, ⟨4, by decide, by decide⟩, .negative⟩] ∧
    joined.terms = first.terms ++ second.terms ∧
    joined.modifier.toInt = first.modifier.toInt + second.modifier.toInt ∧
    first.modifier.toInt.natAbs + second.modifier.toInt.natAbs +
      (Term.reach first.terms + Term.reach second.terms) ≤ 2 ^ 63 - 1 ∧
    (Outcome.shown <$> joined.roll .prepared).runFrom [[3, 4], [-2], [5]] =
      (.ok ([3, 4, -2], 3), [[5]]) ∧
    Outcome.shown <$> joined.roll .prepared = do
      let front ← first.roll .prepared
      let back ← second.roll .prepared
      return (front.rolls ++ back.rolls, front.total.toInt + back.total.toInt) := by
  refine ⟨ofFormula ⟨_, List.cons_ne_nil _ _, 2⟩, ofFormula ⟨_, List.cons_ne_nil _ _, 2⟩,
    ofFormula ⟨_, List.cons_ne_nil _ _, 1⟩, ofFormula ⟨_, List.cons_ne_nil _ _, -3⟩,
    ofFormula ⟨_, List.cons_ne_nil _ _, -2⟩, rfl, rfl, rfl, rfl, ?_, rfl, rfl, rfl, rfl, ?_, rfl,
    ?_⟩
  · exact roll_regrouped.1 Roller.nextFace _ _ rfl rfl
  · decide
  · exact roll_regrouped.2 .prepared _ _ _ rfl rfl (by decide)

end Expression

end Dice
