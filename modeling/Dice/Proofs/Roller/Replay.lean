import Dice.Proofs.Roller.Flat
import Dice.Roller.Fixed

namespace Dice

open Rolling

namespace Roller

/-- A roll that a signed die can show. -/
def Possible (die : Number × Sign) (roll : Int) : Prop :=
  ∃ face : Nat, (1 ≤ face ∧ face ≤ die.1.val) ∧ roll = die.2.apply face

private theorem possible_of_block {term : Term} {rolls : List Int} (block : term.Block rolls) :
    List.Forall₂ Possible term.dice rolls := by
  rw [Term.dice, ← block.length, List.forall₂_iff_zip, List.length_replicate]
  refine ⟨rfl, fun member => ?_⟩
  obtain ⟨die, shown⟩ := List.of_mem_zip member
  cases List.eq_of_mem_replicate die
  exact Term.range_iff.mp (block.range _ shown)

theorem possible_of_blocks {terms : List Term} {blocks : List (List Int)}
    (fit : List.Forall₂ Term.Block terms blocks) :
    List.Forall₂ Possible (terms.flatMap Term.dice) blocks.flatten := by
  rw [← List.flatMap_id]
  exact List.rel_flatMap fit fun _ _ => possible_of_block

variable {dice : List (Number × Sign)} {faces rest : List Nat} {rolls : List Int}

theorem shows_nextFace_iff {die : Number × Sign} {roll : Int} :
    Shows nextFace die faces roll rest ↔ faces = roll.natAbs :: rest ∧ Possible die roll := by
  constructor
  · intro shown
    obtain ⟨face, drawn, inside, rfl⟩ := shown
    rw [Sign.natAbs_apply, Int.natAbs_natCast]
    cases faces with
    | nil => cases drawn
    | cons first others =>
      cases drawn
      exact ⟨rfl, face, inside, rfl⟩
  · intro shown
    obtain ⟨rfl, face, inside, rfl⟩ := shown
    rw [Sign.natAbs_apply, Int.natAbs_natCast]
    exact ⟨face, rfl, inside, rfl⟩

/-- Dice show the faces of the list in order, and leave the rest of it. -/
theorem chain_nextFace_iff : Chain (Shows nextFace) dice faces rolls rest ↔
    faces = rolls.map Int.natAbs ++ rest ∧ List.Forall₂ Possible dice rolls := by
  constructor
  · intro chain
    induction chain with
    | nil => exact ⟨rfl, .nil⟩
    | cons first others ih =>
      obtain ⟨rfl, possible⟩ := shows_nextFace_iff.mp first
      obtain ⟨rfl, remaining⟩ := ih
      exact ⟨rfl, .cons possible remaining⟩
  · intro shown
    obtain ⟨rfl, possible⟩ := shown
    induction possible with
    | nil => exact .nil
    | cons first others ih => exact .cons (shows_nextFace_iff.mpr ⟨rfl, first⟩) ih

end Roller

namespace Expression

variable {σ : Type} {expression : Expression} {roller : Roller σ} {start finish : σ}
  {outcome : Outcome}

/-- Whatever roller showed the rolls of an outcome, their absolute values show them again. -/
theorem replay_of_roll (rolled : (expression.roll roller).runFrom start = (.ok outcome, finish))
    (rest : List Nat) :
    (expression.roll .replay).runFrom (outcome.rolls.map Int.natAbs ++ rest) =
      (.ok outcome, rest) := by
  obtain ⟨blocks, calls, rfl⟩ := runFrom_roll_eq_ok_iff.mp rolled
  exact runFrom_roll_ofDie_eq_ok_iff.mpr ⟨blocks.flatten,
    Roller.chain_nextFace_iff.mpr ⟨rfl, Roller.possible_of_blocks calls.blocks⟩, rfl⟩

end Expression

end Dice
