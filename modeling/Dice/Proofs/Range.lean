import Dice.Proofs.Reach
import Dice.Proofs.Roller.Replay

/-!
The range of the totals that an expression can show.

Whatever the other dice show, a die can show each of its faces. So with room for all sums the totals
are the integers from a least one to a greatest one, without a gap, and there is a single one
exactly if no die has more than one side.
-/

namespace Dice

open Rolling Roller

namespace Term

/-- The terms that carry the sign. -/
def ofSign (sign : Sign) (terms : List Term) : List Term :=
  terms.filter fun term => term.sign = sign

/-- One die as a term of its own. -/
def single (die : Number × Sign) : Term :=
  ⟨.one, die.1, die.2⟩

def sumOf (value : Term → Int) (dice : List (Number × Sign)) : Int :=
  (dice.map fun die => value (single die)).sum

theorem lowest_le_highest (term : Term) : term.lowest ≤ term.highest := by
  have sides := term.sides.pos
  unfold lowest highest
  cases term.sign <;> simp only <;> omega

theorem lowest_eq_highest_iff {term : Term} :
    term.lowest = term.highest ↔ term.sides.val = 1 := by
  unfold lowest highest
  cases term.sign <;> simp only <;> omega

theorem possible_iff {die : Number × Sign} {roll : Int} : Possible die roll ↔
    (single die).lowest ≤ roll ∧ roll ≤ (single die).highest :=
  (@range_iff (single die) roll).symm

section

variable {value : Term → Int} {dice : List (Number × Sign)}

@[simp] theorem sumOf_nil : sumOf value [] = 0 := rfl

@[simp] theorem sumOf_cons (die : Number × Sign) (dice : List (Number × Sign)) :
    sumOf value (die :: dice) = value (single die) + sumOf value dice :=
  List.sum_cons

theorem sumOf_append (front back : List (Number × Sign)) :
    sumOf value (front ++ back) = sumOf value front + sumOf value back := by
  rw [sumOf, List.map_append, List.sum_append, sumOf, sumOf]

theorem sumOf_dice (term : Term) :
    sumOf value term.dice = term.count.val * value (single (term.sides, term.sign)) := by
  rw [sumOf, dice, List.map_replicate, List.sum_replicate, nsmul_eq_mul]

theorem sumOf_lowest_le_highest (dice : List (Number × Sign)) :
    sumOf lowest dice ≤ sumOf highest dice :=
  List.sum_le_sum fun die _ => (single die).lowest_le_highest

theorem sumOf_lowest_eq_highest_iff :
    sumOf lowest dice = sumOf highest dice ↔ ∀ die ∈ dice, die.1.val = 1 := by
  induction dice with
  | nil => simp
  | cons die dice ih =>
    have first := (single die).lowest_le_highest
    have others := sumOf_lowest_le_highest dice
    have one : (single die).lowest = (single die).highest ↔ die.1.val = 1 := lowest_eq_highest_iff
    rw [List.forall_mem_cons, ← one, ← ih, sumOf_cons, sumOf_cons]
    omega

/-- Dice can show rolls with a sum exactly if it is in their range. -/
theorem exists_possible_iff {sum : Int} :
    (∃ rolls, List.Forall₂ Possible dice rolls ∧ rolls.sum = sum) ↔
      sumOf lowest dice ≤ sum ∧ sum ≤ sumOf highest dice := by
  induction dice generalizing sum with
  | nil => simp [eq_comm, Int.le_antisymm_iff, and_comm]
  | cons die dice ih =>
    rw [sumOf_cons, sumOf_cons]
    constructor
    · intro shown
      obtain ⟨_, possible, rfl⟩ := shown
      cases possible with
      | cons first others =>
        have range := possible_iff.mp first
        have rest := ih.mp ⟨_, others, rfl⟩
        rw [List.sum_cons]
        omega
    · intro range
      have first := (single die).lowest_le_highest
      have others := sumOf_lowest_le_highest dice
      -- The first die shows as little as the other dice can make up for.
      obtain ⟨roll, inside, low, high⟩ : ∃ roll,
          ((single die).lowest ≤ roll ∧ roll ≤ (single die).highest) ∧
            sumOf lowest dice ≤ sum - roll ∧ sum - roll ≤ sumOf highest dice :=
        ⟨max (single die).lowest (sum - sumOf highest dice), by omega, by omega, by omega⟩
      obtain ⟨rolls, possible, rest⟩ := ih.mpr ⟨low, high⟩
      refine ⟨roll :: rolls, .cons (possible_iff.mpr inside) possible, ?_⟩
      rw [List.sum_cons, rest]
      omega

end

/-- At the least, a positive die adds one and a negative one takes all its sides away. -/
theorem sumOf_lowest_flatMap_dice (terms : List Term) : sumOf lowest (terms.flatMap dice) =
    diceCount (ofSign .positive terms) - reach (ofSign .negative terms) := by
  induction terms with
  | nil => rfl
  | cons term terms ih =>
    rw [List.flatMap_cons, sumOf_append, sumOf_dice, ih]
    cases sign : term.sign <;>
      simp [ofSign, single, lowest, sign, diceCount, reach] <;> ring

/-- At the most, a positive die adds all its sides and a negative one takes one away. -/
theorem sumOf_highest_flatMap_dice (terms : List Term) : sumOf highest (terms.flatMap dice) =
    reach (ofSign .positive terms) - diceCount (ofSign .negative terms) := by
  induction terms with
  | nil => rfl
  | cons term terms ih =>
    rw [List.flatMap_cons, sumOf_append, sumOf_dice, ih]
    cases sign : term.sign <;>
      simp [ofSign, single, highest, sign, diceCount, reach] <;> ring

end Term

namespace Formula

/-- The modifier, with one for each positive die and without the sides of each negative one. -/
def leastTotal (formula : Formula) : Int :=
  formula.modifier.toInt + Term.diceCount (Term.ofSign .positive formula.terms) -
    Term.reach (Term.ofSign .negative formula.terms)

/-- The modifier, with the sides of each positive die and without one for each negative one. -/
def greatestTotal (formula : Formula) : Int :=
  formula.modifier.toInt + Term.reach (Term.ofSign .positive formula.terms) -
    Term.diceCount (Term.ofSign .negative formula.terms)

variable {formula : Formula}

theorem leastTotal_eq (formula : Formula) :
    formula.leastTotal = formula.modifier.toInt + Term.sumOf Term.lowest formula.dice := by
  rw [leastTotal, dice, Term.sumOf_lowest_flatMap_dice, add_sub_assoc]

theorem greatestTotal_eq (formula : Formula) :
    formula.greatestTotal = formula.modifier.toInt + Term.sumOf Term.highest formula.dice := by
  rw [greatestTotal, dice, Term.sumOf_highest_flatMap_dice, add_sub_assoc]

theorem isDeterministic_iff :
    formula.isDeterministic = true ↔ ∀ die ∈ formula.dice, die.1.val = 1 := by
  simp only [isDeterministic, List.all_eq_true, decide_eq_true_eq, dice, List.mem_flatMap]
  constructor
  · intro one die shown
    obtain ⟨term, member, inside⟩ := shown
    rw [List.eq_of_mem_replicate inside]
    exact one term member
  · intro one term member
    exact one (term.sides, term.sign) ⟨term, member,
      List.mem_replicate.mpr ⟨Nat.pos_iff_ne_zero.mp term.count.pos, rfl⟩⟩

theorem isDeterministic_iff_totals :
    formula.isDeterministic = true ↔ formula.leastTotal = formula.greatestTotal := by
  rw [isDeterministic_iff, ← Term.sumOf_lowest_eq_highest_iff, leastTotal_eq, greatestTotal_eq,
    add_right_inj]

end Formula

namespace Expression

variable {expression : Expression}

theorem total_range {σ : Type} {roller : Roller σ} {start finish : σ} {outcome : Outcome}
    (room : expression.modifier.toInt.natAbs + Term.reach expression.terms < 2 ^ 63)
    (rolled : (expression.roll roller).runFrom start = (.ok outcome, finish)) :
    expression.leastTotal ≤ outcome.total.toInt ∧
      outcome.total.toInt ≤ expression.greatestTotal := by
  obtain ⟨_, total⟩ := unclamped_of_reach room rolled
  obtain ⟨blocks, calls, rfl⟩ := runFrom_roll_eq_ok_iff.mp rolled
  have range := Term.exists_possible_iff.mp ⟨_, possible_of_blocks calls.blocks, rfl⟩
  rw [Formula.leastTotal_eq, Formula.greatestTotal_eq, total]
  exact ⟨Int.add_le_add_left range.1 _, Int.add_le_add_left range.2 _⟩

theorem exists_replay_of_total
    (room : expression.modifier.toInt.natAbs + Term.reach expression.terms < 2 ^ 63) {total : Int}
    (low : expression.leastTotal ≤ total) (high : total ≤ expression.greatestTotal) :
    ∃ faces outcome, (∀ face ∈ faces, face < 65536) ∧
      (expression.roll .replay).runFrom faces = (.ok outcome, []) ∧
      outcome.total.toInt = total := by
  rw [Formula.leastTotal_eq] at low
  rw [Formula.greatestTotal_eq] at high
  have range : Term.sumOf Term.lowest expression.dice ≤ total - expression.modifier.toInt ∧
      total - expression.modifier.toInt ≤ Term.sumOf Term.highest expression.dice := by omega
  obtain ⟨rolls, possible, sum⟩ := Term.exists_possible_iff.mpr range
  have rolled : (expression.roll .replay).runFrom (rolls.map Int.natAbs) =
      (.ok (.ofRolls expression rolls), []) :=
    runFrom_roll_ofDie_eq_ok_iff.mpr
      ⟨rolls, chain_nextFace_iff.mpr ⟨(List.append_nil _).symm, possible⟩, rfl⟩
  obtain ⟨_, exact⟩ := unclamped_of_reach room rolled
  refine ⟨_, _, ?_, rolled, ?_⟩
  · intro face member
    obtain ⟨roll, shown, rfl⟩ := List.mem_map.mp member
    obtain ⟨blocks, calls, same⟩ := runFrom_roll_eq_ok_iff.mp rolled
    cases congrArg Outcome.rolls same
    exact Nat.lt_succ_of_le (Term.natAbs_le_of_blocks calls.blocks roll shown)
  · rw [exact, Outcome.rolls_ofRolls, sum]
    omega

theorem leastTotal_le_greatestTotal (expression : Expression) :
    expression.leastTotal ≤ expression.greatestTotal := by
  rw [Formula.leastTotal_eq, Formula.greatestTotal_eq]
  exact Int.add_le_add_left (Term.sumOf_lowest_le_highest _) _

/-- With room for all sums, the totals of an expression are exactly the integers from the least one
to the greatest one, and faces that are replayed reach each of them. There is one total only if no
die has more than one side, and then all rolls agree on it. -/
theorem totals_of_rolls
    (room : expression.modifier.toInt.natAbs + Term.reach expression.terms < 2 ^ 63) :
    (∀ {σ : Type} (roller : Roller σ) (start finish : σ) (outcome : Outcome),
      (expression.roll roller).runFrom start = (.ok outcome, finish) →
        expression.leastTotal ≤ outcome.total.toInt ∧
          outcome.total.toInt ≤ expression.greatestTotal) ∧
    (∀ total : Int, expression.leastTotal ≤ total → total ≤ expression.greatestTotal →
      ∃ faces outcome, (∀ face ∈ faces, face < 65536) ∧
        (expression.roll .replay).runFrom faces = (.ok outcome, []) ∧
        outcome.total.toInt = total) ∧
    (expression.isDeterministic = true ↔ expression.leastTotal = expression.greatestTotal) ∧
    (expression.isDeterministic = true ↔
      ∀ {σ τ : Type} (roller : Roller σ) (other : Roller τ) (start finish : σ)
        (start' finish' : τ) (outcome outcome' : Outcome),
        (expression.roll roller).runFrom start = (.ok outcome, finish) →
        (expression.roll other).runFrom start' = (.ok outcome', finish') →
          outcome.total = outcome'.total) := by
  refine ⟨fun _ _ _ _ => total_range room, fun _ => exists_replay_of_total room,
    Formula.isDeterministic_iff_totals, ?_⟩
  rw [Formula.isDeterministic_iff_totals]
  constructor
  · intro one σ τ roller other start finish start' finish' outcome outcome' rolled rolled'
    have first := total_range room rolled
    have second := total_range room rolled'
    apply Int64.toInt_inj.mp
    omega
  · intro agree
    have between := expression.leastTotal_le_greatestTotal
    obtain ⟨_, least, _, low, leastTotal⟩ := exists_replay_of_total room (le_refl _) between
    obtain ⟨_, greatest, _, high, greatestTotal⟩ := exists_replay_of_total room between (le_refl _)
    rw [← leastTotal, ← greatestTotal, agree _ _ _ _ _ _ _ _ low high]

/-- Two dice of six sides, without one of four sides, and one: everything from -1 to 12. -/
theorem totals_of_mixed_rolls : ∃ formula,
    Formula.ofTerms? [⟨⟨2, by decide, by decide⟩, ⟨6, by decide, by decide⟩, .positive⟩,
      ⟨.one, ⟨4, by decide, by decide⟩, .negative⟩] 1 = some formula ∧
    formula.modifier.toInt.natAbs + Term.reach formula.terms < 2 ^ 63 ∧
    formula.leastTotal = -1 ∧ formula.greatestTotal = 12 ∧ formula.isDeterministic = false ∧
    (∀ {σ : Type} (roller : Roller σ) (start finish : σ) (outcome : Outcome),
      ((ofFormula formula).roll roller).runFrom start = (.ok outcome, finish) →
        -1 ≤ outcome.total.toInt ∧ outcome.total.toInt ≤ 12) ∧
    ∀ total : Int, -1 ≤ total → total ≤ 12 → ∃ faces outcome, (∀ face ∈ faces, face < 65536) ∧
      ((ofFormula formula).roll .replay).runFrom faces = (.ok outcome, []) ∧
      outcome.total.toInt = total := by
  obtain ⟨formula, built⟩ : ∃ formula, Formula.ofTerms?
      [⟨⟨2, by decide, by decide⟩, ⟨6, by decide, by decide⟩, .positive⟩,
        ⟨.one, ⟨4, by decide, by decide⟩, .negative⟩] 1 = some formula := ⟨_, rfl⟩
  obtain ⟨terms, modifier⟩ := Formula.ofTerms?_eq_some_iff.mp built
  have room : formula.modifier.toInt.natAbs + Term.reach formula.terms < 2 ^ 63 := by
    rw [terms, modifier]
    decide
  have least : formula.leastTotal = -1 := by
    rw [Formula.leastTotal, terms, modifier]
    decide
  have greatest : formula.greatestTotal = 12 := by
    rw [Formula.greatestTotal, terms, modifier]
    decide
  obtain ⟨inside, attained, one, _⟩ := @totals_of_rolls (ofFormula formula) room
  change formula.isDeterministic = true ↔ formula.leastTotal = formula.greatestTotal at one
  rw [least, greatest] at one
  refine ⟨formula, built, room, least, greatest, by simpa using one, ?_, ?_⟩
  · rw [← least, ← greatest]
    exact inside
  · rw [← least, ← greatest]
    exact attained

end Expression

end Dice
