import Dice.Outcome
import Dice.Proofs.Rolling
import Dice.Proofs.Saturating
import Dice.Roller.Fixed

/-!
Rolling against rollers that may do anything.

The roller is asked for one term after the other. Rolling succeeds exactly if every answer has as
many rolls as the term has dice, all in its range; otherwise the first answer that has not decides
the fault, and no later term is asked for.
-/

namespace Dice

open Rolling

variable {σ : Type}

namespace Term

/-- Rolls that the dice of a term can show together. -/
structure Block (term : Term) (rolls : List Int) : Prop where
  length : rolls.length = term.count.val
  range : ∀ roll ∈ rolls, term.lowest ≤ roll ∧ roll ≤ term.highest

/-- What is wrong with rolls that the dice of a term cannot show: their number, or else the first
one out of range. -/
inductive Misfit (term : Term) (rolls : List Int) : Fault → Prop where
  | length (wrong : rolls.length ≠ term.count.val) :
      Misfit term rolls (.wrongLength rolls.length term)
  | range {front back : List Int} {roll : Int} (length : rolls.length = term.count.val)
      (split : rolls = front ++ roll :: back)
      (earlier : ∀ other ∈ front, term.lowest ≤ other ∧ other ≤ term.highest)
      (outside : ¬ (term.lowest ≤ roll ∧ roll ≤ term.highest)) :
      Misfit term rolls (.badRoll roll term)

variable {term : Term} {rolls : List Int} {fault : Fault}

theorem fault?_eq_none_iff : term.fault? rolls = none ↔ term.Block rolls := by
  unfold fault?
  split
  · rename_i wrong
    simp only [reduceCtorEq, false_iff]
    exact fun block => wrong block.length
  · rename_i length
    rw [Option.map_eq_none_iff, List.find?_eq_none]
    simp only [Bool.not_eq_true', Bool.not_eq_false, admits_iff]
    exact ⟨fun range => ⟨not_not.mp length, range⟩, Block.range⟩

theorem fault?_eq_some_iff : term.fault? rolls = some fault ↔ term.Misfit rolls fault := by
  unfold fault?
  split
  · rename_i wrong
    constructor
    · intro found
      cases found
      exact .length wrong
    · intro misfit
      rcases misfit with _ | ⟨length⟩
      · rfl
      · exact absurd length wrong
  · rename_i length
    simp only [Option.map_eq_some_iff, List.find?_eq_some_iff_append, Bool.not_eq_true',
      ← Bool.not_eq_true, admits_iff, Bool.not_not]
    constructor
    · intro found
      obtain ⟨roll, ⟨outside, front, back, split, earlier⟩, rfl⟩ := found
      exact .range (not_not.mp length) split earlier outside
    · intro misfit
      rcases misfit with wrong | ⟨_, split, earlier, outside⟩
      · exact absurd wrong length
      · exact ⟨_, ⟨outside, _, _, split, earlier⟩, rfl⟩

theorem length_flatten_of_blocks {terms : List Term} {blocks : List (List Int)}
    (fit : List.Forall₂ Block terms blocks) : blocks.flatten.length = diceCount terms := by
  induction fit with
  | nil => rfl
  | cons first others ih => rw [List.flatten_cons, List.length_append, first.length, ih, diceCount]

end Term

namespace Roller

/-- A call that is answered with rolls that the dice of the term can show. -/
def Answers (roller : Roller σ) (term : Term) (start : σ) (rolls : List Int) (finish : σ) : Prop :=
  (roller.term term).runFrom start = (.ok rolls, finish) ∧ term.Block rolls

/-- One such call for each term, in order, each from the state that the one before it left. -/
def Calls (roller : Roller σ) : List Term → σ → List (List Int) → σ → Prop :=
  Chain roller.Answers

/-- A call that gives no rolls to use: the roller itself fails, or something is wrong with what it
answers. -/
inductive Refuses (roller : Roller σ) (term : Term) (start : σ) : Fault → σ → Prop where
  | failed {fault : Fault} {finish : σ}
      (failed : (roller.term term).runFrom start = (.error fault, finish)) :
      Refuses roller term start fault finish
  | misfit {rolls : List Int} {fault : Fault} {finish : σ}
      (answered : (roller.term term).runFrom start = (.ok rolls, finish))
      (misfit : term.Misfit rolls fault) : Refuses roller term start fault finish

variable {roller : Roller σ} {term : Term} {rolls : List Int} {start finish : σ} {fault : Fault}

theorem checkedTerm_eq_ok_iff : (roller.checkedTerm term).runFrom start = (.ok rolls, finish) ↔
    roller.Answers term start rolls finish := by
  rw [checkedTerm, runFrom_bind_eq_ok_iff]
  constructor
  · intro rolled
    obtain ⟨other, middle, answered, checked⟩ := rolled
    cases found : term.fault? other with
    | none =>
      rw [found] at checked
      cases checked
      exact ⟨answered, Term.fault?_eq_none_iff.mp found⟩
    | some fault =>
      rw [found] at checked
      cases checked
  · intro answers
    obtain ⟨answered, block⟩ := answers
    refine ⟨rolls, finish, answered, ?_⟩
    rw [Term.fault?_eq_none_iff.mpr block]
    rfl

theorem checkedTerm_eq_error_iff :
    (roller.checkedTerm term).runFrom start = (.error fault, finish) ↔
      roller.Refuses term start fault finish := by
  rw [checkedTerm, runFrom_bind_eq_error_iff]
  constructor
  · intro failed
    rcases failed with failed | ⟨other, middle, answered, checked⟩
    · exact .failed failed
    · cases found : term.fault? other with
      | none =>
        rw [found] at checked
        cases checked
      | some fault =>
        rw [found] at checked
        cases checked
        exact .misfit answered (Term.fault?_eq_some_iff.mp found)
  · intro refused
    rcases refused with failed | ⟨answered, misfit⟩
    · exact .inl failed
    · refine .inr ⟨_, finish, answered, ?_⟩
      rw [Term.fault?_eq_some_iff.mpr misfit]
      rfl

theorem Calls.blocks {terms : List Term} {blocks : List (List Int)}
    (calls : roller.Calls terms start blocks finish) : List.Forall₂ Term.Block terms blocks :=
  Chain.forall₂ (fun _ _ _ _ answers => answers.2) calls

theorem calls_iff {terms : List Term} {blocks : List (List Int)} :
    Chain (fun term start rolls finish =>
        (roller.checkedTerm term).runFrom start = (.ok rolls, finish)) terms start blocks finish ↔
      roller.Calls terms start blocks finish :=
  ⟨Chain.imp fun _ _ _ _ => checkedTerm_eq_ok_iff.mp,
    Chain.imp fun _ _ _ _ => checkedTerm_eq_ok_iff.mpr⟩

/-- The same roller, with a list of the terms that it was asked for. -/
def logged (roller : Roller σ) : Roller (σ × List Term) where
  die sides := ExceptT.mk fun state => ((roller.die sides).runFrom state.1).map id (·, state.2)
  term term := ExceptT.mk fun state =>
    ((roller.term term).runFrom state.1).map id (·, state.2 ++ [term])

theorem runFrom_term_logged {result : Except Fault (List Int)}
    (called : (roller.term term).runFrom start = (result, finish)) (asked : List Term) :
    (roller.logged.term term).runFrom (start, asked) = (result, (finish, asked ++ [term])) := by
  change ((roller.term term).runFrom start).map id (·, asked ++ [term]) = _
  rw [called]
  rfl

/-- Calls are logged one by one, and the log does not disturb them. -/
theorem Calls.logged {terms : List Term} {blocks : List (List Int)}
    (calls : roller.Calls terms start blocks finish) (asked : List Term) :
    roller.logged.Calls terms (start, asked) blocks (finish, asked ++ terms) := by
  induction calls generalizing asked with
  | nil =>
    rw [List.append_nil]
    exact .nil
  | cons first others ih =>
    rw [List.append_cons]
    exact .cons ⟨runFrom_term_logged first.1 asked, first.2⟩ (ih _)

theorem Refuses.logged (refused : roller.Refuses term start fault finish) (asked : List Term) :
    roller.logged.Refuses term (start, asked) fault (finish, asked ++ [term]) := by
  cases refused with
  | failed failed => exact .failed (runFrom_term_logged failed asked)
  | misfit answered misfit => exact .misfit (runFrom_term_logged answered asked) misfit

end Roller

/-- The rolls of all terms in order, without their total. -/
def Formula.rolls (formula : Formula) (roller : Roller σ) : Rolling σ (List Int) := do
  let blocks ← formula.terms.mapM roller.checkedTerm
  return blocks.flatten

/-- The outcome of an expression that has shown these rolls. -/
def Outcome.ofRolls (expression : Expression) (rolls : List Int) : Outcome where
  expression := expression
  rolls := rolls
  total := Saturating.sum expression.modifier rolls

@[simp]
theorem Outcome.rolls_ofRolls (expression : Expression) (rolls : List Int) :
    (ofRolls expression rolls).rolls = rolls :=
  rfl

theorem Tally.foldl_add (tally : Tally) (blocks : List (List Int)) :
    blocks.foldl add tally =
      ⟨tally.rolls ++ blocks.flatten, Saturating.sum tally.total blocks.flatten⟩ := by
  induction blocks generalizing tally with
  | nil => simp
  | cons block blocks ih => simp [ih, add, Saturating.sum_append]

/-- The running total comes to the total of all rolls. -/
theorem Formula.roll_eq (formula : Formula) (roller : Roller σ) : formula.roll roller =
    (fun rolls => ⟨rolls, Saturating.sum formula.modifier rolls⟩) <$> formula.rolls roller := by
  have added : List.foldl Tally.add ⟨[], formula.modifier⟩ =
      fun blocks => ⟨blocks.flatten, Saturating.sum formula.modifier blocks.flatten⟩ :=
    funext fun blocks => Tally.foldl_add ⟨[], formula.modifier⟩ blocks
  rw [roll, rolls, foldlM_map_eq, added]
  simp

theorem Expression.roll_eq (expression : Expression) (roller : Roller σ) :
    expression.roll roller = Outcome.ofRolls expression <$> expression.toFormula.rolls roller := by
  rw [roll, Formula.roll_eq, bind_map_left, map_eq_pure_bind]
  rfl

section

variable {roller : Roller σ} {formula : Formula} {start finish : σ} {fault : Fault}

theorem Formula.runFrom_rolls_eq_ok_iff {rolls : List Int} :
    (formula.rolls roller).runFrom start = (.ok rolls, finish) ↔
      ∃ blocks, roller.Calls formula.terms start blocks finish ∧ rolls = blocks.flatten := by
  rw [Formula.rolls, runFrom_bind_eq_ok_iff]
  constructor
  · intro rolled
    obtain ⟨blocks, middle, rolled, ⟨⟩⟩ := rolled
    exact ⟨blocks, Roller.calls_iff.mp (runFrom_mapM_eq_ok_iff.mp rolled), rfl⟩
  · intro answered
    obtain ⟨blocks, calls, rfl⟩ := answered
    exact ⟨blocks, finish, runFrom_mapM_eq_ok_iff.mpr (Roller.calls_iff.mpr calls), rfl⟩

theorem Formula.runFrom_rolls_eq_error_iff :
    (formula.rolls roller).runFrom start = (.error fault, finish) ↔
      ∃ before term later blocks middle, formula.terms = before ++ term :: later ∧
        roller.Calls before start blocks middle ∧ roller.Refuses term middle fault finish := by
  rw [Formula.rolls, runFrom_bind_eq_error_iff]
  constructor
  · intro failed
    rcases failed with failed | ⟨_, _, _, ⟨⟩⟩
    obtain ⟨before, term, later, blocks, middle, split, chain, refused⟩ :=
      runFrom_mapM_eq_error_iff.mp failed
    exact ⟨before, term, later, blocks, middle, split, Roller.calls_iff.mp chain,
      Roller.checkedTerm_eq_error_iff.mp refused⟩
  · intro refused
    obtain ⟨before, term, later, blocks, middle, split, calls, refused⟩ := refused
    exact .inl (runFrom_mapM_eq_error_iff.mpr ⟨before, term, later, blocks, middle, split,
      Roller.calls_iff.mpr calls, Roller.checkedTerm_eq_error_iff.mpr refused⟩)

end

namespace Expression

variable {expression : Expression} {roller : Roller σ} {start finish : σ}

theorem runFrom_roll_eq_ok_iff_rolls {outcome : Outcome} :
    (expression.roll roller).runFrom start = (.ok outcome, finish) ↔
      ∃ rolls, (expression.toFormula.rolls roller).runFrom start = (.ok rolls, finish) ∧
        outcome = .ofRolls expression rolls := by
  rw [roll_eq, map_eq_pure_bind, runFrom_bind_eq_ok_iff]
  constructor
  · intro rolled
    obtain ⟨rolls, middle, rolled, ⟨⟩⟩ := rolled
    exact ⟨rolls, rolled, rfl⟩
  · intro answered
    obtain ⟨rolls, rolled, rfl⟩ := answered
    exact ⟨rolls, finish, rolled, rfl⟩

theorem runFrom_roll_eq_error_iff_rolls {fault : Fault} :
    (expression.roll roller).runFrom start = (.error fault, finish) ↔
      (expression.toFormula.rolls roller).runFrom start = (.error fault, finish) := by
  rw [roll_eq, map_eq_pure_bind, runFrom_bind_eq_error_iff]
  constructor
  · intro failed
    rcases failed with failed | ⟨_, _, _, ⟨⟩⟩
    exact failed
  · exact .inl

theorem runFrom_roll_eq_ok_iff {outcome : Outcome} :
    (expression.roll roller).runFrom start = (.ok outcome, finish) ↔
      ∃ blocks, roller.Calls expression.terms start blocks finish ∧
        outcome = .ofRolls expression blocks.flatten := by
  rw [runFrom_roll_eq_ok_iff_rolls]
  constructor
  · intro rolled
    obtain ⟨rolls, rolled, rfl⟩ := rolled
    obtain ⟨blocks, calls, rfl⟩ := Formula.runFrom_rolls_eq_ok_iff.mp rolled
    exact ⟨blocks, calls, rfl⟩
  · intro answered
    obtain ⟨blocks, calls, rfl⟩ := answered
    exact ⟨_, Formula.runFrom_rolls_eq_ok_iff.mpr ⟨blocks, calls, rfl⟩, rfl⟩

theorem runFrom_roll_eq_error_iff {fault : Fault} :
    (expression.roll roller).runFrom start = (.error fault, finish) ↔
      ∃ before term later blocks middle, expression.terms = before ++ term :: later ∧
        roller.Calls before start blocks middle ∧ roller.Refuses term middle fault finish := by
  rw [runFrom_roll_eq_error_iff_rolls, Formula.runFrom_rolls_eq_error_iff]

theorem eq_ofRolls_iff {outcome : Outcome} {rolls : List Int} :
    outcome = .ofRolls expression rolls ↔ outcome.expression = expression ∧
      outcome.rolls = rolls ∧ outcome.total = Saturating.sum expression.modifier rolls := by
  constructor
  · rintro rfl
    exact ⟨rfl, rfl, rfl⟩
  · rcases outcome with ⟨other, shown, total⟩
    rintro ⟨rfl, rfl, same⟩
    exact congrArg (Outcome.mk other shown) same

/-- Rolling succeeds exactly if all calls are answered with rolls that the terms can show; it gives
these rolls in order, and the total that they come to one by one. It fails exactly as the first call
that is refused does, leaves the roller as that call did, and makes no further one. -/
theorem roll_iff_calls (expression : Expression) (roller : Roller σ) (start : σ) :
    (∀ outcome finish, (expression.roll roller).runFrom start = (.ok outcome, finish) ↔
      ∃ blocks, roller.Calls expression.terms start blocks finish ∧
        outcome.expression = expression ∧ outcome.rolls = blocks.flatten ∧
        outcome.total.toInt = blocks.flatten.foldl
          (fun total roll => Saturating.clamp (total + roll)) expression.modifier.toInt) ∧
    (∀ outcome finish, (expression.roll roller).runFrom start = (.ok outcome, finish) →
      outcome.rolls.length = expression.diceCount ∧
        (expression.roll roller.logged).runFrom (start, []) =
          (.ok outcome, (finish, expression.terms))) ∧
    (∀ fault finish, (expression.roll roller).runFrom start = (.error fault, finish) ↔
      ∃ before term later blocks middle, expression.terms = before ++ term :: later ∧
        roller.Calls before start blocks middle ∧ roller.Refuses term middle fault finish) ∧
    ∀ before term later blocks middle fault finish, expression.terms = before ++ term :: later →
      roller.Calls before start blocks middle → roller.Refuses term middle fault finish →
        (expression.roll roller.logged).runFrom (start, []) =
          (.error fault, (finish, before ++ [term])) := by
  refine ⟨fun outcome finish => ?_, fun outcome finish rolled => ?_,
    fun fault finish => runFrom_roll_eq_error_iff, ?_⟩
  · simp only [runFrom_roll_eq_ok_iff, eq_ofRolls_iff, ← Saturating.toInt_sum_eq, Int64.toInt_inj]
  · obtain ⟨blocks, calls, rfl⟩ := runFrom_roll_eq_ok_iff.mp rolled
    exact ⟨Term.length_flatten_of_blocks calls.blocks,
      runFrom_roll_eq_ok_iff.mpr ⟨blocks, calls.logged [], rfl⟩⟩
  · intro before term later blocks middle fault finish split calls refused
    exact runFrom_roll_eq_error_iff.mpr ⟨before, term, later, blocks, (middle, before), split,
      calls.logged [], refused.logged before⟩

/-- A total at the end of its range, where two of the four that the second roll adds are lost; and
an answer with a roll too many, of which no term can show the last one either. -/
theorem roll_of_prepared_lists : ∃ formula double single,
    double = (⟨⟨2, by decide, by decide⟩, ⟨6, by decide, by decide⟩, .positive⟩ : Term) ∧
    single = (⟨.one, ⟨4, by decide, by decide⟩, .negative⟩ : Term) ∧
    Formula.ofTerms? [double, single] (Int64.maxValue - 5) = some formula ∧
    ((ofFormula formula).roll .prepared).runFrom [[3, 4], [-2], [9]] =
      (.ok ⟨ofFormula formula, [3, 4, -2], Int64.maxValue - 2⟩, [[9]]) ∧
    ((ofFormula formula).roll Roller.prepared.logged).runFrom ([[3, 4], [-2], [9]], []) =
      (.ok ⟨ofFormula formula, [3, 4, -2], Int64.maxValue - 2⟩, ([[9]], [double, single])) ∧
    ((ofFormula formula).roll Roller.prepared.logged).runFrom ([[3, 4, 7], [-2]], []) =
      (.error (.wrongLength 3 double), ([[-2]], [double])) := by
  refine ⟨_, ⟨⟨2, by decide, by decide⟩, ⟨6, by decide, by decide⟩, .positive⟩,
    ⟨.one, ⟨4, by decide, by decide⟩, .negative⟩, rfl, rfl, rfl, ?_⟩
  have answers := roll_iff_calls (ofFormula ⟨[⟨⟨2, by decide, by decide⟩,
    ⟨6, by decide, by decide⟩, .positive⟩, ⟨.one, ⟨4, by decide, by decide⟩, .negative⟩],
      List.cons_ne_nil _ _, Int64.maxValue - 5⟩) .prepared
  have calls : Roller.Calls .prepared [⟨⟨2, by decide, by decide⟩, ⟨6, by decide, by decide⟩,
      .positive⟩, ⟨.one, ⟨4, by decide, by decide⟩, .negative⟩] [[3, 4], [-2], [9]] [[3, 4], [-2]]
        [[9]] :=
    .cons ⟨rfl, rfl, by decide⟩ (.cons ⟨rfl, rfl, by decide⟩ .nil)
  have rolled := ((answers [[3, 4], [-2], [9]]).1
    ⟨_, [3, 4, -2], Int64.maxValue - 2⟩ [[9]]).mpr ⟨_, calls, rfl, rfl, by decide⟩
  refine ⟨rolled, ((answers _).2.1 _ _ rolled).2, ?_⟩
  exact (answers [[3, 4, 7], [-2]]).2.2.2 [] _ _ [] _ _ _ rfl .nil
    (.misfit rfl (.length (by decide)))

end Expression

end Dice
