import Dice.Proofs.Roller.Calls

namespace Dice

open Rolling

variable {σ : Type}

theorem Sign.apply_inj {sign : Sign} {first second : Int} :
    sign.apply first = sign.apply second ↔ first = second := by
  cases sign <;> simp [Sign.apply]

namespace Roller

variable {die : Number → Rolling σ Nat} {term : Term} {start finish : σ}

/-- A die that shows one of its faces, behind a sign. -/
def Shows (die : Number → Rolling σ Nat) (each : Number × Sign) (start : σ) (roll : Int)
    (finish : σ) : Prop :=
  ∃ face : Nat, (die each.1).runFrom start = (.ok face, finish) ∧
    (1 ≤ face ∧ face ≤ each.1.val) ∧ roll = each.2.apply face

theorem signedDie_eq_ok_iff {each : Number × Sign} {roll : Int} :
    (signedDie die each.1 each.2).runFrom start = (.ok roll, finish) ↔
      Shows die each start roll finish := by
  rw [signedDie, runFrom_bind_eq_ok_iff]
  constructor
  · intro rolled
    obtain ⟨face, middle, drawn, checked⟩ := rolled
    split at checked
    · cases checked
    · rename_i inside
      cases checked
      exact ⟨face, drawn, by omega, rfl⟩
  · intro shown
    obtain ⟨face, drawn, inside, rfl⟩ := shown
    refine ⟨face, finish, drawn, ?_⟩
    rw [if_neg (by omega)]
    rfl

/-- A die that shows nothing to use: drawing it fails, or gives a face that it does not have. -/
inductive Misses (die : Number → Rolling σ Nat) (each : Number × Sign) (start : σ) :
    Fault → σ → Prop where
  | failed {fault : Fault} {finish : σ}
      (failed : (die each.1).runFrom start = (.error fault, finish)) :
      Misses die each start fault finish
  | badFace {face : Nat} {finish : σ} (drawn : (die each.1).runFrom start = (.ok face, finish))
      (outside : ¬ (1 ≤ face ∧ face ≤ each.1.val)) :
      Misses die each start (.badFace face each.1) finish

theorem signedDie_eq_error_iff {each : Number × Sign} {fault : Fault} :
    (signedDie die each.1 each.2).runFrom start = (.error fault, finish) ↔
      Misses die each start fault finish := by
  rw [signedDie, runFrom_bind_eq_error_iff]
  constructor
  · intro failed
    rcases failed with failed | ⟨face, middle, drawn, checked⟩
    · exact .failed failed
    · split at checked
      · rename_i outside
        cases checked
        exact .badFace drawn (by omega)
      · cases checked
  · intro missed
    rcases missed with failed | @⟨face, _, drawn, outside⟩
    · exact .inl failed
    · refine .inr ⟨face, finish, drawn, ?_⟩
      rw [if_pos (by omega)]
      rfl

theorem mapM_signedDie_eq_ok_iff {dice : List (Number × Sign)} {rolls : List Int} :
    (dice.mapM fun each => signedDie die each.1 each.2).runFrom start = (.ok rolls, finish) ↔
      Chain (Shows die) dice start rolls finish := by
  rw [runFrom_mapM_eq_ok_iff]
  exact ⟨Chain.imp fun _ _ _ _ => signedDie_eq_ok_iff.mp,
    Chain.imp fun _ _ _ _ => signedDie_eq_ok_iff.mpr⟩

private theorem range_of_shows {roll : Int}
    (shown : Shows die (term.sides, term.sign) start roll finish) :
    term.lowest ≤ roll ∧ roll ≤ term.highest := by
  obtain ⟨face, _, inside, rfl⟩ := shown
  exact Term.range_iff.mpr ⟨face, inside, rfl⟩

private theorem block_of_chain {count : Nat} {rolls : List Int}
    (chain : Chain (Shows die) (List.replicate count (term.sides, term.sign)) start rolls finish) :
    rolls.length = count ∧ ∀ roll ∈ rolls, term.lowest ≤ roll ∧ roll ≤ term.highest := by
  induction count generalizing start rolls with
  | zero =>
    cases chain
    exact ⟨rfl, List.forall_mem_nil _⟩
  | succ count ih =>
    cases chain with
    | cons first others =>
      obtain ⟨length, range⟩ := ih others
      exact ⟨congrArg Nat.succ length, List.forall_mem_cons.mpr ⟨range_of_shows first, range⟩⟩

/-- The rolls of a term that is rolled die by die pass the check of the whole term. -/
theorem block_of_eachDie {rolls : List Int}
    (rolled : (eachDie die term).runFrom start = (.ok rolls, finish)) : term.Block rolls := by
  obtain ⟨length, range⟩ := block_of_chain (mapM_signedDie_eq_ok_iff.mp rolled)
  exact ⟨length, range⟩

theorem checkedTerm_ofDie (term : Term) : (ofDie die).checkedTerm term = eachDie die term := by
  apply ext_runFrom
  intro start
  rcases rolled : (eachDie die term).runFrom start with ⟨fault | rolls, finish⟩
  · exact checkedTerm_eq_error_iff.mpr (.failed rolled)
  · exact checkedTerm_eq_ok_iff.mpr ⟨rolled, block_of_eachDie rolled⟩

end Roller

variable {die : Number → Rolling σ Nat} {start finish : σ}

theorem Formula.rolls_ofDie (formula : Formula) :
    formula.rolls (.ofDie die) =
      formula.dice.mapM fun each => Roller.signedDie die each.1 each.2 := by
  have unchecked : (Roller.ofDie die).checkedTerm = Roller.eachDie die :=
    funext Roller.checkedTerm_ofDie
  rw [Formula.rolls, Formula.dice, ← mapM_flatMap, unchecked]
  rfl

/-- An expression is rolled by showing its dice one after the other. -/
theorem Expression.runFrom_roll_ofDie_eq_ok_iff {expression : Expression} {outcome : Outcome} :
    (expression.roll (.ofDie die)).runFrom start = (.ok outcome, finish) ↔
      ∃ rolls, Chain (Roller.Shows die) expression.dice start rolls finish ∧
        outcome = .ofRolls expression rolls := by
  simp only [runFrom_roll_eq_ok_iff_rolls, Formula.rolls_ofDie, Roller.mapM_signedDie_eq_ok_iff]

/-- Rolling an expression fails as its first die that misses does, after the dice before it have
been shown. -/
theorem Expression.runFrom_roll_ofDie_eq_error_iff {expression : Expression} {fault : Fault} :
    (expression.roll (.ofDie die)).runFrom start = (.error fault, finish) ↔
      ∃ before each after rolls middle, expression.dice = before ++ each :: after ∧
        Chain (Roller.Shows die) before start rolls middle ∧
        Roller.Misses die each middle fault finish := by
  rw [runFrom_roll_eq_error_iff_rolls, Formula.rolls_ofDie, runFrom_mapM_eq_error_iff]
  constructor
  · intro failed
    obtain ⟨before, each, after, rolls, middle, split, chain, missed⟩ := failed
    exact ⟨before, each, after, rolls, middle, split,
      chain.imp fun _ _ _ _ => Roller.signedDie_eq_ok_iff.mp,
      Roller.signedDie_eq_error_iff.mp missed⟩
  · intro found
    obtain ⟨before, each, after, rolls, middle, split, chain, missed⟩ := found
    exact ⟨before, each, after, rolls, middle, split,
      chain.imp fun _ _ _ _ => Roller.signedDie_eq_ok_iff.mpr,
      Roller.signedDie_eq_error_iff.mpr missed⟩

theorem Expression.exists_miss_of_error {expression : Expression} {fault : Fault}
    (failed : (expression.roll (.ofDie die)).runFrom start = (.error fault, finish)) :
    ∃ each ∈ expression.dice, ∃ middle, Roller.Misses die each middle fault finish := by
  obtain ⟨before, each, after, rolls, middle, split, _, missed⟩ :=
    runFrom_roll_ofDie_eq_error_iff.mp failed
  refine ⟨each, ?_, middle, missed⟩
  rw [split]
  exact List.mem_append_right _ List.mem_cons_self

end Dice
