import Dice.Proofs.Roller.Flat
import Dice.Roller.Secure

/-!
Dice drawn from a tape of words and failures.

Each die takes a block of words: those that are drawn again, and the one that it keeps. Rolling
succeeds exactly if the tape starts with a block for every die, and takes no more than these. If it
does not, the words are drawn up to the first failure on the tape, or all of them.
-/

namespace Dice

open Rolling Roller

namespace Tape

variable {sides : Number} {tape rest : Tape} {word : UInt32} {face : Nat} {fault : Fault}

/-- A face is drawn by passing over the words that are drawn again, up to the first that is not. -/
theorem drawFace_eq_ok_iff : drawFace sides tape = (.ok face, rest) ↔
    ∃ (redrawn : List UInt32) (word : UInt32),
      tape = redrawn.map Draw.word ++ .word word :: rest ∧
        (∀ other ∈ redrawn, other < bound sides) ∧ ¬ word < bound sides ∧
        face = Tape.face sides word := by
  induction tape with
  | nil =>
    constructor
    · intro drawn
      cases drawn
    · intro found
      obtain ⟨redrawn, word, split, _⟩ := found
      cases redrawn <;> cases split
  | cons draw tape ih =>
    cases draw with
    | failure reason =>
      constructor
      · intro drawn
        cases drawn
      · intro found
        obtain ⟨redrawn, word, split, _⟩ := found
        cases redrawn <;> cases split
    | word first =>
      rw [drawFace]
      split
      · rename_i low
        rw [ih]
        constructor
        · intro found
          obtain ⟨redrawn, word, rfl, lows, high, rfl⟩ := found
          exact ⟨first :: redrawn, word, rfl, List.forall_mem_cons.mpr ⟨low, lows⟩, high, rfl⟩
        · intro found
          obtain ⟨redrawn, word, split, lows, high, rfl⟩ := found
          cases redrawn with
          | nil =>
            cases split
            exact absurd low high
          | cons other redrawn =>
            cases split
            exact ⟨redrawn, word, rfl, (List.forall_mem_cons.mp lows).2, high, rfl⟩
      · rename_i high
        constructor
        · intro drawn
          cases drawn
          exact ⟨[], first, rfl, List.forall_mem_nil _, high, rfl⟩
        · intro found
          obtain ⟨redrawn, word, split, lows, _, rfl⟩ := found
          cases redrawn with
          | nil =>
            cases split
            rfl
          | cons other redrawn =>
            cases split
            exact absurd (List.forall_mem_cons.mp lows).1 high

theorem lt_bound_iff : word < bound sides ↔ word.toNat < 2 ^ 32 % sides.val := by
  rw [UInt32.lt_iff_toNat_lt, toNat_bound]
  rfl

/-- Words for dice, one block after the other, and the rolls that they stand for. -/
inductive Blocks : List (Number × Sign) → List UInt32 → List Int → Prop where
  | nil : Blocks [] [] []
  | cons {sides : Number} {sign : Sign} {dice : List (Number × Sign)} {redrawn words : List UInt32}
      {word : UInt32} {rolls : List Int}
      (again : ∀ other ∈ redrawn, other.toNat < 2 ^ 32 % sides.val)
      (kept : 2 ^ 32 % sides.val ≤ word.toNat) (others : Blocks dice words rolls) :
      Blocks ((sides, sign) :: dice) (redrawn ++ word :: words)
        (sign.apply (word.toNat % sides.val + 1 : Nat) :: rolls)

/-- How drawing ends where no word is kept: with the first failure, which is drawn like the words
before it, or with the tape. -/
inductive Ends : Tape → Fault → Tape → Prop where
  | failure {reason : String} {rest : Tape} :
      Ends (.failure reason :: rest) (.reported reason) rest
  | finished : Ends [] .tapeFinished []
  | word {word : UInt32} {tape rest : Tape} {fault : Fault} (later : Ends tape fault rest) :
      Ends (.word word :: tape) fault rest

theorem Ends.append (ends : Ends tape fault rest) (words : List UInt32) :
    Ends (words.map Draw.word ++ tape) fault rest := by
  induction words with
  | nil => exact ends
  | cons word words ih => exact .word ih

theorem Ends.unique (ends : Ends tape fault rest) {other : Fault} {rest' : Tape}
    (also : Ends tape other rest') : other = fault ∧ rest' = rest := by
  induction ends with
  | failure =>
    cases also
    exact ⟨rfl, rfl⟩
  | finished =>
    cases also
    exact ⟨rfl, rfl⟩
  | word later ih =>
    cases also with
    | word also => exact ih also

theorem ends_of_drawFace (failed : drawFace sides tape = (.error fault, rest)) :
    Ends tape fault rest := by
  induction tape with
  | nil =>
    cases failed
    exact .finished
  | cons draw tape ih =>
    cases draw with
    | failure reason =>
      cases failed
      exact .failure
    | word word =>
      rw [drawFace] at failed
      split at failed
      · exact .word (ih failed)
      · cases failed

/-- The secure roller shows only faces that the die has. -/
theorem face_of_die (drawn : (secure.die sides).runFrom tape = (.ok face, rest)) :
    1 ≤ face ∧ face ≤ sides.val := by
  obtain ⟨_, word, _, _, _, rfl⟩ := drawFace_eq_ok_iff.mp drawn
  exact ⟨face_pos sides word, face_le sides word⟩

section

variable {dice : List (Number × Sign)} {words : List UInt32} {rolls : List Int}

theorem shows_secure_iff {sign : Sign} {roll : Int} :
    Shows secure.die (sides, sign) tape roll rest ↔
      ∃ (redrawn : List UInt32) (word : UInt32),
        tape = redrawn.map Draw.word ++ .word word :: rest ∧
          (∀ other ∈ redrawn, other.toNat < 2 ^ 32 % sides.val) ∧
          2 ^ 32 % sides.val ≤ word.toNat ∧
          roll = sign.apply (word.toNat % sides.val + 1 : Nat) := by
  constructor
  · intro shown
    obtain ⟨face, drawn, _, rfl⟩ := shown
    obtain ⟨redrawn, word, split, lows, high, rfl⟩ := drawFace_eq_ok_iff.mp drawn
    rw [lt_bound_iff, Nat.not_lt] at high
    refine ⟨redrawn, word, split, fun other member => lt_bound_iff.mp (lows other member), high, ?_⟩
    rw [face_eq]
  · intro found
    obtain ⟨redrawn, word, split, lows, high, rfl⟩ := found
    rw [← Nat.not_lt, ← lt_bound_iff] at high
    have drawn : (secure.die sides).runFrom tape = (.ok (Tape.face sides word), rest) :=
      drawFace_eq_ok_iff.mpr ⟨redrawn, word, split,
        fun other member => lt_bound_iff.mpr (lows other member), high, rfl⟩
    refine ⟨_, drawn, face_of_die drawn, ?_⟩
    rw [face_eq]

theorem chain_secure_iff : Chain (Shows secure.die) dice tape rolls rest ↔
    ∃ words : List UInt32, tape = words.map Draw.word ++ rest ∧ Blocks dice words rolls := by
  constructor
  · intro chain
    induction chain with
    | nil => exact ⟨[], rfl, .nil⟩
    | @cons die dice roll rolls _ _ _ first others ih =>
      obtain ⟨redrawn, word, rfl, lows, high, rfl⟩ := shows_secure_iff.mp first
      obtain ⟨words, rfl, blocks⟩ := ih
      refine ⟨redrawn ++ word :: words, ?_, .cons lows high blocks⟩
      rw [List.map_append, List.map_cons, List.append_assoc, List.cons_append]
  · intro found
    obtain ⟨words, rfl, blocks⟩ := found
    induction blocks with
    | nil => exact .nil
    | @cons sides sign dice redrawn words word rolls lows high others ih =>
      rw [List.map_append, List.map_cons, List.append_assoc, List.cons_append]
      exact .cons (shows_secure_iff.mpr ⟨redrawn, word, rfl, lows, high, rfl⟩) ih

theorem Blocks.length_le (blocks : Blocks dice words rolls) : dice.length ≤ words.length := by
  induction blocks with
  | nil => exact Nat.le_refl 0
  | cons again kept others ih =>
    rw [List.length_append, List.length_cons, List.length_cons]
    omega

theorem Blocks.length_rolls (blocks : Blocks dice words rolls) : rolls.length = dice.length := by
  induction blocks with
  | nil => rfl
  | cons again kept others ih => rw [List.length_cons, List.length_cons, ih]

end

end Tape

namespace Expression

variable {expression : Expression} {outcome : Outcome} {tape rest : Tape} {fault : Fault}

private theorem roll_secure_eq_ok_iff :
    (expression.roll secure).runFrom tape = (.ok outcome, rest) ↔
      outcome = .ofRolls expression outcome.rolls ∧ ∃ words : List UInt32,
        tape = words.map Draw.word ++ rest ∧ Tape.Blocks expression.dice words outcome.rolls := by
  rw [secure, runFrom_roll_ofDie_eq_ok_iff]
  constructor
  · intro rolled
    obtain ⟨rolls, chain, rfl⟩ := rolled
    exact ⟨rfl, Tape.chain_secure_iff.mp chain⟩
  · intro found
    obtain ⟨same, taken⟩ := found
    exact ⟨_, Tape.chain_secure_iff.mpr taken, same⟩

private theorem ends_of_roll_secure
    (failed : (expression.roll secure).runFrom tape = (.error fault, rest)) :
    Tape.Ends tape fault rest := by
  obtain ⟨before, each, after, rolls, middle, _, chain, missed⟩ :=
    runFrom_roll_ofDie_eq_error_iff.mp failed
  obtain ⟨words, rfl, _⟩ := Tape.chain_secure_iff.mp chain
  cases missed with
  | failed failed => exact (Tape.ends_of_drawFace failed).append words
  | badFace drawn outside => exact absurd (Tape.face_of_die drawn) outside

private theorem roll_secure_eq_error_iff :
    (expression.roll secure).runFrom tape = (.error fault, rest) ↔
      (¬ ∃ (words : List UInt32) (rolls : List Int),
        words.map Draw.word <+: tape ∧ Tape.Blocks expression.dice words rolls) ∧
      Tape.Ends tape fault rest := by
  constructor
  · intro failed
    refine ⟨?_, ends_of_roll_secure failed⟩
    intro found
    obtain ⟨words, rolls, ⟨back, rfl⟩, blocks⟩ := found
    have rolled : (expression.roll secure).runFrom (words.map Draw.word ++ back) =
        (.ok (.ofRolls expression rolls), back) :=
      roll_secure_eq_ok_iff.mpr ⟨rfl, words, rfl, blocks⟩
    cases rolled.symm.trans failed
  · intro ended
    obtain ⟨missing, ends⟩ := ended
    rcases rolled : (expression.roll secure).runFrom tape with ⟨other | outcome, finish⟩
    · obtain ⟨rfl, rfl⟩ := ends.unique (ends_of_roll_secure rolled)
      rfl
    · obtain ⟨_, words, rfl, blocks⟩ := roll_secure_eq_ok_iff.mp rolled
      exact absurd ⟨words, outcome.rolls, List.prefix_append _ _, blocks⟩ missing

/-- An expression is rolled from the blocks of words for its dice at the front of the tape, and
nothing behind them is drawn. If the tape does not start with such blocks, everything up to its
first failure is drawn, and this failure is reported, or else everything that there is. Each die
takes a word, also if it has a single side, and neither the check of the faces nor that of the terms
ever refuses what was drawn. -/
theorem roll_from_tape (expression : Expression) (tape rest : Tape) :
    (∀ outcome, (expression.roll secure).runFrom tape = (.ok outcome, rest) ↔
      outcome = .ofRolls expression outcome.rolls ∧ ∃ words : List UInt32,
        tape = words.map Draw.word ++ rest ∧ Tape.Blocks expression.dice words outcome.rolls) ∧
    (∀ fault, (expression.roll secure).runFrom tape = (.error fault, rest) ↔
      (¬ ∃ (words : List UInt32) (rolls : List Int),
        words.map Draw.word <+: tape ∧ Tape.Blocks expression.dice words rolls) ∧
      Tape.Ends tape fault rest) ∧
    (∀ words rolls, Tape.Blocks expression.dice words rolls →
      expression.diceCount ≤ words.length ∧ rolls.length = expression.diceCount) ∧
    (∀ sides face, (secure.die sides).runFrom tape = (.ok face, rest) →
      1 ≤ face ∧ face ≤ sides.val) ∧
    ∀ term rolls, (secure.term term).runFrom tape = (.ok rolls, rest) →
      term.fault? rolls = none := by
  refine ⟨fun outcome => roll_secure_eq_ok_iff, fun fault => roll_secure_eq_error_iff, ?_,
    fun sides face => Tape.face_of_die, ?_⟩
  · intro words rolls blocks
    rw [← Formula.length_dice]
    exact ⟨blocks.length_le, blocks.length_rolls⟩
  · intro term rolls rolled
    exact Term.fault?_eq_none_iff.mpr (block_of_eachDie rolled)

/-- A word that is drawn again and one that is kept; the failure behind them is not met. -/
example (terms : expression.terms = [⟨.one, ⟨6, by decide, by decide⟩, .negative⟩]) :
    (expression.roll secure).runFrom [.word 3, .word 10, .failure "broken"] =
      (.ok (.ofRolls expression [-5]), [.failure "broken"]) := by
  rw [Expression.roll, Formula.roll, terms]
  rfl

end Expression

end Dice
