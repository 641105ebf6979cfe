import Dice.Proofs.Roller.Steady
import Dice.Proofs.Roller.Tape
import Dice.Roller.Fixed

namespace Dice

open Rolling Roller

theorem Roller.steady_highest : Steady highest.die :=
  fun sides start => ⟨sides.val, start, rfl, sides.pos, Nat.le_refl _⟩

namespace Tape

/-- The next word of a tape, or why there is none. -/
def nextWord : Rolling Tape UInt32 :=
  ExceptT.mk fun
    | [] => (.error .tapeFinished, [])
    | .failure reason :: rest => (.error (.reported reason), rest)
    | .word word :: rest => (.ok word, rest)

/-- What drawing a die from a source of words comes to, if it ends at all: words below the bound are
passed over, and the first other one stands for a face. -/
inductive Draws {σ : Type} (source : Rolling σ UInt32) (sides : Number) :
    σ → Except Fault Nat → σ → Prop where
  | failed {start finish : σ} {fault : Fault}
      (failed : source.runFrom start = (.error fault, finish)) :
      Draws source sides start (.error fault) finish
  | again {start middle finish : σ} {word : UInt32} {result : Except Fault Nat}
      (drawn : source.runFrom start = (.ok word, middle)) (low : word < bound sides)
      (later : Draws source sides middle result finish) : Draws source sides start result finish
  | kept {start finish : σ} {word : UInt32}
      (drawn : source.runFrom start = (.ok word, finish)) (high : ¬ word < bound sides) :
      Draws source sides start (.ok (face sides word)) finish

/-- Whatever the source gives, a face that is drawn from it is one that the die has. -/
theorem Draws.range {σ : Type} {source : Rolling σ UInt32} {sides : Number} {start finish : σ}
    {result : Except Fault Nat} (draws : Draws source sides start result finish) :
    ∀ face, result = .ok face → 1 ≤ face ∧ face ≤ sides.val := by
  induction draws with
  | failed failed => nofun
  | again drawn low later ih => exact ih
  | @kept _ _ word drawn high =>
    rintro _ ⟨⟩
    exact ⟨face_pos sides word, face_le sides word⟩

theorem draws_drawFace (sides : Number) (tape : Tape) :
    Draws nextWord sides tape (drawFace sides tape).1 (drawFace sides tape).2 := by
  induction tape with
  | nil => exact .failed rfl
  | cons draw tape ih =>
    cases draw with
    | failure reason => exact .failed rfl
    | word word =>
      rw [drawFace]
      split
      · rename_i low
        exact .again rfl low ih
      · rename_i high
        exact .kept rfl high

theorem Draws.unique {σ : Type} {source : Rolling σ UInt32} {sides : Number}
    {start finish finish' : σ} {result other : Except Fault Nat}
    (draws : Draws source sides start result finish)
    (also : Draws source sides start other finish') : other = result ∧ finish' = finish := by
  induction draws with
  | failed failed =>
    cases also with
    | failed also =>
      cases failed.symm.trans also
      exact ⟨rfl, rfl⟩
    | again also => cases failed.symm.trans also
    | kept also => cases failed.symm.trans also
  | again drawn low later ih =>
    cases also with
    | failed also => cases drawn.symm.trans also
    | again also _ rest =>
      cases drawn.symm.trans also
      exact ih rest
    | kept also high =>
      cases drawn.symm.trans also
      exact absurd low high
  | kept drawn high =>
    cases also with
    | failed also => cases drawn.symm.trans also
    | again also low =>
      cases drawn.symm.trans also
      exact absurd low high
    | kept also =>
      cases drawn.symm.trans also
      exact ⟨rfl, rfl⟩

theorem die_secure_iff {sides : Number} {tape rest : Tape} {result : Except Fault Nat} :
    (secure.die sides).runFrom tape = (result, rest) ↔
      Draws nextWord sides tape result rest := by
  constructor
  · intro drawn
    have draws := draws_drawFace sides tape
    change drawFace sides tape = (result, rest) at drawn
    rwa [drawn] at draws
  · intro draws
    obtain ⟨value, left⟩ := draws.unique (draws_drawFace sides tape)
    exact Prod.ext value left

theorem honest_secure : Honest secure.die :=
  fun _ _ _ _ drawn => face_of_die drawn

end Tape

namespace Roller

variable {σ : Type} {die : Number → Rolling σ Nat} {start finish : σ} {fault : Fault}

/-- Rolls of a term that have passed the check of faces pass the check of the term. -/
theorem fault?_eq_none_of_ofDie {term : Term} {rolls : List Int}
    (rolled : ((ofDie die).term term).runFrom start = (.ok rolls, finish)) :
    term.fault? rolls = none :=
  Term.fault?_eq_none_iff.mpr (block_of_eachDie rolled)

theorem Honest.exists_failed (honest : Honest die) {expression : Expression}
    (failed : (expression.roll (ofDie die)).runFrom start = (.error fault, finish)) :
    ∃ each ∈ expression.dice, ∃ middle,
      (die each.1).runFrom middle = (.error fault, finish) := by
  obtain ⟨each, member, middle, missed⟩ := Expression.exists_miss_of_error failed
  exact ⟨each, member, middle, honest.failed_of_misses missed⟩

/-- Whatever the dice of a roller give, rolls of a term that have passed the check of faces pass the
check of the term, which changes nothing; so if rolling fails, then a die has missed. A die that is
drawn from a source of words, whatever this gives, shows only faces that it has, and so do the
highest and the seeded die, which always show one. For such dice the check of faces changes nothing
either: rolling fails only as drawing does, and where drawing never fails, never. -/
theorem checks_agree :
    (∀ {σ : Type} (die : Number → Rolling σ Nat) start finish term rolls,
      ((ofDie die).term term).runFrom start = (.ok rolls, finish) → term.fault? rolls = none) ∧
    (∀ {σ : Type} (die : Number → Rolling σ Nat) term,
      (ofDie die).checkedTerm term = (ofDie die).term term) ∧
    (∀ {σ : Type} (die : Number → Rolling σ Nat) (expression : Expression) start finish fault,
      (expression.roll (ofDie die)).runFrom start = (.error fault, finish) →
        ∃ each ∈ expression.dice, ∃ middle, Misses die each middle fault finish) ∧
    (∀ {σ : Type} (source : Rolling σ UInt32) (sides : Number) start finish face,
      Tape.Draws source sides start (.ok face) finish → 1 ≤ face ∧ face ≤ sides.val) ∧
    (∀ sides tape result rest, (secure.die sides).runFrom tape = (result, rest) ↔
      Tape.Draws Tape.nextWord sides tape result rest) ∧
    Honest secure.die ∧ Steady highest.die ∧ Steady seeded.die ∧
    (∀ {σ : Type} (die : Number → Rolling σ Nat), Honest die → ∀ sides sign,
      signedDie die sides sign = (fun face : Nat => sign.apply face) <$> die sides) ∧
    (∀ {σ : Type} (die : Number → Rolling σ Nat), Honest die →
      ∀ (expression : Expression) start finish fault,
        (expression.roll (ofDie die)).runFrom start = (.error fault, finish) →
          ∃ each ∈ expression.dice, ∃ middle,
            (die each.1).runFrom middle = (.error fault, finish)) ∧
    (∀ {σ : Type} (die : Number → Rolling σ Nat), Steady die → Honest die) ∧
    (∀ {σ : Type} (die : Number → Rolling σ Nat), Steady die → ∀ term start,
      ∃ rolls finish, ((ofDie die).term term).runFrom start = (.ok rolls, finish)) ∧
    ∀ {σ : Type} (die : Number → Rolling σ Nat), Steady die → ∀ (expression : Expression) start,
      ∃ outcome finish, (expression.roll (ofDie die)).runFrom start = (.ok outcome, finish) :=
  ⟨fun _ _ _ _ _ => fault?_eq_none_of_ofDie, fun _ => checkedTerm_ofDie,
    fun _ _ _ _ _ => Expression.exists_miss_of_error,
    fun _ _ _ _ face draws => draws.range face rfl, fun _ _ _ _ => Tape.die_secure_iff,
    Tape.honest_secure, steady_highest, Seeded.steady, fun _ => Honest.signedDie_eq,
    fun _ honest _ _ _ _ => honest.exists_failed, fun _ => Steady.honest,
    fun _ => Steady.exists_term, fun _ => Steady.exists_roll⟩

end Roller

end Dice
