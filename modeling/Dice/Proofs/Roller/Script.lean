import Dice.Proofs.Roller.Replay

/-!
Rolling from a script: a list of faces that the dice take in order, place by place.

Rolling succeeds exactly if every die finds one of its faces at its own place, and takes no face
behind them. Otherwise the first place without such a face ends it, and the faces up to this place
are gone. Whether any are left can be asked at any time; a buffer that holds the face that was
looked at does not change what the dice find.
-/

namespace Dice

open Rolling

namespace Roller

/-- A face that the die has is at the place of the die. -/
def Matches (dice : List (Number × Sign)) (faces : List Nat) (place : Nat) : Prop :=
  ∃ die face, dice[place]? = some die ∧ faces[place]? = some face ∧
    1 ≤ face ∧ face ≤ die.1.val

/-- The rolls of dice that show the faces at their places. -/
def signedFaces (dice : List (Number × Sign)) (faces : List Nat) : List Int :=
  dice.zipWith (fun die face => die.2.apply face) faces

section

variable {sides : Number} {die : Number × Sign} {dice : List (Number × Sign)} {face : Nat}
  {faces rest : List Nat} {roll : Int} {rolls : List Int} {fault : Fault}

theorem nextFace_eq_ok_iff :
    (nextFace sides).runFrom faces = (.ok face, rest) ↔ faces = face :: rest := by
  cases faces with
  | nil =>
    constructor <;> intro drawn <;> cases drawn
  | cons first others =>
    constructor <;> intro drawn <;> cases drawn <;> rfl

theorem nextFace_eq_error_iff : (nextFace sides).runFrom faces = (.error fault, rest) ↔
    faces = [] ∧ fault = .facesFinished ∧ rest = [] := by
  cases faces with
  | nil =>
    constructor
    · intro failed
      cases failed
      exact ⟨rfl, rfl, rfl⟩
    · rintro ⟨-, rfl, rfl⟩
      rfl
  | cons first others =>
    constructor
    · intro failed
      cases failed
    · rintro ⟨⟨⟩, -, -⟩

theorem matches_cons_zero : Matches (die :: dice) (face :: faces) 0 ↔
    1 ≤ face ∧ face ≤ die.1.val := by
  simp [Matches]

theorem matches_cons_succ {place : Nat} :
    Matches (die :: dice) (face :: faces) (place + 1) ↔ Matches dice faces place := by
  simp [Matches]

theorem chain_nextFace_iff_places : Chain (Shows nextFace) dice faces rolls rest ↔
    (∀ place < dice.length, Matches dice faces place) ∧ rolls = signedFaces dice faces ∧
      rest = faces.drop dice.length := by
  induction dice generalizing faces rolls with
  | nil =>
    constructor
    · intro chain
      cases chain
      exact ⟨nofun, rfl, rfl⟩
    · rintro ⟨-, rfl, rfl⟩
      exact .nil
  | cons die dice ih =>
    rw [List.length_cons, Nat.forall_lt_succ_left]
    constructor
    · intro chain
      cases chain with
      | cons first others =>
        obtain ⟨rfl, face, inside, rfl⟩ := shows_nextFace_iff.mp first
        obtain ⟨later, rfl, rfl⟩ := ih.mp others
        rw [Sign.natAbs_apply, Int.natAbs_natCast]
        exact ⟨⟨matches_cons_zero.mpr inside, fun place within =>
          matches_cons_succ.mpr (later place within)⟩, rfl, rfl⟩
    · intro shown
      obtain ⟨⟨first, later⟩, rfl, rfl⟩ := shown
      cases faces with
      | nil =>
        obtain ⟨_, _, _, ⟨⟩, _⟩ := first
      | cons face faces =>
        have others : Chain (Shows nextFace) dice faces (signedFaces dice faces)
            (faces.drop dice.length) :=
          ih.mpr ⟨fun place within => matches_cons_succ.mp (later place within), rfl, rfl⟩
        have shown : Shows nextFace die (face :: faces) (die.2.apply face) faces :=
          ⟨face, rfl, matches_cons_zero.mp first, rfl⟩
        exact .cons shown others

theorem misses_nextFace_iff : Misses nextFace die faces fault rest ↔
    (faces = [] ∧ fault = .facesFinished ∧ rest = []) ∨
      ∃ face, faces = face :: rest ∧ ¬ (1 ≤ face ∧ face ≤ die.1.val) ∧
        fault = .badFace face die.1 := by
  constructor
  · intro missed
    cases missed with
    | failed failed => exact .inl (nextFace_eq_error_iff.mp failed)
    | badFace drawn outside => exact .inr ⟨_, nextFace_eq_ok_iff.mp drawn, outside, rfl⟩
  · intro found
    rcases found with finished | ⟨face, split, outside, rfl⟩
    · exact .failed (nextFace_eq_error_iff.mpr finished)
    · exact .badFace (nextFace_eq_ok_iff.mpr split) outside

theorem drop_eq_cons_iff {α : Type} {list behind : List α} {element : α} {place : Nat} :
    list.drop place = element :: behind ↔
      list[place]? = some element ∧ behind = list.drop (place + 1) := by
  rw [← List.head?_drop, ← List.tail_drop]
  constructor
  · intro split
    rw [split]
    exact ⟨rfl, rfl⟩
  · rintro ⟨found, rfl⟩
    exact List.eq_cons_of_mem_head? found

theorem matches_take_iff {place earlier : Nat} (before : earlier < place) :
    Matches (dice.take place) faces earlier ↔ Matches dice faces earlier := by
  rw [Matches, List.getElem?_take_of_lt before, Matches]

end

/-- A list that can be looked into: the face that was looked at is held until it is taken, and so
is the news that there was none. -/
structure Buffered where
  held : Option (Option Nat)
  rest : List Nat
  ended : held = some none → rest = []

namespace Buffered

def ofList (faces : List Nat) : Buffered where
  held := none
  rest := faces
  ended := nofun

def left (buffer : Buffered) : List Nat :=
  match buffer.held with
  | some (some face) => face :: buffer.rest
  | _ => buffer.rest

def look (buffer : Buffered) : Bool × Buffered :=
  match buffer.held with
  | some found => (found.isSome, buffer)
  | none => (buffer.rest.head?.isSome,
    ⟨some buffer.rest.head?, buffer.rest.tail, by cases buffer.rest <;> simp⟩)

def take (buffer : Buffered) : Option Nat × Buffered :=
  match buffer.held with
  | some found => (found, ofList buffer.rest)
  | none => (buffer.rest.head?, ofList buffer.rest.tail)

def looked : Nat → Buffered → Buffered
  | 0, buffer => buffer
  | looks + 1, buffer => looked looks buffer.look.2

def nextFace (_sides : Number) : Rolling Buffered Nat := do
  match ← modifyGet take with
  | some face => return face
  | none => throw .facesFinished

/-- What was looked at is still left. -/
theorem look_eq (buffer : Buffered) :
    buffer.look.1 = canRoll buffer.left ∧ buffer.look.2.left = buffer.left := by
  obtain ⟨held, rest, ended⟩ := buffer
  match held, rest with
  | none, [] => exact ⟨rfl, rfl⟩
  | none, face :: rest => exact ⟨rfl, rfl⟩
  | some (some face), rest => exact ⟨rfl, rfl⟩
  | some none, rest =>
    cases ended rfl
    exact ⟨rfl, rfl⟩

theorem take_eq (buffer : Buffered) :
    buffer.take.1 = buffer.left.head? ∧ buffer.take.2.left = buffer.left.tail := by
  obtain ⟨held, rest, ended⟩ := buffer
  match held, rest with
  | none, [] => exact ⟨rfl, rfl⟩
  | none, face :: rest => exact ⟨rfl, rfl⟩
  | some (some face), rest => exact ⟨rfl, rfl⟩
  | some none, rest =>
    cases ended rfl
    exact ⟨rfl, rfl⟩

theorem left_looked (looks : Nat) (buffer : Buffered) :
    (looked looks buffer).left = buffer.left := by
  induction looks generalizing buffer with
  | zero => rfl
  | succ looks ih => rw [looked, ih, buffer.look_eq.2]

/-- A die takes from the buffer what it takes from the list of the faces that are left. -/
theorem follows_nextFace (sides : Number) :
    Follows left (nextFace sides) (Roller.nextFace sides) := by
  intro buffer
  obtain ⟨found, remains⟩ := buffer.take_eq
  have drawn : (nextFace sides).runFrom buffer =
      (match buffer.take.1 with
        | some face => pure face
        | none => throw .facesFinished : Rolling Buffered Nat).runFrom buffer.take.2 := rfl
  rw [drawn, found]
  cases left : buffer.left with
  | nil =>
    rw [left] at remains
    exact congrArg (Except.error Fault.facesFinished, ·) remains
  | cons face rest =>
    rw [left] at remains
    exact congrArg (Except.ok face, ·) remains

end Buffered

end Roller

theorem Expression.follows_roll {σ τ : Type} {view : σ → τ} {die : Number → Rolling σ Nat}
    {other : Number → Rolling τ Nat} (each : ∀ sides, Follows view (die sides) (other sides))
    (expression : Expression) :
    Follows view (expression.roll (.ofDie die)) (expression.roll (.ofDie other)) := by
  have signed (sides : Number) (sign : Sign) :
      Follows view (Roller.signedDie die sides sign) (Roller.signedDie other sides sign) := by
    refine (each sides).bind fun face => ?_
    split
    · exact .throw _
    · exact .pure _
  rw [roll_eq, roll_eq, Formula.rolls_ofDie, Formula.rolls_ofDie, map_eq_pure_bind,
    map_eq_pure_bind]
  have dice := Follows.mapM (fun die : Number × Sign => signed die.1 die.2) expression.dice
  exact dice.bind fun rolls => .pure (Outcome.ofRolls expression rolls)

namespace Expression

open Roller

variable {expression : Expression} {faces rest : List Nat}

theorem roll_replay_eq_ok_iff {outcome : Outcome} :
    (expression.roll .replay).runFrom faces = (.ok outcome, rest) ↔
      (∀ place < expression.diceCount, Matches expression.dice faces place) ∧
        outcome = .ofRolls expression (signedFaces expression.dice faces) ∧
        rest = faces.drop expression.diceCount := by
  rw [replay, runFrom_roll_ofDie_eq_ok_iff, ← Formula.length_dice]
  constructor
  · intro rolled
    obtain ⟨rolls, chain, rfl⟩ := rolled
    obtain ⟨found, rfl, left⟩ := chain_nextFace_iff_places.mp chain
    exact ⟨found, rfl, left⟩
  · intro shown
    obtain ⟨found, rolled, left⟩ := shown
    exact ⟨_, chain_nextFace_iff_places.mpr ⟨found, rfl, left⟩, rolled⟩

/-- The first place without a face of its die ends the roll. -/
theorem roll_replay_eq_error_iff {fault : Fault} :
    (expression.roll .replay).runFrom faces = (.error fault, rest) ↔
      ∃ place die, expression.dice[place]? = some die ∧
        (∀ earlier < place, Matches expression.dice faces earlier) ∧
        ((faces.length ≤ place ∧ fault = .facesFinished ∧ rest = []) ∨
          ∃ face, faces[place]? = some face ∧ ¬ (1 ≤ face ∧ face ≤ die.1.val) ∧
            fault = .badFace face die.1 ∧ rest = faces.drop (place + 1)) := by
  rw [replay, runFrom_roll_ofDie_eq_error_iff]
  constructor
  · intro failed
    obtain ⟨before, die, after, rolls, middle, split, chain, missed⟩ := failed
    obtain ⟨found, _, rfl⟩ := chain_nextFace_iff_places.mp chain
    have front : expression.dice.take before.length = before := by
      rw [split, List.take_left]
    refine ⟨before.length, die, by simp [split], fun earlier within => ?_, ?_⟩
    · rw [← matches_take_iff within, front]
      exact found earlier within
    · rcases misses_nextFace_iff.mp missed with ⟨none, rfl, rfl⟩ | ⟨face, drawn, outside, rfl⟩
      · exact .inl ⟨List.drop_eq_nil_iff.mp none, rfl, rfl⟩
      · obtain ⟨here, rfl⟩ := drop_eq_cons_iff.mp drawn
        exact .inr ⟨face, here, outside, rfl, rfl⟩
  · intro found
    obtain ⟨place, die, here, earlier, ended⟩ := found
    have within := (List.getElem?_eq_some_iff.mp here).1
    have length : (expression.dice.take place).length = place :=
      List.length_take_of_le (Nat.le_of_lt within)
    have chain : Chain (Shows nextFace) (expression.dice.take place) faces
        (signedFaces (expression.dice.take place) faces) (faces.drop place) := by
      refine chain_nextFace_iff_places.mpr ⟨fun other before => ?_, rfl, by rw [length]⟩
      rw [length] at before
      exact (matches_take_iff before).mpr (earlier other before)
    refine ⟨_, die, expression.dice.drop (place + 1), _, _, ?_, chain,
      misses_nextFace_iff.mpr ?_⟩
    · rw [← drop_eq_cons_iff.mpr ⟨here, rfl⟩, List.take_append_drop]
    · rcases ended with ⟨none, rfl, rfl⟩ | ⟨face, found, outside, rfl, rfl⟩
      · exact .inl ⟨List.drop_eq_nil_iff.mpr none, rfl, rfl⟩
      · exact .inr ⟨face, drop_eq_cons_iff.mpr ⟨found, rfl⟩, outside, rfl⟩

/-- An expression is rolled from a list of faces exactly if every die finds one of its faces at its
own place; then the rolls are these faces behind the signs, and the faces behind them are left. If
not, the first place where a die does not find one of its faces ends the roll: with an empty list if
there is no face, and else with a fault that names the face and its die, and what is behind it left.
Looking for a face, before and afterwards and as often as one likes, tells whether there is one and
changes nothing of this. -/
theorem roll_from_faces (expression : Expression) (faces rest : List Nat) :
    (∀ outcome, (expression.roll .replay).runFrom faces = (.ok outcome, rest) ↔
      (∀ place < expression.diceCount, Matches expression.dice faces place) ∧
        outcome = .ofRolls expression (signedFaces expression.dice faces) ∧
        rest = faces.drop expression.diceCount) ∧
    (∀ fault, (expression.roll .replay).runFrom faces = (.error fault, rest) ↔
      ∃ place die, expression.dice[place]? = some die ∧
        (∀ earlier < place, Matches expression.dice faces earlier) ∧
        ((faces.length ≤ place ∧ fault = .facesFinished ∧ rest = []) ∨
          ∃ face, faces[place]? = some face ∧ ¬ (1 ≤ face ∧ face ≤ die.1.val) ∧
            fault = .badFace face die.1 ∧ rest = faces.drop (place + 1))) ∧
    Fault.facesFinished.reason = "iterator is finished" ∧
    (canRoll faces = true ↔ faces ≠ []) ∧
    (∀ buffer : Buffered, buffer.look.1 = canRoll buffer.left) ∧
    ∀ before after : Nat, ∃ finish : Buffered,
      (expression.roll (.ofDie Buffered.nextFace)).runFrom
          (Buffered.looked before (.ofList faces)) =
        (((expression.roll .replay).runFrom faces).1, finish) ∧
      (Buffered.looked after finish).left = ((expression.roll .replay).runFrom faces).2 := by
  refine ⟨fun outcome => roll_replay_eq_ok_iff, fun fault => roll_replay_eq_error_iff, rfl, ?_,
    fun buffer => buffer.look_eq.1, fun before after => ?_⟩
  · cases faces <;> simp [canRoll]
  · have follows := follows_roll Buffered.follows_nextFace expression
      (Buffered.looked before (.ofList faces))
    rw [Buffered.left_looked] at follows
    change _ = (expression.roll .replay).runFrom faces at follows
    rw [← follows]
    exact ⟨_, rfl, Buffered.left_looked after _⟩

/-- The second die has no seven; the face behind it is left. -/
example (terms : expression.terms = [⟨⟨2, by decide, by decide⟩, ⟨6, by decide, by decide⟩,
    .positive⟩]) : (expression.roll .replay).runFrom [6, 7, 1] =
      (.error (.badFace 7 ⟨6, by decide, by decide⟩), [1]) := by
  rw [Expression.roll, Formula.roll, terms]
  rfl

end Expression

end Dice
