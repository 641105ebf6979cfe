import Dice.Number
import Dice.Sign

namespace Dice

structure Term where
  count : Number
  sides : Number
  sign : Sign
deriving DecidableEq, Repr, Hashable

namespace Term

/-- The positive term with this count and these sides, if both are numbers of the notation. -/
def plain? (count sides : Nat) : Option Term := do
  return ⟨← Number.ofNat? count, ← Number.ofNat? sides, .positive⟩

def negated (term : Term) : Term :=
  { term with sign := term.sign.opposite }

/-- The dice of the term, one by one. -/
def dice (term : Term) : List (Number × Sign) :=
  List.replicate term.count.val (term.sides, term.sign)

/-- The number of dice that terms roll together. -/
def diceCount : List Term → Nat
  | [] => 0
  | term :: others => term.count.val + diceCount others

/-- The least signed value that one die of the term can show. -/
def lowest (term : Term) : Int :=
  match term.sign with
  | .positive => 1
  | .negative => -term.sides.val

def highest (term : Term) : Int :=
  match term.sign with
  | .positive => term.sides.val
  | .negative => -1

/-- Whether one die of the term can show the signed value. -/
def admits (term : Term) (roll : Int) : Bool :=
  term.lowest ≤ roll && roll ≤ term.highest

/-- The term without its sign. -/
def unsigned (term : Term) : List Char :=
  term.count.chars ++ 'd' :: term.sides.chars

/-- The term on its own: only a minus is written. -/
def chars (term : Term) : List Char :=
  match term.sign with
  | .positive => term.unsigned
  | .negative => '-' :: term.unsigned

/-- The term behind another one, where either sign is written, between blanks. -/
def appended (term : Term) : List Char :=
  ' ' :: term.sign.toChar :: ' ' :: term.unsigned

@[simp] theorem length_dice (term : Term) : term.dice.length = term.count.val := by
  simp [dice]

theorem length_flatMap_dice (terms : List Term) :
    (terms.flatMap dice).length = diceCount terms := by
  induction terms with
  | nil => rfl
  | cons term others ih => rw [List.flatMap_cons, List.length_append, length_dice, ih, diceCount]

theorem admits_iff {term : Term} {roll : Int} :
    term.admits roll = true ↔ term.lowest ≤ roll ∧ roll ≤ term.highest := by
  simp [admits]

/-- The values in the range of a term are the faces of its dice, behind its sign. -/
theorem range_iff {term : Term} {roll : Int} : term.lowest ≤ roll ∧ roll ≤ term.highest ↔
    ∃ face : Nat, (1 ≤ face ∧ face ≤ term.sides.val) ∧ roll = term.sign.apply face := by
  unfold lowest highest
  constructor
  · intro range
    refine ⟨roll.natAbs, ?_⟩
    cases sign : term.sign <;> simp only [sign, Sign.apply] at range ⊢ <;> omega
  · rintro ⟨face, inside, rfl⟩
    cases term.sign <;> simp only [Sign.apply] <;> omega

end Term

end Dice
