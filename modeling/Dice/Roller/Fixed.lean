import Dice.Roller.Basic

namespace Dice.Roller

def highest : Roller Unit :=
  ofDie fun sides => return sides.val

/-- The next face of the list, whatever the die. -/
def nextFace (_sides : Number) : Rolling (List Nat) Nat := do
  match ← get with
  | [] => throw .facesFinished
  | face :: rest =>
    set rest
    return face

def replay : Roller (List Nat) :=
  ofDie nextFace

def canRoll (faces : List Nat) : Bool :=
  !faces.isEmpty

def nextRolls (_term : Term) : Rolling (List (List Int)) (List Int) := do
  match ← get with
  | [] => throw .rollsFinished
  | rolls :: rest =>
    set rest
    return rolls

/-- Whole terms come from the stock, unchecked; a single die shows its greatest face. -/
def prepared : Roller (List (List Int)) where
  die sides := return sides.val
  term := nextRolls

end Dice.Roller
