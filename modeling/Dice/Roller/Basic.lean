import Dice.Term

/-!
Rollers: sources of dice.

A roller shows the faces of single dice and rolls whole terms. Rolling can fail, and whatever was
drawn before the failure stays drawn. A roller made from its dice alone checks each face before it
takes the sign of its term.
-/

namespace Dice

/-- Why a roll failed. -/
inductive Fault where
  | badFace (face : Nat) (sides : Number)
  | wrongLength (length : Nat) (term : Term)
  | badRoll (roll : Int) (term : Term)
  /-- A list of faces is used up. -/
  | facesFinished
  /-- A tape of draws is used up. -/
  | tapeFinished
  /-- A stock of whole rolls is used up. -/
  | rollsFinished
  /-- The source itself says what is wrong. -/
  | reported (reason : String)
deriving DecidableEq, Repr

namespace Fault

def reason : Fault → String
  | badFace face sides =>
    "source produced " ++ toString face ++ " for a die with " ++ toString sides.val ++ " sides"
  | wrongLength length term =>
    "source produced " ++ toString length ++ " rolls for " ++ String.ofList term.chars
  | badRoll roll term =>
    "source produced " ++ toString roll ++ " for " ++ String.ofList term.chars
  | facesFinished => "iterator is finished"
  | tapeFinished => "script exhausted"
  | rollsFinished => "no list left"
  | reported reason => reason

def message (fault : Fault) : String :=
  "random source failure: " ++ fault.reason

end Fault

/-- A computation that draws from a source in state `σ`. -/
abbrev Rolling (σ : Type) := ExceptT Fault (StateM σ)

structure Roller (σ : Type) where
  die : Number → Rolling σ Nat
  term : Term → Rolling σ (List Int)

namespace Roller

variable {σ : Type}

/-- One signed die; a face that the die does not have is a fault. -/
def signedDie (die : Number → Rolling σ Nat) (sides : Number) (sign : Sign) : Rolling σ Int := do
  let face ← die sides
  if face = 0 ∨ sides.val < face then throw (.badFace face sides)
  return sign.apply face

/-- The dice of a term, one after the other. -/
def eachDie (die : Number → Rolling σ Nat) (term : Term) : Rolling σ (List Int) :=
  term.dice.mapM fun each => signedDie die each.1 each.2

/-- The roller that rolls a term die by die. -/
def ofDie (die : Number → Rolling σ Nat) : Roller σ :=
  ⟨die, eachDie die⟩

end Roller

/-- What is wrong with the rolls of a term: their number, or else the first one that no die of the
term can show. -/
def Term.fault? (term : Term) (rolls : List Int) : Option Fault :=
  if rolls.length ≠ term.count.val then some (.wrongLength rolls.length term)
  else (rolls.find? fun roll => !term.admits roll).map fun roll => .badRoll roll term

/-- Rolls a term and checks what the roller gave. -/
def Roller.checkedTerm {σ : Type} (roller : Roller σ) (term : Term) : Rolling σ (List Int) := do
  let rolls ← roller.term term
  match term.fault? rolls with
  | some fault => throw fault
  | none => return rolls

end Dice
