import Dice.Term

/-!
Formulas: at least one term, in order, and a constant that is added after all dice.

Each formula has one canonical text. The first term stands there on its own and every other one
behind its sign; the constant comes last, and only if it is not zero.
-/

namespace Dice

structure Formula where
  terms : List Term
  terms_ne_nil : terms ≠ []
  modifier : Int64
deriving DecidableEq, Repr, Hashable

namespace Formula

/-- A formula without any dice is none. -/
def ofTerms? (terms : List Term) (modifier : Int64) : Option Formula :=
  if nonempty : terms ≠ [] then some ⟨terms, nonempty, modifier⟩ else none

/-- The dice of all terms, one by one. -/
def dice (formula : Formula) : List (Number × Sign) :=
  formula.terms.flatMap Term.dice

def diceCount (formula : Formula) : Nat :=
  Term.diceCount formula.terms

def isDeterministic (formula : Formula) : Bool :=
  formula.terms.all fun term => term.sides.val = 1

def termChars : List Term → List Char
  | [] => []
  | first :: others => first.chars ++ others.flatMap Term.appended

/-- The constant behind the terms, with its sign between blanks; zero is not written. -/
def modifierChars (modifier : Int) : List Char :=
  if modifier = 0 then [] else
    ' ' :: (Sign.ofInt modifier).toChar :: ' ' :: Decimal.ofNat modifier.natAbs

/-- The canonical text. -/
def chars (formula : Formula) : List Char :=
  termChars formula.terms ++ modifierChars formula.modifier.toInt

def text (formula : Formula) : String :=
  String.ofList formula.chars

@[simp] theorem length_dice (formula : Formula) : formula.dice.length = formula.diceCount :=
  Term.length_flatMap_dice formula.terms

theorem diceCount_pos (formula : Formula) : 0 < formula.diceCount := by
  obtain ⟨first, others, terms⟩ := List.exists_cons_of_ne_nil formula.terms_ne_nil
  rw [diceCount, terms, Term.diceCount]
  exact Nat.add_pos_left first.count.pos _

@[ext] theorem ext {first second : Formula} (terms : first.terms = second.terms)
    (modifier : first.modifier = second.modifier) : first = second := by
  cases first; cases second; cases terms; cases modifier; rfl

theorem ofTerms?_eq_some_iff {terms : List Term} {modifier : Int64} {formula : Formula} :
    ofTerms? terms modifier = some formula ↔
      formula.terms = terms ∧ formula.modifier = modifier := by
  constructor
  · intro built
    unfold ofTerms? at built
    split at built
    · cases built; exact ⟨rfl, rfl⟩
    · cases built
  · rintro ⟨rfl, rfl⟩
    simp [ofTerms?, formula.terms_ne_nil]

theorem ofTerms?_eq_none_iff {terms : List Term} {modifier : Int64} :
    ofTerms? terms modifier = none ↔ terms = [] := by
  unfold ofTerms?
  split <;> simp_all

end Formula

end Dice
