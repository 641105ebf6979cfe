namespace Dice

inductive Sign where
  | positive
  | negative
deriving DecidableEq, Repr, Hashable

namespace Sign

/-- A sign that is not written is positive. -/
instance : Inhabited Sign := ⟨positive⟩

def ofChar? (c : Char) : Option Sign :=
  if c = '+' then some positive else if c = '-' then some negative else none

def toChar : Sign → Char
  | positive => '+'
  | negative => '-'

def opposite : Sign → Sign
  | positive => negative
  | negative => positive

def apply : Sign → Int → Int
  | positive, value => value
  | negative, value => -value

/-- The sign in front of the absolute value of an integer; zero is positive. -/
def ofInt (value : Int) : Sign :=
  if value < 0 then negative else positive

def name : Sign → String
  | positive => "Positive"
  | negative => "Negative"

@[simp] theorem ofChar?_toChar (sign : Sign) : ofChar? sign.toChar = some sign := by
  cases sign <;> rfl

theorem ofChar?_eq_some_iff {c : Char} {sign : Sign} :
    ofChar? c = some sign ↔ c = sign.toChar := by
  constructor
  · intro found
    unfold ofChar? at found
    split at found
    · cases found; assumption
    · split at found
      · cases found; assumption
      · cases found
  · rintro rfl
    exact ofChar?_toChar sign

theorem ofChar?_eq_none_iff {c : Char} : ofChar? c = none ↔ c ∉ ['+', '-'] := by
  unfold ofChar?
  split
  · simp_all
  · split <;> simp_all

@[simp] theorem opposite_opposite (sign : Sign) : sign.opposite.opposite = sign := by
  cases sign <;> rfl

@[simp] theorem apply_opposite (sign : Sign) (value : Int) :
    sign.opposite.apply value = -sign.apply value := by
  cases sign <;> simp [opposite, apply]

@[simp] theorem natAbs_apply (sign : Sign) (value : Int) :
    (sign.apply value).natAbs = value.natAbs := by
  cases sign <;> simp [apply]

theorem apply_ofInt_natAbs (value : Int) : (ofInt value).apply value.natAbs = value := by
  unfold ofInt
  split <;> simp only [apply] <;> omega

end Sign

end Dice
