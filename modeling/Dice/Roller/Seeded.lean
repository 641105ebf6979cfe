import Dice.Roller.Basic

/-!
A fast roller that a seed makes reproducible; it is not fit for fair play.

Its state walks through all 64-bit words by a fixed odd step. A word of 32 bits is mixed from each
state, and a die takes the high half of the product of the word and its sides, or the next word if
the low half is one of the few that would favour a face. Among the states is one whose word every
die takes, so each draw ends.
-/

namespace Dice.Seeded

def step : UInt64 := 0x2d358dccaa6c78a5

def mask : UInt64 := 0x8bb84b93962eacc9

/-- The two halves of the product of the state and the masked state, laid over each other. -/
def mix (state : UInt64) : UInt64 :=
  let product := state.toNat * (state ^^^ mask).toNat
  product.toUInt64 ^^^ (product / UInt64.size).toUInt64

/-- The word that belongs to a state. -/
def word (state : UInt64) : Nat :=
  (mix state).toUInt32.toNat

def accepts (sides : Number) (word : Nat) : Bool :=
  UInt32.size % sides.val ≤ word * sides.val % UInt32.size

def face (sides : Number) (word : Nat) : Nat :=
  ((word * sides.val / UInt32.size).toUInt16 + 1).toNat

/-- A state whose word every die takes: its bits are those that are not in the mask. -/
def landmark : UInt64 := ~~~mask

def stride : UInt64 := 0x32e25c49d2beaf2d

/-- The number of words that are drawn before the one of the landmark. -/
def wordsToLandmark (state : UInt64) : Nat :=
  ((landmark - (state + step)) * stride).toNat

private theorem accepts_landmark (sides : Number) : accepts sides (word landmark) = true := by
  have positive := sides.pos
  have small := sides.lt_size
  have remainder : UInt32.size % sides.val < sides.val := Nat.mod_lt _ positive
  have ones : word landmark = UInt32.size - 1 := by decide
  obtain ⟨less, eq⟩ := Nat.exists_eq_succ_of_ne_zero (Nat.pos_iff_ne_zero.mp positive)
  have split : (UInt32.size - 1) * sides.val =
      UInt32.size * less + (UInt32.size - 1 - less) := by
    simp only [UInt32.size]
    omega
  have low : UInt32.size % sides.val ≤ (UInt32.size - 1) * sides.val % UInt32.size := by
    rw [split, Nat.mul_add_mod]
    simp only [UInt32.size] at remainder ⊢
    omega
  simpa only [accepts, ones, decide_eq_true_eq] using low

private theorem wordsToLandmark_lt {state : UInt64} (other : state + step ≠ landmark) :
    wordsToLandmark (state + step) < wordsToLandmark state := by
  have inverse : step * stride = 1 := by decide
  have left : (landmark - (state + step)) * stride ≠ 0 := by
    intro zero
    apply other
    grind
  have fewer : (landmark - (state + step + step)) * stride =
      (landmark - (state + step)) * stride - 1 := by grind
  unfold wordsToLandmark
  rw [fewer]
  generalize (landmark - (state + step)) * stride = distance at left
  have unit : (1 : UInt64).toNat = 1 := rfl
  have positive : distance.toNat ≠ 0 := fun zero => left (UInt64.toNat_inj.mp zero)
  have some : 1 ≤ distance := by
    rw [UInt64.le_iff_toNat_le, unit]
    omega
  rw [UInt64.toNat_sub_of_le _ _ some, unit]
  omega

/-- Draws words until the die takes one; gives its face and the state it was drawn in. -/
def drawFace (sides : Number) (state : UInt64) : Nat × UInt64 :=
  if accepts sides (word (state + step)) then (face sides (word (state + step)), state + step)
  else drawFace sides (state + step)
termination_by wordsToLandmark state
decreasing_by
  rename_i rejected
  apply wordsToLandmark_lt
  intro here
  exact rejected (here ▸ accepts_landmark sides)

theorem drawFace_of_accepts {sides : Number} {state : UInt64}
    (accepted : accepts sides (word (state + step)) = true) :
    drawFace sides state = (face sides (word (state + step)), state + step) := by
  rw [drawFace.eq_def, if_pos accepted]

theorem quotient_lt {sides : Number} {word : Nat} (fits : word < UInt32.size) :
    word * sides.val / UInt32.size < sides.val :=
  Nat.div_lt_of_lt_mul (Nat.mul_lt_mul_of_pos_right fits sides.pos)

/-- The high half of the product fits in 16 bits, and so does the next number. -/
theorem face_eq {sides : Number} {word : Nat} (fits : word < UInt32.size) :
    face sides word = word * sides.val / UInt32.size + 1 := by
  have quotient : word * sides.val / UInt32.size < sides.val := quotient_lt fits
  have small := sides.lt_size
  have short : (word * sides.val / UInt32.size).toUInt16.toNat = word * sides.val / UInt32.size :=
    Nat.mod_eq_of_lt (by omega)
  have one : (1 : UInt16).toNat = 1 := rfl
  rw [face, UInt16.toNat_add, short, one]
  exact Nat.mod_eq_of_lt (by omega)

theorem face_range {sides : Number} {word : Nat} (fits : word < UInt32.size) :
    1 ≤ face sides word ∧ face sides word ≤ sides.val := by
  rw [face_eq fits]
  exact ⟨Nat.succ_pos _, quotient_lt fits⟩

end Dice.Seeded

namespace Dice

def Roller.seeded : Roller UInt64 :=
  .ofDie fun sides => modifyGet (Seeded.drawFace sides)

end Dice
