import Dice.Roller.Basic
import Dice.Saturating

/-!
The roller for fair play: dice drawn from a tape of secure 32-bit words, by rejection.

The lowest `2 ^ 32 % sides` words are drawn again. What is left of the words is a whole number of
blocks of `sides` words, so every face stands for equally many of them.
-/

namespace Dice

/-- One draw from a secure source: a word, or the reason why there is none. -/
inductive Draw where
  | word (value : UInt32)
  | failure (reason : String)
deriving DecidableEq, Repr

/-- The draws that a source will give. -/
abbrev Tape := List Draw

namespace Tape

/-- Words below this one are drawn again. -/
def bound (sides : Number) : UInt32 :=
  -sides.val.toUInt32 % sides.val.toUInt32

def face (sides : Number) (word : UInt32) : Nat :=
  (Saturating.addShort (word % sides.val.toUInt32).toUInt16 1).toNat

/-- Draws until a word is good or the source fails, and says what is left of the tape. A failure is
drawn like a word. -/
def drawFace (sides : Number) : Tape → Except Fault Nat × Tape
  | [] => (.error .tapeFinished, [])
  | .failure reason :: rest => (.error (.reported reason), rest)
  | .word word :: rest =>
    if word < bound sides then drawFace sides rest else (.ok (face sides word), rest)

private theorem toNat_toUInt32 (sides : Number) : sides.val.toUInt32.toNat = sides.val :=
  Nat.mod_eq_of_lt (Nat.lt_trans sides.lt_size (by decide))

/-- The bound is the number of words left over from whole blocks. -/
theorem toNat_bound (sides : Number) : (bound sides).toNat = UInt32.size % sides.val := by
  have positive := sides.pos
  have small := sides.lt_size
  have size : UInt32.size = 4294967296 := rfl
  have wraps : (UInt32.size - sides.val) % UInt32.size = UInt32.size - sides.val :=
    Nat.mod_eq_of_lt (by omega)
  have whole : (UInt32.size - sides.val + sides.val) % sides.val =
      (UInt32.size - sides.val) % sides.val :=
    Nat.add_mod_right ..
  rw [Nat.sub_add_cancel (by omega)] at whole
  rw [bound, UInt32.toNat_mod, UInt32.toNat_neg, toNat_toUInt32]
  change (UInt32.size - sides.val) % UInt32.size % sides.val = UInt32.size % sides.val
  rw [wraps, whole]

/-- The remainder fits in 16 bits, and so does the next number, since it is none of more sides. -/
theorem face_eq (sides : Number) (word : UInt32) :
    face sides word = word.toNat % sides.val + 1 := by
  have below : word.toNat % sides.val < sides.val := Nat.mod_lt word.toNat sides.pos
  have small := sides.lt_size
  have short : (word % sides.val.toUInt32).toUInt16.toNat = word.toNat % sides.val := by
    rw [UInt32.toNat_toUInt16, UInt32.toNat_mod, toNat_toUInt32]
    exact Nat.mod_eq_of_lt (by omega)
  have one : (1 : UInt16).toNat = 1 := rfl
  have size : UInt16.size = 65536 := rfl
  rw [face, Saturating.toNat_addShort, short, one]
  rw [short, one]
  omega

theorem face_pos (sides : Number) (word : UInt32) : 0 < face sides word := by
  rw [face_eq]
  exact Nat.succ_pos _

theorem face_le (sides : Number) (word : UInt32) : face sides word ≤ sides.val := by
  rw [face_eq]
  exact Nat.mod_lt word.toNat sides.pos

end Tape

def Roller.secure : Roller Tape :=
  .ofDie fun sides => ExceptT.mk (modifyGet (Tape.drawFace sides))

end Dice
