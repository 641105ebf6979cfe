import Dice.Number
import Dice.Parse.Error
import Dice.Saturating

namespace Dice.Parse

/-- The value with one more digit behind it. -/
def takeDigit (value : UInt32) (digit : Nat) : UInt32 :=
  Saturating.addWord (Saturating.mulWord value 10) digit.toUInt32

/-- Reads on from the value of the digits before. What is wrong first, from left to right, counts:
a character that is no digit, or a value above the cap. -/
def readDigits (role : Role) (max : UInt16) (value : UInt32) : List Char → Except Flaw UInt32
  | [] => .ok value
  | c :: rest =>
    match Decimal.digit? c with
    | none => .error (.notNumeric role)
    | some digit =>
      let next := takeDigit value digit
      if max.toUInt32 < next then .error (.tooLarge role max)
      else readDigits role max next rest

theorem readDigits_of_digit? {role : Role} {max : UInt16} {value : UInt32} {c : Char} {digit : Nat}
    {rest : List Char} (found : Decimal.digit? c = some digit) :
    readDigits role max value (c :: rest) =
      if max.toUInt32 < takeDigit value digit then .error (.tooLarge role max)
      else readDigits role max (takeDigit value digit) rest := by
  simp only [readDigits, found]

theorem readDigits_of_other {role : Role} {max : UInt16} {value : UInt32} {c : Char}
    {rest : List Char} (other : Decimal.digit? c = none) :
    readDigits role max value (c :: rest) = .error (.notNumeric role) := by
  simp only [readDigits, other]

def readNumber (role : Role) (max : UInt16) (text : List Char) : Except Flaw Number :=
  match readDigits role max 0 text with
  | .error flaw => .error flaw
  | .ok value =>
    match Number.ofNat? value.toNat with
    | none => .error (.notPositive role)
    | some number => .ok number

end Dice.Parse
