import Dice.Cli.Settings
import Dice.Decimal

namespace Dice.Cli.Numeral

def readDigits (max : Nat) (value : Nat) : List Char → Except NumeralFlaw Nat
  | [] => .ok value
  | c :: rest =>
    match Decimal.digit? c with
    | none => .error .invalidDigit
    | some digit =>
      let next := value * 10 + digit
      if max < next then .error .tooLarge else readDigits max next rest

/-- Reads the digits behind a sign, of which there must be one. -/
def readMagnitude (max : Nat) (digits : List Char) : Except NumeralFlaw Nat :=
  if digits = [] then .error .invalidDigit else readDigits max 0 digits

/-- Reads a numeral up to `max`; a plus may stand in front. -/
def readNat (max : Nat) (text : List Char) : Except NumeralFlaw Nat :=
  match text with
  | [] => .error .empty
  | '+' :: digits => readMagnitude max digits
  | digits => readMagnitude max digits

/-- Reads an integer that fits in 64 bits; either sign may stand in front. -/
def readInt (text : List Char) : Except NumeralFlaw Int :=
  match text with
  | '-' :: digits =>
    match readMagnitude (UInt64.size / 2) digits with
    | .ok value => .ok (-value)
    | .error .tooLarge => .error .tooSmall
    | .error flaw => .error flaw
  | digits => (readNat (UInt64.size / 2 - 1) digits).map Int.ofNat

/-- Reads a numeral up to `max` by way of the integers: what is an integer but not in the range is
named as such. -/
def readRanged (max : Nat) (text : List Char) : Except NumeralFlaw Nat :=
  match readInt text with
  | .error flaw => .error flaw
  | .ok value =>
    if 0 ≤ value ∧ value ≤ max then .ok value.toNat else .error (.outOfRange value max)

end Dice.Cli.Numeral
