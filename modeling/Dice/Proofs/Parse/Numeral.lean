import Dice.Parse.Number
import Dice.Proofs.Text.Trim

namespace Dice

/-- A computation that is known on two sets of outcomes, of which one always occurs, is decided by
them. -/
theorem except_decided {ε α : Type} {outcome : Except ε α} {good : α → Prop} {bad : ε → Prop}
    (ok : ∀ value, good value → outcome = .ok value)
    (error : ∀ reason, bad reason → outcome = .error reason)
    (total : (∃ value, good value) ∨ ∃ reason, bad reason) :
    (∀ value, outcome = .ok value ↔ good value) ∧
      ∀ reason, outcome = .error reason ↔ bad reason := by
  rcases total with ⟨found, holds⟩ | ⟨found, holds⟩
  · have result := ok found holds
    refine ⟨fun value => ⟨fun same => ?_, ok value⟩, fun reason => ⟨fun same => ?_, error reason⟩⟩
    · cases result.symm.trans same
      exact holds
    · cases result.symm.trans same
  · have result := error found holds
    refine ⟨fun value => ⟨fun same => ?_, ok value⟩, fun reason => ⟨fun same => ?_, error reason⟩⟩
    · cases result.symm.trans same
    · cases result.symm.trans same
      exact holds

namespace Parse

/-- A text of digits, leading zeroes allowed, whose value is a number under the cap. It is not
empty, as the number is positive. -/
structure Numeral (max : UInt16) (text : List Char) (number : Number) : Prop where
  digits : ∀ c ∈ text, c.isDigit = true
  value_eq : Decimal.value text = number.val
  le_max : number.val ≤ max.toNat

/-- What is wrong with a text that is no numeral. -/
inductive NumeralFlaw (role : Role) (max : UInt16) : List Char → Flaw → Prop where
  /-- Another character follows digits whose value is still under the cap. -/
  | notNumeric {run rest : List Char} {c : Char} (digits : ∀ d ∈ run, d.isDigit = true)
      (within : Decimal.value run ≤ max.toNat) (other : c.isDigit = false) :
      NumeralFlaw role max (run ++ c :: rest) (.notNumeric role)
  /-- The digits read so far are above the cap, whatever follows. -/
  | tooLarge {run rest : List Char} (digits : ∀ d ∈ run, d.isDigit = true)
      (beyond : max.toNat < Decimal.value run) :
      NumeralFlaw role max (run ++ rest) (.tooLarge role max)
  | notPositive {text : List Char} (digits : ∀ d ∈ text, d.isDigit = true)
      (zero : Decimal.value text = 0) : NumeralFlaw role max text (.notPositive role)

section

variable {role : Role} {max : UInt16} {text : List Char} {number : Number} {flaw : Flaw}

theorem Numeral.ne_nil (numeral : Numeral max text number) : text ≠ [] := by
  rintro rfl
  have zero : 0 = number.val := numeral.value_eq
  have positive := number.pos
  omega

theorem Numeral.not_allBlank (numeral : Numeral max (Text.trim text) number) :
    ¬ Text.AllBlank text :=
  fun blank => numeral.ne_nil (Text.trim_eq_nil_iff.mpr blank)

theorem Numeral.trimmed (numeral : Numeral max text number) : Text.Trimmed text where
  head c member := Text.isBlank_of_isDigit (numeral.digits c (List.mem_of_mem_head? member))
  last c member := Text.isBlank_of_isDigit (numeral.digits c (List.mem_of_mem_getLast? member))

theorem numeralFlaw_of_beyond (role : Role) (digits : ∀ c ∈ text, c.isDigit = true)
    (beyond : max.toNat < Decimal.value text) : NumeralFlaw role max text (.tooLarge role max) := by
  have refused : NumeralFlaw role max (text ++ []) (.tooLarge role max) := .tooLarge digits beyond
  rwa [List.append_nil] at refused

theorem numeral_chars {max : UInt16} {number : Number} (within : number.val ≤ max.toNat) :
    Numeral max number.chars number where
  digits _ member := Decimal.isDigit_of_mem_ofNat member
  value_eq := Decimal.value_ofNat number.val
  le_max := within

theorem numeralFlaw_ofNat (role : Role) {max : UInt16} {value : Nat} (beyond : max.toNat < value) :
    NumeralFlaw role max (Decimal.ofNat value) (.tooLarge role max) :=
  numeralFlaw_of_beyond role (fun _ member => Decimal.isDigit_of_mem_ofNat member)
    ((Decimal.value_ofNat value).symm ▸ beyond)

theorem toNat_mulWord_ten {value : UInt32} (small : value.toNat < 65536) :
    (Saturating.mulWord value 10).toNat = value.toNat * 10 := by
  apply Saturating.toNat_mulWord
  change value.toNat * 10 < 4294967296
  omega

/-- As long as the value before fits in 16 bits, taking one more digit never saturates. -/
theorem toNat_takeDigit {value : UInt32} {digit : Nat} (small : value.toNat < 65536)
    (ten : digit < 10) : (takeDigit value digit).toNat = 10 * value.toNat + digit := by
  have product := toNat_mulWord_ten small
  have unit : digit.toUInt32.toNat = digit :=
    Nat.mod_eq_of_lt (Nat.lt_trans ten (by decide))
  have total : (Saturating.mulWord value 10).toNat + digit.toUInt32.toNat < UInt32.size := by
    rw [product, unit]
    change value.toNat * 10 + digit < 4294967296
    omega
  rw [takeDigit, Saturating.toNat_addWord total, product, unit, Nat.mul_comm]

/-- One step of reading: the next digit either carries the value past the cap or is taken. -/
private theorem readDigits_cons (role : Role) {value : UInt32} {c : Char}
    (within : value.toNat ≤ max.toNat) (digit : c.isDigit = true) (rest : List Char) :
    ∃ next : UInt32, next.toNat = 10 * value.toNat + (c.toNat - '0'.toNat) ∧
      readDigits role max value (c :: rest) =
        if max.toNat < next.toNat then .error (.tooLarge role max)
        else readDigits role max next rest := by
  have found := Decimal.digit?_eq_some_iff.mpr ⟨digit, rfl⟩
  have small : value.toNat < 65536 := Nat.lt_of_le_of_lt within max.toNat_lt
  refine ⟨takeDigit value (c.toNat - '0'.toNat), ?_, ?_⟩
  · exact toNat_takeDigit small (Decimal.digit?_lt found)
  · simp only [readDigits_of_digit? found, UInt32.lt_iff_toNat_lt, UInt16.toNat_toUInt32]

/-- Digits under the cap are taken one and all; the word holds their exact value. -/
theorem readDigits_append (role : Role) {run : List Char} {value : UInt32}
    (digits : ∀ c ∈ run, c.isDigit = true)
    (within : Nat.ofDigitChars 10 run value.toNat ≤ max.toNat) (rest : List Char) :
    ∃ next : UInt32, next.toNat = Nat.ofDigitChars 10 run value.toNat ∧
      readDigits role max value (run ++ rest) = readDigits role max next rest := by
  induction run generalizing value with
  | nil => exact ⟨value, Nat.ofDigitChars_nil.symm, rfl⟩
  | cons c run ih =>
    have start := Nat.le_trans (Decimal.le_ofDigitChars (c :: run) value.toNat) within
    obtain ⟨next, exactly, step⟩ :=
      readDigits_cons role start (digits c List.mem_cons_self) (run ++ rest)
    rw [Nat.ofDigitChars_cons, ← exactly] at within
    obtain ⟨last, lastExactly, steps⟩ :=
      ih (fun d member => digits d (.tail c member)) within
    have taken : ¬ max.toNat < next.toNat :=
      Nat.not_lt.mpr (Nat.le_trans (Decimal.le_ofDigitChars run next.toNat) within)
    refine ⟨last, ?_, ?_⟩
    · rw [lastExactly, exactly, Nat.ofDigitChars_cons]
    · rw [List.cons_append, step, if_neg taken, steps]

theorem readDigits_beyond {run : List Char} {value : UInt32}
    (digits : ∀ c ∈ run, c.isDigit = true) (start : value.toNat ≤ max.toNat)
    (beyond : max.toNat < Nat.ofDigitChars 10 run value.toNat) (rest : List Char) :
    readDigits role max value (run ++ rest) = .error (.tooLarge role max) := by
  induction run generalizing value with
  | nil =>
    rw [Nat.ofDigitChars_nil] at beyond
    omega
  | cons c run ih =>
    obtain ⟨next, exactly, step⟩ :=
      readDigits_cons role start (digits c List.mem_cons_self) (run ++ rest)
    rw [List.cons_append, step]
    split
    · rfl
    · rename_i taken
      rw [Nat.ofDigitChars_cons, ← exactly] at beyond
      exact ih (fun d member => digits d (.tail c member)) (Nat.not_lt.mp taken) beyond

private theorem readDigits_run (role : Role) {run : List Char}
    (digits : ∀ c ∈ run, c.isDigit = true) (within : Decimal.value run ≤ max.toNat)
    (rest : List Char) : ∃ next : UInt32, next.toNat = Decimal.value run ∧
      readDigits role max 0 (run ++ rest) = readDigits role max next rest := by
  have start : Nat.ofDigitChars 10 run (0 : UInt32).toNat ≤ max.toNat := within
  exact readDigits_append role digits start rest

theorem readNumber_of_numeral (role : Role) (numeral : Numeral max text number) :
    readNumber role max text = .ok number := by
  have within : Decimal.value text ≤ max.toNat := by
    rw [numeral.value_eq]
    exact numeral.le_max
  obtain ⟨last, exactly, steps⟩ := readDigits_run role numeral.digits within []
  rw [List.append_nil] at steps
  simp only [readNumber, steps, readDigits, exactly, numeral.value_eq, Number.ofNat?_val]

theorem readNumber_of_flaw (wrong : NumeralFlaw role max text flaw) :
    readNumber role max text = .error flaw := by
  cases wrong with
  | @notNumeric run rest c digits within other =>
    obtain ⟨last, _, steps⟩ := readDigits_run role digits within (c :: rest)
    have refused : Decimal.digit? c = none := if_neg (by rw [other]; decide)
    simp only [readNumber, steps, readDigits_of_other refused]
  | @tooLarge run rest digits beyond =>
    have refused : readDigits role max 0 (run ++ rest) = .error (.tooLarge role max) :=
      readDigits_beyond digits (Nat.zero_le _) beyond rest
    simp only [readNumber, refused]
  | notPositive digits zero =>
    have within : Decimal.value text ≤ max.toNat := by
      rw [zero]
      exact Nat.zero_le _
    obtain ⟨last, exactly, steps⟩ := readDigits_run role digits within []
    have none : Number.ofNat? 0 = none := rfl
    rw [List.append_nil] at steps
    simp only [readNumber, steps, readDigits, exactly, zero, none]

private theorem numeral_or_flaw_of_digits (role : Role) (max : UInt16)
    (digits : ∀ c ∈ text, c.isDigit = true) :
    (∃ number, Numeral max text number) ∨ ∃ flaw, NumeralFlaw role max text flaw := by
  by_cases beyond : max.toNat < Decimal.value text
  · exact .inr ⟨_, numeralFlaw_of_beyond role digits beyond⟩
  · by_cases zero : Decimal.value text = 0
    · exact .inr ⟨_, .notPositive digits zero⟩
    · have cap := max.toNat_lt
      exact .inl ⟨⟨Decimal.value text, by omega, by omega⟩, digits, rfl, by simp only; omega⟩

/-- Every text is a numeral, or there is a first thing wrong with it. -/
theorem numeral_or_flaw (role : Role) (max : UInt16) (text : List Char) :
    (∃ number, Numeral max text number) ∨ ∃ flaw, NumeralFlaw role max text flaw := by
  have digits : ∀ c ∈ text.takeWhile Char.isDigit, c.isDigit = true :=
    fun _ member => List.mem_takeWhile_imp member
  have joined := text.takeWhile_append_dropWhile (p := Char.isDigit)
  cases rest : text.dropWhile Char.isDigit with
  | nil =>
    rw [rest, List.append_nil] at joined
    exact numeral_or_flaw_of_digits role max (joined ▸ digits)
  | cons c rest' =>
    have other : c.isDigit = false := by
      have found := List.head?_dropWhile_not Char.isDigit text
      rw [rest] at found
      simpa using found
    rw [rest] at joined
    rw [← joined]
    right
    by_cases within : Decimal.value (text.takeWhile Char.isDigit) ≤ max.toNat
    · exact ⟨_, .notNumeric digits within other⟩
    · exact ⟨_, .tooLarge digits (Nat.not_le.mp within)⟩

theorem readNumber_eq_ok_iff :
    readNumber role max text = .ok number ↔ Numeral max text number :=
  (except_decided (fun _ => readNumber_of_numeral role) (fun _ => readNumber_of_flaw)
    (numeral_or_flaw role max text)).1 number

theorem readNumber_eq_error_iff :
    readNumber role max text = .error flaw ↔ NumeralFlaw role max text flaw :=
  (except_decided (fun _ => readNumber_of_numeral role) (fun _ => readNumber_of_flaw)
    (numeral_or_flaw role max text)).2 flaw

end

end Parse

end Dice
