import Dice.Proofs.Parse.Numeral

/-!
The digit loop, state by state.

Behind every digit the word holds the exact value of all digits that have been read. The loop goes
on only while this value is under the cap, so what it holds next is below ten times the cap and ten,
and no operation on the word saturates. The number that comes of it is therefore the one that is
written, whatever the length of the text.
-/

namespace Dice.Parse

/-- The states that the loop goes through on a text: the digits that it has read, the value that it
holds, and what is left to read. A value above the cap ends it. -/
inductive Reaches (max : UInt16) (text : List Char) : List Char → UInt32 → List Char → Prop where
  | start : Reaches max text [] 0 text
  | digit {run rest : List Char} {value : UInt32} {c : Char} {digit : Nat}
      (before : Reaches max text run value (c :: rest)) (within : value ≤ max.toUInt32)
      (found : Decimal.digit? c = some digit) :
      Reaches max text (run ++ [c]) (takeDigit value digit) rest

/-- How the loop ends in a state. -/
inductive Ends (role : Role) (max : UInt16) : UInt32 → List Char → Except Flaw UInt32 → Prop where
  | finished {value : UInt32} (within : value ≤ max.toUInt32) : Ends role max value [] (.ok value)
  | beyond {value : UInt32} {rest : List Char} (above : max.toUInt32 < value) :
      Ends role max value rest (.error (.tooLarge role max))
  | other {value : UInt32} {c : Char} {rest : List Char} (within : value ≤ max.toUInt32)
      (other : Decimal.digit? c = none) :
      Ends role max value (c :: rest) (.error (.notNumeric role))

/-- The value that is held is that of the digits, and not far above the cap. -/
structure Exact (max : UInt16) (run : List Char) (value : UInt32) : Prop where
  digits : ∀ c ∈ run, c.isDigit = true
  toNat_eq : value.toNat = Decimal.value run
  toNat_le : value.toNat ≤ 10 * max.toNat + 9

variable {role : Role} {max : UInt16} {text run rest : List Char} {value : UInt32}

theorem toNat_le_of_within (within : value ≤ max.toUInt32) : value.toNat ≤ max.toNat := by
  rwa [UInt32.le_iff_toNat_le, UInt16.toNat_toUInt32] at within

theorem toNat_lt_of_within (within : value ≤ max.toUInt32) : value.toNat < 65536 :=
  Nat.lt_of_le_of_lt (toNat_le_of_within within) max.toNat_lt

/-- One more digit keeps the value exact, as it is read under the cap only. -/
theorem Exact.digit {c : Char} {digit : Nat} (exact : Exact max run value)
    (within : value ≤ max.toUInt32) (found : Decimal.digit? c = some digit) :
    Exact max (run ++ [c]) (takeDigit value digit) := by
  have ten := Decimal.digit?_lt found
  have capped := toNat_le_of_within within
  have next := toNat_takeDigit (toNat_lt_of_within within) ten
  refine ⟨?_, ?_, ?_⟩
  · exact List.forall_mem_append.mpr
      ⟨exact.digits, List.forall_mem_singleton.mpr (Decimal.digit?_eq_some_iff.mp found).1⟩
  · rw [next, exact.toNat_eq, Decimal.value_concat found]
  · rw [next]
    omega

theorem Reaches.exact (reaches : Reaches max text run value rest) : Exact max run value := by
  induction reaches with
  | start => exact ⟨List.forall_mem_nil _, rfl, Nat.zero_le _⟩
  | digit before within found ih => exact ih.digit within found

theorem Reaches.text_eq (reaches : Reaches max text run value rest) : text = run ++ rest := by
  induction reaches with
  | start => rfl
  | digit before within found ih => rw [ih, List.append_assoc, List.singleton_append]

theorem Reaches.readDigits_eq (reaches : Reaches max text run value rest) (role : Role) :
    readDigits role max 0 text = if max.toUInt32 < value then .error (.tooLarge role max)
      else readDigits role max value rest := by
  induction reaches with
  | start =>
    have within : ¬ max.toUInt32 < 0 := UInt32.not_lt.mpr (UInt32.zero_le)
    rw [if_neg within]
  | digit before within found ih =>
    rw [ih, if_neg (UInt32.not_lt.mpr within), readDigits_of_digit? found]

theorem Reaches.exists_end (reaches : Reaches max text run value rest)
    (within : value ≤ max.toUInt32) (role : Role) :
    ∃ run' value' rest', Reaches max text run' value' rest' ∧
      Ends role max value' rest' (readDigits role max value rest) := by
  induction rest generalizing run value with
  | nil => exact ⟨run, value, [], reaches, .finished within⟩
  | cons c rest ih =>
    cases found : Decimal.digit? c with
    | none =>
      rw [readDigits_of_other found]
      exact ⟨run, value, c :: rest, reaches, .other within found⟩
    | some digit =>
      have next := reaches.digit within found
      rw [readDigits_of_digit? found]
      split
      · rename_i above
        exact ⟨_, _, rest, next, .beyond above⟩
      · rename_i below
        exact ih next (UInt32.not_lt.mp below)

theorem reaches_end (role : Role) (max : UInt16) (text : List Char) :
    ∃ run value rest, Reaches max text run value rest ∧
      Ends role max value rest (readDigits role max 0 text) :=
  Reaches.start.exists_end UInt32.zero_le role

/-- A loop that finishes has read the whole text. It holds the exact value, which fits in 16
bits. -/
theorem exact_of_readDigits (read : readDigits role max 0 text = .ok value) :
    Exact max text value ∧ value.toNat < 65536 := by
  obtain ⟨run, held, rest, reaches, ends⟩ := reaches_end role max text
  have whole := reaches.text_eq
  rw [read] at ends
  cases ends with
  | finished within =>
    rw [whole, List.append_nil]
    exact ⟨reaches.exact, toNat_lt_of_within within⟩

theorem readNumber_eq_ok_iff_of_digits (digits : ∀ c ∈ text, c.isDigit = true) (n : Nat) :
    (∃ number, readNumber role max text = .ok number ∧ number.val = n) ↔
      Decimal.value text = n ∧ 1 ≤ n ∧ n ≤ max.toNat := by
  simp only [readNumber_eq_ok_iff]
  constructor
  · rintro ⟨number, numeral, rfl⟩
    exact ⟨numeral.value_eq, number.pos, numeral.le_max⟩
  · rintro ⟨value, positive, within⟩
    have cap := max.toNat_lt
    exact ⟨⟨n, positive, by omega⟩, ⟨digits, value, within⟩, rfl⟩

theorem readNumber_eq_notPositive_iff {other : Role} :
    readNumber role max text = .error (.notPositive other) ↔
      other = role ∧ (∀ c ∈ text, c.isDigit = true) ∧ Decimal.value text = 0 := by
  rw [readNumber_eq_error_iff]
  constructor
  · intro wrong
    cases wrong with
    | notPositive digits zero => exact ⟨rfl, digits, zero⟩
  · rintro ⟨rfl, digits, zero⟩
    exact .notPositive digits zero

/-- In every state that the loop goes through, the word holds the exact value of the digits that
have been read, at most ten times the cap and nine, and taking another digit does not saturate. The
loop ends in such a state; if it finishes, what it holds fits in 16 bits, and only zero is no
number. So a text of digits is read as its value if this is positive and no larger than the cap, and
nothing but zero is refused for not being positive. -/
theorem readNumber_exactly (role : Role) (max : UInt16) (text : List Char) :
    (∀ run value rest, Reaches max text run value rest →
      text = run ++ rest ∧ value.toNat = Decimal.value run ∧ value.toNat ≤ 10 * max.toNat + 9 ∧
      (readDigits role max 0 text = if max.toUInt32 < value then .error (.tooLarge role max)
        else readDigits role max value rest) ∧
      (value ≤ max.toUInt32 → ∀ digit < 10,
        (Saturating.mulWord value 10).toNat = value.toNat * 10 ∧
        (Saturating.addWord (Saturating.mulWord value 10) digit.toUInt32).toNat =
          (Saturating.mulWord value 10).toNat + digit)) ∧
    (∃ run value rest, Reaches max text run value rest ∧
      Ends role max value rest (readDigits role max 0 text)) ∧
    (∀ value, readDigits role max 0 text = .ok value →
      value.toNat = Decimal.value text ∧ value.toNat < 65536 ∧
      (Number.ofNat? value.toNat = none ↔ value.toNat = 0)) ∧
    ((∀ c ∈ text, c.isDigit = true) → ∀ n,
      (∃ number, readNumber role max text = .ok number ∧ number.val = n) ↔
        Decimal.value text = n ∧ 1 ≤ n ∧ n ≤ max.toNat) ∧
    ∀ other, readNumber role max text = .error (.notPositive other) ↔
      other = role ∧ (∀ c ∈ text, c.isDigit = true) ∧ Decimal.value text = 0 := by
  refine ⟨fun run value rest reaches => ?_, reaches_end role max text, fun value read => ?_,
    readNumber_eq_ok_iff_of_digits, fun other => readNumber_eq_notPositive_iff⟩
  · have exact := reaches.exact
    refine ⟨reaches.text_eq, exact.toNat_eq, exact.toNat_le, reaches.readDigits_eq role, ?_⟩
    intro within digit ten
    have small := toNat_lt_of_within within
    have product := toNat_mulWord_ten small
    refine ⟨product, ?_⟩
    rw [product, ← takeDigit, toNat_takeDigit small ten, Nat.mul_comm]
  · obtain ⟨exact, small⟩ := exact_of_readDigits read
    refine ⟨exact.toNat_eq, small, ?_⟩
    rw [Number.ofNat?_eq_none_iff]
    omega

end Dice.Parse
