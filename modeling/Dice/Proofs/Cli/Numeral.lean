import Dice.Cli.Numeral

namespace Dice.Cli.Numeral

/-- Digits, one at least, whose value is not above `max`. -/
structure Plain (max : Nat) (text : List Char) (value : Nat) : Prop where
  ne_nil : text ≠ []
  digits : ∀ c ∈ text, c.isDigit = true
  value_eq : Decimal.value text = value
  le_max : value ≤ max

/-- Digits, with a plus in front of them or not. -/
inductive Unsigned (max : Nat) : List Char → Nat → Prop where
  | plain {digits : List Char} {value : Nat} (plain : Plain max digits value) :
      Unsigned max digits value
  | plus {digits : List Char} {value : Nat} (plain : Plain max digits value) :
      Unsigned max ('+' :: digits) value

/-- Digits behind either sign; behind a minus, only zero is not negative. -/
inductive Signed (max : Nat) : List Char → Nat → Prop where
  | unsigned {text : List Char} {value : Nat} (unsigned : Unsigned max text value) :
      Signed max text value
  | minus {digits : List Char} {value : Nat} (zero : Plain 0 digits value) :
      Signed max ('-' :: digits) value

variable {max cap value n : Nat} {digits text : List Char}

theorem Plain.mono (plain : Plain max digits n) (within : n ≤ cap) : Plain cap digits n :=
  { plain with le_max := within }

theorem Unsigned.mono (numeral : Unsigned max text n) (within : n ≤ cap) :
    Unsigned cap text n := by
  cases numeral with
  | plain plain => exact .plain (plain.mono within)
  | plus plain => exact .plus (plain.mono within)

theorem Unsigned.le_max (numeral : Unsigned max text n) : n ≤ max := by
  cases numeral with
  | plain plain => exact plain.le_max
  | plus plain => exact plain.le_max

theorem Signed.le_max (numeral : Signed max text n) : n ≤ max := by
  cases numeral with
  | unsigned unsigned => exact unsigned.le_max
  | minus zero => exact Nat.le_trans zero.le_max (Nat.zero_le max)

theorem Plain.exists_cons (plain : Plain max digits n) :
    ∃ c rest, digits = c :: rest ∧ c.isDigit = true := by
  obtain ⟨c, rest, rfl⟩ := List.exists_cons_of_ne_nil plain.ne_nil
  exact ⟨c, rest, rfl, plain.digits c List.mem_cons_self⟩

theorem Signed.exists_digit (numeral : Signed max text n) :
    ∃ c ∈ text.take 2, c.isDigit = true := by
  rcases numeral with (plain | plain) | plain
  all_goals
    obtain ⟨c, rest, rfl, digit⟩ := plain.exists_cons
    exact ⟨c, by simp, digit⟩

/-- A value above `max` ends the reading, and no digit behind it would bring it back. -/
theorem readDigits_eq_ok_iff (within : value ≤ max) : readDigits max value digits = .ok n ↔
    (∀ c ∈ digits, c.isDigit = true) ∧ Nat.ofDigitChars 10 digits value = n ∧ n ≤ max := by
  induction digits generalizing value with
  | nil =>
    rw [readDigits, Except.ok.injEq]
    constructor
    · rintro rfl
      exact ⟨nofun, rfl, within⟩
    · intro found
      exact found.2.1
  | cons c rest ih =>
    rw [readDigits, Nat.ofDigitChars_cons]
    cases found : Decimal.digit? c with
    | none =>
      have other : c.isDigit ≠ true := by
        intro digit
        rw [Decimal.digit?, if_pos digit] at found
        cases found
      exact iff_of_false nofun fun all => other (all.1 c List.mem_cons_self)
    | some digit =>
      obtain ⟨ascii, same⟩ := Decimal.digit?_eq_some_iff.mp found
      rw [same, Nat.mul_comm 10 value]
      dsimp only
      split
      · rename_i above
        refine iff_of_false nofun fun all => ?_
        have least := Decimal.le_ofDigitChars rest (value * 10 + digit)
        omega
      · rename_i below
        rw [ih (Nat.not_lt.mp below), List.forall_mem_cons]
        simp only [ascii, true_and]

theorem readMagnitude_eq_ok_iff : readMagnitude max digits = .ok n ↔ Plain max digits n := by
  unfold readMagnitude
  split
  · rename_i empty
    exact iff_of_false nofun fun plain => plain.ne_nil empty
  · rename_i nonempty
    rw [readDigits_eq_ok_iff (Nat.zero_le max)]
    constructor
    · intro read
      exact ⟨nonempty, read.1, read.2.1, read.2.2⟩
    · intro plain
      exact ⟨plain.digits, plain.value_eq, plain.le_max⟩

theorem readNat_eq_ok_iff : readNat max text = .ok n ↔ Unsigned max text n := by
  unfold readNat
  split
  · refine iff_of_false nofun fun numeral => ?_
    cases numeral with
    | plain plain => exact plain.ne_nil rfl
  · rw [readMagnitude_eq_ok_iff]
    constructor
    · exact .plus
    · intro numeral
      cases numeral with
      | plain plain => cases plain.digits '+' List.mem_cons_self
      | plus plain => exact plain
  · rename_i unsigned
    rw [readMagnitude_eq_ok_iff]
    constructor
    · exact .plain
    · intro numeral
      cases numeral with
      | plain plain => exact plain
      | plus plain => exact absurd rfl (unsigned _)

theorem readInt_minus_eq_ok_iff {integer : Int} : readInt ('-' :: digits) = .ok integer ↔
    ∃ magnitude : Nat, Plain (UInt64.size / 2) digits magnitude ∧ integer = -magnitude := by
  rw [readInt]
  simp only [← readMagnitude_eq_ok_iff]
  rcases readMagnitude (UInt64.size / 2) digits with (_ | _ | _ | _ | _) | magnitude
  all_goals simp [eq_comm]

theorem readInt_eq_ok_iff (other : text.head? ≠ some '-') {integer : Int} :
    readInt text = .ok integer ↔
      ∃ magnitude : Nat, Unsigned (UInt64.size / 2 - 1) text magnitude ∧ integer = magnitude := by
  unfold readInt
  split
  · exact absurd rfl other
  · simp only [← readNat_eq_ok_iff]
    rcases readNat (UInt64.size / 2 - 1) text with flaw | magnitude
    all_goals simp [Except.map, eq_comm]

theorem readRanged_eq_ok_iff_integer : readRanged max text = .ok n ↔
    ∃ integer : Int, readInt text = .ok integer ∧ (0 ≤ integer ∧ integer ≤ max) ∧
      integer.toNat = n := by
  unfold readRanged
  rcases readInt text with flaw | integer
  · simp
  · by_cases within : 0 ≤ integer ∧ integer ≤ max
    all_goals simp [within]

/-- No negative integer is in the range, so what is left behind a minus is zero. -/
theorem readRanged_eq_ok_iff (small : max < UInt64.size / 2) :
    readRanged max text = .ok n ↔ Signed max text n := by
  rw [readRanged_eq_ok_iff_integer]
  by_cases minus : text.head? = some '-'
  · obtain ⟨digits, rfl⟩ := List.head?_eq_some_iff.mp minus
    constructor
    · intro read
      obtain ⟨integer, read, range, rfl⟩ := read
      obtain ⟨magnitude, plain, rfl⟩ := readInt_minus_eq_ok_iff.mp read
      have zero : magnitude = 0 := by omega
      subst zero
      exact .minus (plain.mono (Nat.le_refl 0))
    · intro numeral
      cases numeral with
      | minus zero =>
        have none := Nat.le_zero.mp zero.le_max
        subst none
        exact ⟨0, readInt_minus_eq_ok_iff.mpr ⟨0, zero.mono (Nat.zero_le _), rfl⟩,
          ⟨Int.le_refl 0, Int.natCast_nonneg max⟩, rfl⟩
      | unsigned unsigned =>
        cases unsigned with
        | plain plain => cases plain.digits '-' List.mem_cons_self
  · simp only [readInt_eq_ok_iff minus]
    constructor
    · intro read
      obtain ⟨_, ⟨magnitude, unsigned, rfl⟩, range, rfl⟩ := read
      exact .unsigned (unsigned.mono (Int.ofNat_le.mp range.2))
    · intro numeral
      cases numeral with
      | minus zero => exact absurd rfl minus
      | unsigned unsigned =>
        have within := unsigned.le_max
        exact ⟨n, ⟨n, unsigned.mono (by omega), rfl⟩,
          ⟨Int.natCast_nonneg n, Int.ofNat_le.mpr within⟩, rfl⟩

theorem Signed.unique {m : Nat} (small : max < UInt64.size / 2) (first : Signed max text n)
    (second : Signed max text m) : n = m := by
  rw [← readRanged_eq_ok_iff small] at first second
  exact Except.ok.inj (first.symm.trans second)

end Dice.Cli.Numeral
