namespace Dice.Decimal

/-- The value of an ASCII digit; no other character is one. -/
def digit? (c : Char) : Option Nat :=
  if c.isDigit then some (c.toNat - '0'.toNat) else none

def ofNat (n : Nat) : List Char :=
  Nat.toDigits 10 n

def ofInt (n : Int) : List Char :=
  if n < 0 then '-' :: ofNat n.natAbs else ofNat n.natAbs

/-- The number that a run of digits stands for, however long it is. -/
def value (digits : List Char) : Nat :=
  Nat.ofDigitChars 10 digits 0

theorem digit?_eq_some_iff {c : Char} {digit : Nat} :
    digit? c = some digit ↔ c.isDigit = true ∧ c.toNat - '0'.toNat = digit := by
  unfold digit?
  split <;> simp_all

theorem digit?_lt {c : Char} {digit : Nat} (found : digit? c = some digit) : digit < 10 := by
  obtain ⟨ascii, rfl⟩ := digit?_eq_some_iff.mp found
  have high : c.toNat ≤ 57 := (Char.isDigit_iff_toNat.mp ascii).2
  have zero : '0'.toNat = 48 := rfl
  omega

theorem value_concat {c : Char} {digit : Nat} (found : digit? c = some digit) (run : List Char) :
    value (run ++ [c]) = 10 * value run + digit := by
  rw [value, Nat.ofDigitChars_append, Nat.ofDigitChars_cons, Nat.ofDigitChars_nil,
    (digit?_eq_some_iff.mp found).2, value]

theorem le_ofDigitChars (run : List Char) (init : Nat) : init ≤ Nat.ofDigitChars 10 run init := by
  rw [Nat.ofDigitChars_eq_ofDigitChars_zero]
  exact Nat.le_add_right_of_le (Nat.le_mul_of_pos_left init (Nat.pow_pos (by decide)))

theorem value_ofNat (n : Nat) : value (ofNat n) = n :=
  Nat.ofDigitChars_toDigits (by decide) (by decide)

theorem isDigit_of_mem_ofNat {n : Nat} {c : Char} (member : c ∈ ofNat n) : c.isDigit = true :=
  Nat.isDigit_of_mem_toDigits (by decide) (by decide) member

theorem ofNat_ne_nil (n : Nat) : ofNat n ≠ [] :=
  List.ne_nil_of_length_pos Nat.length_toDigits_pos

theorem ofInt_ne_nil (n : Int) : ofInt n ≠ [] := by
  unfold ofInt
  split
  · exact List.cons_ne_nil _ _
  · exact ofNat_ne_nil _

theorem ofNat_inj {m n : Nat} : ofNat m = ofNat n ↔ m = n :=
  ⟨fun same => by rw [← value_ofNat m, same, value_ofNat], fun same => same ▸ rfl⟩

private theorem ofNat_ne_minus (n : Nat) (rest : List Char) : ofNat n ≠ '-' :: rest := by
  intro same
  have minus : '-' ∈ ofNat n := same ▸ List.mem_cons_self
  exact absurd (isDigit_of_mem_ofNat minus) (by decide)

/-- The minus is told from the digits, so no two integers are written alike. -/
theorem ofInt_inj {m n : Int} : ofInt m = ofInt n ↔ m = n := by
  refine ⟨fun same => ?_, congrArg ofInt⟩
  unfold ofInt at same
  split at same
  · split at same
    · have magnitudes := ofNat_inj.mp (List.cons.inj same).2
      omega
    · exact absurd same.symm (ofNat_ne_minus _ _)
  · split at same
    · exact absurd same (ofNat_ne_minus _ _)
    · have magnitudes := ofNat_inj.mp same
      omega

end Dice.Decimal
