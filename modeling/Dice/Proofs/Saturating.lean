import Mathlib
import Dice.Saturating

/-!
Saturating totals against the sums of integers that they stand for.

A total that has been clamped is off the exact sum, and stays so until it has gone through the whole
range of the word. Values that cannot do that together are therefore added up exactly only if no sum
on the way leaves the range. If there is room for all of them at once, none does, in whatever order
they are added.
-/

namespace Dice.Saturating

/-- The nearest integer that a signed 64-bit total can hold. -/
def clamp (value : Int) : Int :=
  max (-2 ^ 63) (min value (2 ^ 63 - 1))

/-- The integers that a signed 64-bit total can hold. -/
def Fits (value : Int) : Prop :=
  Int64.minValue.toInt ≤ value ∧ value ≤ Int64.maxValue.toInt

instance (value : Int) : Decidable (Fits value) :=
  inferInstanceAs (Decidable (_ ∧ _))

/-- No step of the sum is clamped: each value is added to a total that has room for it. -/
def Unclamped (start : Int64) (values : List Int) : Prop :=
  ∀ front value, front ++ [value] <+: values → Fits ((sum start front).toInt + value)

/-- A total that is off the exact sum, and too far from the other end of the range for the values to
come to reach it. -/
def Astray (total : Int64) (exact : Int) (left : Nat) : Prop :=
  (total.toInt < exact ∧ Int64.minValue.toInt + left ≤ total.toInt) ∨
    (exact < total.toInt ∧ total.toInt + left ≤ Int64.maxValue.toInt)

section

variable {total start : Int64} {value exact : Int} {values : List Int}

theorem toInt_add_of_fits (fits : Fits (total.toInt + value)) :
    (add total value).toInt = total.toInt + value :=
  toInt_add fits.1 fits.2

theorem toInt_add_of_below (below : total.toInt + value < Int64.minValue.toInt) :
    (add total value).toInt = Int64.minValue.toInt := by
  rw [add, Int64.ofIntClamp, dif_neg (Int.not_le.mpr below)]

theorem toInt_add_of_above (above : Int64.maxValue.toInt < total.toInt + value) :
    (add total value).toInt = Int64.maxValue.toInt := by
  have ends : Int64.minValue.toInt ≤ Int64.maxValue.toInt := by decide
  rw [add, Int64.ofIntClamp, dif_pos (Int.le_trans ends (Int.le_of_lt above)),
    dif_neg (Int.not_le.mpr above)]

/-- Each step is the exact sum, brought back into the range. -/
theorem toInt_add_eq (total : Int64) (value : Int) :
    (add total value).toInt = clamp (total.toInt + value) := by
  have least : Int64.minValue.toInt = -2 ^ 63 := by decide
  have greatest : Int64.maxValue.toInt = 2 ^ 63 - 1 := by decide
  unfold clamp
  rcases lt_or_ge (total.toInt + value) Int64.minValue.toInt with below | low
  · rw [toInt_add_of_below below]
    omega
  · rcases lt_or_ge Int64.maxValue.toInt (total.toInt + value) with above | high
    · rw [toInt_add_of_above above]
      omega
    · rw [toInt_add_of_fits ⟨low, high⟩]
      omega

theorem toInt_sum_eq (start : Int64) (values : List Int) :
    (sum start values).toInt =
      values.foldl (fun total value => clamp (total + value)) start.toInt := by
  induction values generalizing start with
  | nil => rfl
  | cons value values ih => rw [sum_cons, ih, toInt_add_eq, List.foldl_cons]

/-- The first sum that leaves the range leads astray. -/
theorem astray_add_of_not_fits (leaves : ¬ Fits (total.toInt + value)) {left : Nat}
    (few : left < 2 ^ 64) : Astray (add total value) (total.toInt + value) left := by
  have least : Int64.minValue.toInt = -2 ^ 63 := by decide
  have greatest : Int64.maxValue.toInt = 2 ^ 63 - 1 := by decide
  rcases lt_or_ge (total.toInt + value) Int64.minValue.toInt with below | low
  · right
    rw [toInt_add_of_below below]
    omega
  · have above : Int64.maxValue.toInt < total.toInt + value :=
      Int.not_le.mp fun high => leaves ⟨low, high⟩
    left
    rw [toInt_add_of_above above]
    omega

theorem Astray.add {left : Nat} (astray : Astray total exact (value.natAbs + left)) :
    Astray (add total value) (exact + value) left := by
  have least : Int64.minValue.toInt = -2 ^ 63 := by decide
  have greatest : Int64.maxValue.toInt = 2 ^ 63 - 1 := by decide
  have low := total.minValue_le_toInt
  have high := total.toInt_le
  unfold Astray at astray ⊢
  rcases lt_or_ge (total.toInt + value) Int64.minValue.toInt with below | low
  · rw [toInt_add_of_below below]
    omega
  · rcases lt_or_ge Int64.maxValue.toInt (total.toInt + value) with above | high
    · rw [toInt_add_of_above above]
      omega
    · rw [toInt_add_of_fits ⟨low, high⟩]
      omega

theorem Astray.toInt_sum_ne (astray : Astray start exact (values.map Int.natAbs).sum) :
    (sum start values).toInt ≠ exact + values.sum := by
  induction values generalizing start exact with
  | nil =>
    unfold Astray at astray
    simp only [List.map_nil, List.sum_nil, sum_nil] at astray ⊢
    omega
  | cons value values ih =>
    rw [List.map_cons, List.sum_cons] at astray
    rw [sum_cons, List.sum_cons, ← Int.add_assoc]
    exact ih astray.add

/-- A sum is exact if none of its partial sums leaves the range. -/
theorem toInt_sum_of_fits
    (fits : ∀ front, front <+: values → Fits (start.toInt + front.sum)) :
    (sum start values).toInt = start.toInt + values.sum := by
  induction values generalizing start with
  | nil => simp
  | cons value values ih =>
    have step : (add start value).toInt = start.toInt + value := by
      apply toInt_add_of_fits
      simpa using fits [value] (List.prefix_append [value] values)
    have others : ∀ front, front <+: values → Fits ((add start value).toInt + front.sum) := by
      intro front shorter
      rw [step, Int.add_assoc, ← List.sum_cons]
      exact fits (value :: front) (List.cons_prefix_cons.mpr ⟨rfl, shorter⟩)
    rw [sum_cons, ih others, step, List.sum_cons, Int.add_assoc]

/-- Values that cannot go through the whole range of the word have an exact sum only in this way. -/
theorem fits_of_toInt_sum (few : (values.map Int.natAbs).sum < 2 ^ 64)
    (exact : (sum start values).toInt = start.toInt + values.sum) :
    ∀ front, front <+: values → Fits (start.toInt + front.sum) := by
  induction values generalizing start with
  | nil =>
    intro front shorter
    rw [List.prefix_nil.mp shorter, List.sum_nil, Int.add_zero]
    exact ⟨start.minValue_le_toInt, start.toInt_le⟩
  | cons value values ih =>
    rw [List.map_cons, List.sum_cons] at few
    rw [sum_cons, List.sum_cons, ← Int.add_assoc] at exact
    have first : Fits (start.toInt + value) := by
      by_contra leaves
      have small := Nat.lt_of_le_of_lt (Nat.le_add_left ..) few
      exact (astray_add_of_not_fits leaves small).toInt_sum_ne
        exact
    rw [← toInt_add_of_fits first] at exact
    intro front shorter
    cases front with
    | nil =>
      rw [List.sum_nil, Int.add_zero]
      exact ⟨start.minValue_le_toInt, start.toInt_le⟩
    | cons other front =>
      obtain ⟨rfl, rest⟩ := List.cons_prefix_cons.mp shorter
      rw [List.sum_cons, ← Int.add_assoc, ← toInt_add_of_fits first]
      exact ih (Nat.lt_of_le_of_lt (Nat.le_add_left ..) few) exact front rest

theorem unclamped_of_fits
    (fits : ∀ front, front <+: values → Fits (start.toInt + front.sum)) :
    Unclamped start values := by
  intro front value shorter
  have within : ∀ other, other <+: front → Fits (start.toInt + other.sum) := fun other part =>
    fits other (part.trans ((List.prefix_append front [value]).trans shorter))
  have step := fits (front ++ [value]) shorter
  rwa [List.sum_append, List.sum_singleton, ← Int.add_assoc, ← toInt_sum_of_fits within] at step

theorem natAbs_sum_le (values : List Int) :
    values.sum.natAbs ≤ (values.map Int.natAbs).sum := by
  induction values with
  | nil => exact Nat.le_refl 0
  | cons value values ih =>
    rw [List.sum_cons, List.map_cons, List.sum_cons]
    exact (Int.natAbs_add_le value values.sum).trans (Nat.add_le_add_left ih _)

/-- Values that have room in the word together, whatever their signs, keep every partial sum in its
range. -/
theorem fits_of_room (room : start.toInt.natAbs + (values.map Int.natAbs).sum < 2 ^ 63) :
    ∀ front, front <+: values → Fits (start.toInt + front.sum) := by
  intro front shorter
  have fewer : (front.map Int.natAbs).sum ≤ (values.map Int.natAbs).sum :=
    (shorter.sublist.map _).sum_le_sum fun _ _ => Nat.zero_le _
  have size := natAbs_sum_le front
  have least : Int64.minValue.toInt = -2 ^ 63 := by decide
  have greatest : Int64.maxValue.toInt = 2 ^ 63 - 1 := by decide
  unfold Fits
  omega

theorem unclamped_of_room (room : start.toInt.natAbs + (values.map Int.natAbs).sum < 2 ^ 63) :
    Unclamped start values :=
  unclamped_of_fits (fits_of_room room)

theorem toInt_sum (room : start.toInt.natAbs + (values.map Int.natAbs).sum < 2 ^ 63) :
    (sum start values).toInt = start.toInt + values.sum :=
  toInt_sum_of_fits (fits_of_room room)

theorem toInt_neg (room : start.toInt.natAbs < 2 ^ 63) : (-start).toInt = -start.toInt := by
  rw [Int64.toInt_neg]
  exact Int.bmod_eq_of_le (by omega) (by omega)

theorem toInt_sum_neg (room : start.toInt.natAbs + (values.map Int.natAbs).sum < 2 ^ 63) :
    (sum (-start) (values.map fun value => -value)).toInt = -(sum start values).toInt := by
  have negated : (-start).toInt = -start.toInt := toInt_neg (by omega)
  have mirrored : (-start).toInt.natAbs +
      ((values.map fun value => -value).map Int.natAbs).sum < 2 ^ 63 := by
    simpa [negated, Function.comp_def] using room
  rw [toInt_sum room, toInt_sum mirrored, negated, Int.neg_add, List.sum_neg]

/-- A sum with room for all values can be split into two with a share of the start each. -/
theorem toInt_sum_append {first second : Int64} {front back : List Int}
    (shares : start.toInt = first.toInt + second.toInt)
    (room : first.toInt.natAbs + second.toInt.natAbs + (front.map Int.natAbs).sum +
      (back.map Int.natAbs).sum < 2 ^ 63) :
    (sum start (front ++ back)).toInt = (sum first front).toInt + (sum second back).toInt := by
  have start_le : start.toInt.natAbs ≤ first.toInt.natAbs + second.toInt.natAbs :=
    shares ▸ Int.natAbs_add_le first.toInt second.toInt
  have whole : start.toInt.natAbs + ((front ++ back).map Int.natAbs).sum < 2 ^ 63 := by
    rw [List.map_append, List.sum_append, ← Nat.add_assoc]
    refine Nat.lt_of_le_of_lt ?_ room
    gcongr
  rw [toInt_sum whole, toInt_sum (by omega), toInt_sum (by omega), List.sum_append, shares]
  exact add_add_add_comm ..

end

end Dice.Saturating
