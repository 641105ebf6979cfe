import Dice.Proofs.Identity
import Dice.Proofs.Listing

/-!
What a description says of an outcome.

The list of rolls stands between brackets, which nothing else in a description holds. So the
expression, the list and the total can be told apart, and with all rolls in the list a description
tells outcomes apart as equality does. A limit shows exactly if it leaves rolls out.
-/

namespace Dice

open Text

namespace Outcome

variable {limit limit' : Option Nat} {rolls others : List Int}

theorem nil_mem_rollItems_iff : [] ∈ rollItems rolls ↔ rolls = [] := by
  unfold rollItems
  split_ifs with empty
  · simp [empty]
  · simp [empty, Decimal.ofInt_ne_nil]

theorem rollItems_inj : rollItems rolls = rollItems others ↔ rolls = others := by
  refine ⟨fun same => ?_, congrArg rollItems⟩
  by_cases empty : rolls = []
  · have none : [] ∈ rollItems others := same ▸ nil_mem_rollItems_iff.mpr empty
    rw [empty, nil_mem_rollItems_iff.mp none]
  · have nonempty : others ≠ [] := fun none =>
      empty (nil_mem_rollItems_iff.mp (same ▸ nil_mem_rollItems_iff.mpr none))
    rw [rollItems_of_ne_nil empty, rollItems_of_ne_nil nonempty] at same
    exact List.map_injective_iff.mpr (fun _ _ => Decimal.ofInt_inj.mp) same

@[simp]
theorem entries_none (rolls : List Int) : entries none rolls = rollItems rolls :=
  List.append_nil _

/-- The text of a list says which items it was written from. -/
theorem rollChars_eq_iff : rollChars limit rolls = rollChars limit' others ↔
    entries limit rolls = entries limit' others := by
  constructor
  · intro same
    rw [← items_rollChars, same, items_rollChars]
  · intro same
    rw [rollChars_eq, rollChars_eq, same]

theorem rollChars_none_inj : rollChars none rolls = rollChars none others ↔ rolls = others := by
  rw [rollChars_eq_iff, entries_none, entries_none, rollItems_inj]

theorem remainder_not_mem_rollItems (count : Nat) (shown : List Int) :
    remainder count ∉ rollItems shown := by
  intro member
  have letter : 'm' ∈ remainder count := List.mem_append_right _ (by simp)
  have spelled := spelled_of_mem_rollItems member 'm' letter
  simp at spelled

/-- A list is cut short exactly if there are more rolls than its limit. -/
theorem rollChars_some_eq_none_iff {limit : Nat} :
    rollChars (some limit) rolls = rollChars none rolls ↔ rolls.length ≤ limit := by
  constructor
  · intro same
    by_contra longer
    have omits : omitted (some limit) rolls ≠ 0 := Nat.sub_ne_zero_of_lt (Nat.not_le.mp longer)
    have counted : remainder (omitted (some limit) rolls) ∈ entries (some limit) rolls := by
      refine List.mem_append_right _ ?_
      rw [remainderItems, if_neg omits]
      exact List.mem_singleton_self _
    rw [rollChars_eq_iff.mp same, entries_none] at counted
    exact remainder_not_mem_rollItems _ rolls counted
  · intro shorter
    have all : listed (some limit) rolls = listed none rolls := List.take_of_length_le shorter
    have none : omitted (some limit) rolls = omitted none rolls := Nat.sub_eq_zero_of_le shorter
    rw [rollChars, rollChars, all, none]

/-- What stands behind the list. -/
def totalChars (outcome : Outcome) : List Char :=
  ' ' :: '=' :: ' ' :: Decimal.ofInt outcome.total.toInt

theorem describeChars_eq (limit : Option Nat) (outcome : Outcome) :
    outcome.describeChars limit = outcome.expression.chars ++ [' '] ++
      '[' :: (rollChars limit outcome.rolls ++ ']' :: outcome.totalChars) := by
  simp [describeChars, totalChars]

theorem totalChars_inj {first second : Outcome} :
    first.totalChars = second.totalChars ↔ first.total = second.total := by
  simp [totalChars, Decimal.ofInt_inj, Int64.toInt_inj]

theorem markless_totalChars (outcome : Outcome) : Markless outcome.totalChars := by
  have front : Markless [' ', '=', ' '] := by simp [Markless]
  exact List.forall_mem_append.mpr ⟨front, (spelled_ofInt outcome.total.toInt).markless⟩

variable {first second : Outcome}

/-- The parts of a description can be told from each other: each bracket stands there once. -/
theorem describe_eq_iff : first.describe limit = second.describe limit' ↔
    first.expression.toFormula = second.expression.toFormula ∧
      rollChars limit first.rolls = rollChars limit' second.rolls ∧
      first.total = second.total := by
  have front : Markless (first.expression.chars ++ [' ']) :=
    (spelled_append.mpr ⟨Formula.spelled_chars _, by simp⟩).markless
  have behind := first.markless_totalChars
  have opens : '[' ∉ rollChars limit first.rolls ++ ']' :: first.totalChars := by
    simp [bracket_not_mem_rollChars, behind.not_mem]
  have closes : ']' ∉ rollChars limit first.rolls := bracket_not_mem_rollChars (by simp)
  rw [describe, describe, String.ofList_inj, describeChars_eq, describeChars_eq,
    List.append_cons_inj_of_notMem (front.not_mem (by simp)) opens,
    List.append_cons_inj_of_notMem closes (behind.not_mem (by simp)), List.append_cancel_right_eq,
    totalChars_inj, ← Formula.text_inj, Formula.text, Formula.text, String.ofList_inj]
  simp

end Outcome

/-- Outcomes have the same full description exactly if they are equal, and this is so if they have
the same terms, modifier, rolls and total. With a limit, a description is the full one exactly if no
roll is left out. -/
theorem Outcome.told_apart_by_descriptions (first second : Outcome) :
    (first.describe none = second.describe none ↔ (first == second) = true) ∧
    ((first == second) = true ↔ first.expression.terms = second.expression.terms ∧
      first.modifier = second.modifier ∧ first.rolls = second.rolls ∧
      first.total = second.total) ∧
    ∀ limit, first.describe (some limit) = first.describe none ↔ first.rolls.length ≤ limit := by
  refine ⟨?_, ?_, fun limit => ?_⟩
  · rw [describe_eq_iff, rollChars_none_inj, beq_iff]
  · rw [beq_iff, modifier, modifier]
    constructor
    · intro same
      obtain ⟨formulas, rolls, total⟩ := same
      exact ⟨congrArg Formula.terms formulas, congrArg Formula.modifier formulas, rolls, total⟩
    · intro same
      obtain ⟨terms, modifiers, rolls, total⟩ := same
      exact ⟨Formula.ext terms modifiers, rolls, total⟩
  · rw [describe_eq_iff, rollChars_some_eq_none_iff]
    simp

end Dice
