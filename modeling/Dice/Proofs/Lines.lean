import Dice.Proofs.Json.Text
import Dice.Record

namespace Dice

open Json

theorem Json.Printable.not_newline {text : List Char} (printable : Printable text) :
    '\n' ∉ text :=
  fun member => absurd (printable '\n' member) (by decide)

theorem Text.forall_mem_intercalate {property : Char → Prop} {separator : List Char}
    {parts : List (List Char)} (between : ∀ c ∈ separator, property c)
    (each : ∀ part ∈ parts, ∀ c ∈ part, property c) :
    ∀ c ∈ separator.intercalate parts, property c := by
  induction parts with
  | nil => simp
  | cons first parts ih =>
    obtain ⟨head, tail⟩ := List.forall_mem_cons.mp each
    cases parts with
    | nil => simpa using head
    | cons second parts =>
      rw [List.intercalate_cons_cons]
      exact List.forall_mem_append.mpr ⟨List.forall_mem_append.mpr ⟨head, between⟩, ih tail⟩

/-- Only digits, signs, blanks and the letter of a term stand in the text. -/
def Text.Spelled (text : List Char) : Prop :=
  ∀ c ∈ text, c.isDigit = true ∨ c ∈ ['d', '+', '-', ' ']

namespace Text

@[simp]
theorem spelled_nil : Spelled [] :=
  List.forall_mem_nil _

@[simp]
theorem spelled_cons {c : Char} {rest : List Char} : Spelled (c :: rest) ↔
    (c.isDigit = true ∨ c ∈ ['d', '+', '-', ' ']) ∧ Spelled rest :=
  List.forall_mem_cons

@[simp]
theorem spelled_append {first second : List Char} :
    Spelled (first ++ second) ↔ Spelled first ∧ Spelled second :=
  List.forall_mem_append

@[simp]
theorem spelled_ofNat (value : Nat) : Spelled (Decimal.ofNat value) :=
  fun _ member => .inl (Decimal.isDigit_of_mem_ofNat member)

@[simp]
theorem spelled_ofInt (value : Int) : Spelled (Decimal.ofInt value) := by
  unfold Decimal.ofInt
  split_ifs <;> simp

theorem Spelled.printable {text : List Char} (spelled : Spelled text) : Printable text := by
  have marks : ∀ c ∈ ['d', '+', '-', ' '], 0x20 ≤ c.toNat := by simp
  intro c member
  rcases spelled c member with digit | mark
  · exact Nat.le_trans (by decide) (Char.isDigit_iff_toNat.mp digit).1
  · exact marks c mark

end Text

open Text

@[simp]
theorem Term.spelled_unsigned (term : Term) : Spelled term.unsigned := by
  simp [unsigned, Number.chars]

theorem Term.spelled_chars (term : Term) : Spelled term.chars := by
  unfold chars
  cases term.sign <;> simp

theorem Term.spelled_appended (term : Term) : Spelled term.appended := by
  unfold appended
  cases term.sign <;> simp [Sign.toChar]

theorem Formula.spelled_modifierChars (modifier : Int) : Spelled (modifierChars modifier) := by
  unfold modifierChars Sign.ofInt
  split_ifs <;> simp [Sign.toChar]

theorem Formula.spelled_chars (formula : Formula) : Spelled formula.chars := by
  have terms : Spelled (termChars formula.terms) := by
    cases formula.terms with
    | nil => exact spelled_nil
    | cons first others =>
      refine spelled_append.mpr ⟨first.spelled_chars, fun c member => ?_⟩
      obtain ⟨term, _, inside⟩ := List.mem_flatMap.mp member
      exact term.spelled_appended c inside
  exact spelled_append.mpr ⟨terms, spelled_modifierChars formula.modifier.toInt⟩

@[simp]
theorem Formula.printable_chars (formula : Formula) : Printable formula.chars :=
  formula.spelled_chars.printable

namespace Outcome

theorem printable_rollChars (limit : Option Nat) (rolls : List Int) :
    Printable (rollChars limit rolls) := by
  have listed : Printable ([',', ' '].intercalate ((listed limit rolls).map Decimal.ofInt)) := by
    refine forall_mem_intercalate (by simp) fun part member => ?_
    obtain ⟨roll, _, rfl⟩ := List.mem_map.mp member
    exact printable_ofInt roll
  refine printable_append.mpr ⟨listed, ?_⟩
  split_ifs <;> simp

theorem printable_describe (limit : Option Nat) (outcome : Outcome) :
    Printable (outcome.describe limit).toList := by
  simp [describe, describeChars, printable_rollChars]

theorem printable_record (outcome : Outcome) : Printable outcome.record.text.toList := by
  rw [Json.text, String.toList_ofList]
  exact Json.printable_chars outcome.record

end Outcome

end Dice
