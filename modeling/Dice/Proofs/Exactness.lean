import Dice.Proofs.Grammar
import Dice.Proofs.Reach
import Dice.Roller.Fixed

/-!
No sum on the way from a text to a total is clamped.

Each piece of a text takes a byte at least and moves a total by the product of two numbers at most.
So the constants and the dice of a text of up to `2 ^ 30` bytes have room in the word together, and
whatever the dice show, every sum is exact.
-/

namespace Dice

open Rolling Saturating

/-- How far meanings can move a total: their constants, and the dice of their terms. -/
def Meaning.reach (meanings : List Meaning) : Nat :=
  ((meanings.filterMap Meaning.constant?).map Int.natAbs).sum +
    Term.reach (meanings.filterMap Meaning.term?)

namespace Piece

variable {max : UInt16} {piece : Piece} {pieces : List Piece} {meaning : Meaning}
  {meanings : List Meaning}

theorem Means.chars_ne_nil (means : piece.Means max meaning) : piece.chars ≠ [] := by
  cases means with
  | counted front back => simp [chars]
  | single front back => simp [chars]
  | @constant sign head number front =>
    have written : head ≠ [] := by
      rintro rfl
      exact front.ne_nil rfl
    simp [chars, written]

theorem Means.reach_cons_le (means : piece.Means max meaning) (meanings : List Meaning) :
    Meaning.reach (meaning :: meanings) ≤ 65535 * 65535 + Meaning.reach meanings := by
  cases meaning with
  | dice term =>
    have count := term.count.lt_size
    have sides := term.sides.lt_size
    have product : term.count.val * term.sides.val ≤ 65535 * 65535 :=
      Nat.mul_le_mul (by omega) (by omega)
    simp only [Meaning.reach, List.filterMap_cons, Meaning.constant?, Meaning.term?, Term.reach]
    omega
  | constant value =>
    cases means with
    | @constant sign head number front =>
      have small := number.lt_size
      simp only [Meaning.reach, List.filterMap_cons, Meaning.constant?, Meaning.term?,
        List.map_cons, List.sum_cons, Sign.natAbs_apply, Int.natAbs_natCast]
      omega

theorem reach_le_byteSize (means : List.Forall₂ (Means max) pieces meanings) :
    Meaning.reach meanings ≤ 65535 * 65535 * Text.byteSize (pieces.flatMap chars) := by
  induction means with
  | nil => exact Nat.le_refl 0
  | @cons piece meaning pieces meanings first others ih =>
    have more := first.reach_cons_le meanings
    have byte := Text.byteSize_pos first.chars_ne_nil
    rw [List.flatMap_cons, Text.byteSize_append]
    omega

end Piece

namespace Grammar

variable {max : UInt16} {text : List Char} {meanings others : List Meaning}

theorem Sentence.reach_le (sentence : Sentence max text meanings) :
    Meaning.reach meanings ≤ 65535 * 65535 * Text.byteSize text := by
  obtain ⟨front, back, whole, _⟩ := Text.exists_surrounded_trim text
  have size := congrArg Text.byteSize whole
  have bound := Piece.reach_le_byteSize sentence.means
  rw [Piece.flatMap_chars_ofChars] at bound
  rw [Text.byteSize_append, Text.byteSize_append] at size
  omega

theorem Sentence.unique (sentence : Sentence max text meanings) :
    Sentence max text others ↔ others = meanings :=
  ⟨fun also => Piece.meanings_unique sentence.means also.means, fun same => same ▸ sentence⟩

end Grammar

namespace Expression

variable {limits : Limits} {text : String} {expression : Expression}

/-- The constants of an accepted text of up to `2 ^ 30` bytes are added up to its modifier, and the
rolls of its dice to the total, without a sum that is clamped on the way. -/
theorem unclamped_from_text (short : Text.byteSize text.toList ≤ 2 ^ 30)
    (accepted : parseWith limits text = .ok expression) :
    ∃ meanings, (∀ others, Grammar.Sentence limits.maxValue text.toList others ↔
        others = meanings) ∧
      expression.modifier = Saturating.sum 0 (meanings.filterMap Meaning.constant?) ∧
      Unclamped 0 (meanings.filterMap Meaning.constant?) ∧
      expression.modifier.toInt = (meanings.filterMap Meaning.constant?).sum ∧
      ∀ {σ : Type} (roller : Roller σ) (start finish : σ) (outcome : Outcome),
        (expression.roll roller).runFrom start = (.ok outcome, finish) →
          Unclamped expression.modifier outcome.rolls ∧
            outcome.total.toInt = expression.modifier.toInt + outcome.rolls.sum := by
  obtain ⟨meanings, means, built⟩ := parseWith_eq_ok_iff.mp accepted
  obtain ⟨_, _, terms, modifier, _⟩ := ofMeanings_eq_ok_iff.mp built
  have sentence := Grammar.sentence_iff.mpr means
  have reach := sentence.reach_le
  unfold Meaning.reach at reach
  have zero : (0 : Int64).toInt = 0 := rfl
  have constants : (0 : Int64).toInt.natAbs +
      ((meanings.filterMap Meaning.constant?).map Int.natAbs).sum < 2 ^ 63 := by
    rw [zero, Int.natAbs_zero]
    omega
  have exact : expression.modifier.toInt = (meanings.filterMap Meaning.constant?).sum := by
    rw [modifier, toInt_sum constants, zero, Int.zero_add]
  have size := natAbs_sum_le (meanings.filterMap Meaning.constant?)
  have room : expression.modifier.toInt.natAbs + Term.reach expression.terms < 2 ^ 63 := by
    rw [exact, terms]
    omega
  refine ⟨meanings, fun others => sentence.unique, modifier, unclamped_of_room constants, exact, ?_⟩
  intro σ roller start finish outcome rolled
  exact unclamped_of_reach room rolled

/-- The greatest constant behind a minus, and dice of both signs. -/
theorem unclamped_from_signed_text : ∃ text expression outcome, text = "2d6 - 65535 - d4 + 9" ∧
    Text.byteSize text.toList ≤ 2 ^ 30 ∧
    parseWith { maxValue := 65535 } text = .ok expression ∧
    expression.modifier.toInt = -65526 ∧
    (expression.roll .highest).runFrom () = (.ok outcome, ()) ∧ outcome.rolls = [6, 6, -4] ∧
    Unclamped expression.modifier outcome.rolls ∧
    outcome.total.toInt = expression.modifier.toInt + outcome.rolls.sum := by
  have shown : (parseWith { maxValue := 65535 } "2d6 - 65535 - d4 + 9").toOption.bind
      (fun expression => ((expression.roll .highest).runFrom ()).1.toOption.map fun outcome =>
        (expression.modifier.toInt, outcome.rolls)) = some (-65526, [6, 6, -4]) := by decide +kernel
  have short : Text.byteSize "2d6 - 65535 - d4 + 9".toList ≤ 2 ^ 30 := by decide +kernel
  cases accepted : parseWith { maxValue := 65535 } "2d6 - 65535 - d4 + 9" with
  | error error =>
    rw [accepted] at shown
    cases shown
  | ok expression =>
    rw [accepted, Except.toOption, Option.bind_some] at shown
    rcases rolled : (expression.roll .highest).runFrom () with ⟨fault | outcome, ⟨⟩⟩
    · rw [rolled] at shown
      cases shown
    · rw [rolled] at shown
      obtain ⟨modifier, rolls⟩ := Prod.mk.inj (Option.some.inj shown)
      obtain ⟨_, _, _, _, _, exact⟩ := unclamped_from_text short accepted
      obtain ⟨free, total⟩ := exact Roller.highest () () outcome rolled
      exact ⟨_, expression, outcome, rfl, short, accepted, modifier, rolled, rolls, free, total⟩

end Expression

end Dice
