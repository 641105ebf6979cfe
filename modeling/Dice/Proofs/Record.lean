import Dice.Proofs.Json.Text
import Dice.Proofs.Parse.Reading
import Dice.Proofs.Reach
import Dice.Proofs.Roller.Replay
import Dice.Record
import Dice.Roller.Fixed

namespace Dice.Expression

open Rolling

variable {σ : Type} {limits : Limits} {text : String} {expression : Expression}
  {roller : Roller σ} {start finish : σ} {outcome : Outcome}

theorem sourceText_of_parseWith (accepted : parseWith limits text = .ok expression) :
    expression.sourceText = text := by
  obtain ⟨meanings, _, built⟩ := parseWith_eq_ok_iff.mp accepted
  have source : expression.source = some text := (ofMeanings_eq_ok_iff.mp built).2.2.2.2
  rw [sourceText, source, Option.getD_some]

/-- The record of an outcome is read as the text of the expression, the rolls, the modifier and the
total. The text, read within the same limits and rolled with the absolute values of the rolls, gives
an equal outcome with the same record, and uses all of them up. -/
theorem replay_of_record (accepted : parseWith limits text = .ok expression)
    (rolled : (expression.roll roller).runFrom start = (.ok outcome, finish)) :
    Json.Printable outcome.record.text.toList ∧
    Json.read? outcome.record.text.toList = some (.object
      [("expression".toList, .string text.toList),
        ("rolls".toList, .array (outcome.rolls.map .number)),
        ("modifier".toList, .number outcome.modifier.toInt),
        ("total".toList, .number outcome.total.toInt)]) ∧
    (∀ roll ∈ outcome.rolls, roll.natAbs ≤ 65535) ∧
    ∃ again replayed, parseWith limits text = .ok again ∧
      (again.roll .replay).runFrom (outcome.rolls.map Int.natAbs) = (.ok replayed, []) ∧
      (replayed == outcome) = true ∧ replayed.record.text = outcome.record.text := by
  refine ⟨?_, ?_, ?_, expression, outcome, accepted, ?_, ?_, rfl⟩
  · rw [Json.text, String.toList_ofList]
    exact Json.printable_chars outcome.record
  · have source : outcome.expression.sourceText = text := by
      obtain ⟨blocks, _, rfl⟩ := runFrom_roll_eq_ok_iff.mp rolled
      exact sourceText_of_parseWith accepted
    rw [Json.read?_text, Outcome.record, source]
  · obtain ⟨blocks, calls, rfl⟩ := runFrom_roll_eq_ok_iff.mp rolled
    exact Term.natAbs_le_of_blocks calls.blocks
  · have replayed := replay_of_roll rolled []
    rwa [List.append_nil] at replayed
  · exact Outcome.beq_iff.mpr ⟨rfl, rfl, rfl⟩

/-- A text with all sorts of blanks, which its record keeps. -/
theorem replay_of_blank_record : ∃ text expression outcome,
    text = "\t2d6\u000b-\u00a0d4\r\n+ 3\u0085" ∧ parseWith {} text = .ok expression ∧
    (expression.roll .highest).runFrom () = (.ok outcome, ()) ∧ outcome.rolls = [6, 6, -4] ∧
    Json.read? outcome.record.text.toList = some (.object
      [("expression".toList, .string text.toList),
        ("rolls".toList, .array (outcome.rolls.map .number)),
        ("modifier".toList, .number outcome.modifier.toInt),
        ("total".toList, .number outcome.total.toInt)]) ∧
    ∃ again replayed, parseWith {} text = .ok again ∧
      (again.roll .replay).runFrom [6, 6, 4] = (.ok replayed, []) ∧
      (replayed == outcome) = true ∧ replayed.record.text = outcome.record.text := by
  have shown : (parseWith {} "\t2d6\u000b-\u00a0d4\r\n+ 3\u0085").toOption.bind
      (fun expression => ((expression.roll .highest).runFrom ()).1.toOption.map Outcome.rolls) =
        some [6, 6, -4] := by decide +kernel
  cases accepted : parseWith {} "\t2d6\u000b-\u00a0d4\r\n+ 3\u0085" with
  | error error =>
    rw [accepted] at shown
    cases shown
  | ok expression =>
    rw [accepted] at shown
    rcases rolled : (expression.roll .highest).runFrom () with ⟨fault | outcome, ⟨⟩⟩
    · rw [Except.toOption, Option.bind_some, rolled] at shown
      cases shown
    · rw [Except.toOption, Option.bind_some, rolled] at shown
      have rolls : outcome.rolls = [6, 6, -4] := Option.some.inj shown
      obtain ⟨_, read, _, replayed⟩ := replay_of_record accepted rolled
      rw [rolls] at replayed
      exact ⟨_, expression, outcome, rfl, accepted, rolled, rolls, read, replayed⟩

end Dice.Expression
