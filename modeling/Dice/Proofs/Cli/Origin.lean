import Dice.Cli.Run
import Dice.Proofs.Cli.Options
import Dice.Proofs.Text.Utf8

namespace Dice.Cli

open Text

theorem run_eq_of_text {arguments others first second : List String} {input other : List UInt8}
    {tape : Tape} {asked : Except UsageError Command}
    (left : Command.ofArguments arguments = asked.map (Command.withWords first))
    (right : Command.ofArguments others = asked.map (Command.withWords second))
    (text : expressionText? first input = expressionText? second other) :
    run arguments input tape = run others other tape := by
  unfold run Plan.ofArguments
  rw [left, right]
  rcases asked with error | (_ | _ | ⟨settings, words⟩)
  · rfl
  · rfl
  · rfl
  · simp only [Except.map, Command.withWords, text]

theorem expressionText?_joined (first : String) (others : List String) (input other : List UInt8) :
    expressionText? (first :: others) input =
      expressionText? [" ".intercalate (first :: others)] other := by
  simp only [expressionText?, String.intercalate_singleton]

theorem expressionText?_word (word : String) (input : List UInt8) :
    expressionText? [word] input = some word :=
  congrArg some String.intercalate_singleton

section

variable {line rest : List UInt8} {text : String}

/-- The rest of an input behind its first line. -/
def EndsLine (rest : List UInt8) : Prop :=
  rest = [] ∨ rest.head? = some 10

theorem exists_line (input : List UInt8) :
    ∃ line rest, input = line ++ rest ∧ 10 ∉ line ∧ EndsLine rest := by
  induction input with
  | nil => exact ⟨[], [], rfl, List.not_mem_nil, .inl rfl⟩
  | cons byte input ih =>
    by_cases feed : byte = 10
    · exact ⟨[], byte :: input, rfl, List.not_mem_nil, .inr (congrArg some feed)⟩
    · obtain ⟨line, rest, rfl, free, ending⟩ := ih
      have inside := List.not_mem_cons_of_ne_of_not_mem (Ne.symm feed) free
      exact ⟨byte :: line, rest, rfl, inside, ending⟩

/-- A carriage return is dropped only where a line feed follows. -/
theorem firstLine_append (free : 10 ∉ line) (ending : EndsLine rest) : firstLine (line ++ rest) =
    if rest ≠ [] ∧ line.getLast? = some 13 then line.dropLast else line := by
  have inside : ∀ byte ∈ line, decide (byte ≠ 10) = true :=
    fun byte member => decide_eq_true fun same => free (same ▸ member)
  have stop : rest.takeWhile (· ≠ 10) = [] := by
    rcases ending with rfl | feed
    · rfl
    · obtain ⟨more, rfl⟩ := List.head?_eq_some_iff.mp feed
      rfl
  have found : (line ++ rest).takeWhile (· ≠ 10) = line := by
    rw [List.takeWhile_append_of_pos inside, stop, List.append_nil]
  have longer : line.length < (line ++ rest).length ↔ rest ≠ [] := by
    rw [List.length_append, ← List.length_pos_iff]
    omega
  simp only [firstLine, found, longer]

/-- A text without the carriage return at its end. -/
def withoutReturn (text : String) : String :=
  if text.toList.getLast? = some '\r' then String.ofList text.toList.dropLast else text

/-- The text of a first line; one that a line feed ends has no carriage return in front of it. -/
def lineText (text : String) (rest : List UInt8) : String :=
  if rest = [] then text else withoutReturn text

theorem expressionText?_line (free : 10 ∉ line) (ending : EndsLine rest)
    (written : line = utf8 text.toList) :
    expressionText? [] (line ++ rest) = some (lineText text rest) := by
  rw [expressionText?, firstLine_append free ending, fromUTF8?_eq_some_iff, written]
  by_cases last : rest = []
  · rw [if_neg fun ended => ended.1 last, lineText, if_pos last]
  · rw [lineText, if_neg last, withoutReturn]
    by_cases carriage : text.toList.getLast? = some '\r'
    · rw [if_pos ⟨last, getLast?_utf8.mpr carriage⟩, if_pos carriage, String.toList_ofList,
        utf8_dropLast carriage]
    · rw [if_neg fun ended => carriage (getLast?_utf8.mp ended.2), if_neg carriage]

/-- The text that is to be read: the words with a blank between each two, or else the first line of
the input. -/
inductive Supplied : List String → List UInt8 → String → Prop where
  | words (first : String) (others : List String) (input : List UInt8) :
      Supplied (first :: others) input (" ".intercalate (first :: others))
  | line {line rest : List UInt8} {text : String} (free : 10 ∉ line) (ending : EndsLine rest)
      (written : line = utf8 text.toList) : Supplied [] (line ++ rest) (lineText text rest)

theorem Supplied.expressionText?_eq {words : List String} {input : List UInt8}
    (supplied : Supplied words input text) : expressionText? words input = some text := by
  cases supplied with
  | words first others input => rfl
  | line free ending written => exact expressionText?_line free ending written

theorem expressionText?_unreadable (free : 10 ∉ line) (ending : EndsLine rest)
    (unreadable : ∀ text : String, line ≠ utf8 text.toList) :
    expressionText? [] (line ++ rest) = none := by
  rw [expressionText?, firstLine_append free ending, Option.eq_none_iff_forall_not_mem]
  intro text read
  have written := fromUTF8?_eq_some_iff.mp read
  split_ifs at written with dropped
  · obtain ⟨others, split⟩ := List.getLast?_eq_some_iff.mp dropped.2
    refine unreadable (String.ofList (text.toList ++ ['\r'])) ?_
    have last : utf8 ['\r'] = [13] := rfl
    rw [String.toList_ofList, utf8_append, ← written, last, split, List.dropLast_concat]
  · exact unreadable text written

/-- What stands behind the first line is not looked at, as long as a line feed ends the line. -/
theorem firstLine_of_feed {more : List UInt8} (free : 10 ∉ line) (feed : rest.head? = some 10)
    (other : more.head? = some 10) : firstLine (line ++ rest) = firstLine (line ++ more) := by
  have some {bytes : List UInt8} (feed : bytes.head? = some 10) : bytes ≠ [] := by
    rintro rfl
    cases feed
  rw [firstLine_append free (.inr feed), firstLine_append free (.inr other)]
  simp only [ne_eq, some feed, some other]

end

section

variable {waits : Bool} {options : List String} {line rest : List UInt8}

theorem Options.ofArguments_self (parts : Options waits options) :
    Command.ofArguments options =
      (Command.ofArguments options).map (Command.withWords []) := by
  have nothing : Follows waits [] := fun _ absent => nomatch absent
  have alone := parts.ofArguments_append nothing rfl
  rwa [List.append_nil] at alone

/-- The first line of the input counts as a word behind an end of options. -/
theorem run_line (parts : Options waits options) (free : 10 ∉ line) (ending : EndsLine rest)
    {text : String} (written : line = utf8 text.toList) (other : List UInt8) (tape : Tape) :
    run options (line ++ rest) tape = run (options ++ ["--", lineText text rest]) other tape := by
  refine run_eq_of_text parts.ofArguments_self (parts.ofArguments_endOfOptions _) ?_
  rw [expressionText?_line free ending written, expressionText?_word]

theorem run_unreadable (parts : Options waits options) (free : 10 ∉ line) (ending : EndsLine rest)
    (unreadable : ∀ text : String, line ≠ utf8 text.toList) {settings : Settings}
    {words : List String} (asked : Command.ofArguments options = .ok (.roll settings words))
    (tape : Tape) :
    run options (line ++ rest) tape =
      { exitCode := 1
        output := []
        complaint := some
          "error: unable to read expression: stream did not contain valid UTF-8" } := by
  have none : words = [] := by
    have same := parts.ofArguments_self
    rw [asked] at same
    injection same with same
    injection same
  subst none
  have stopped := expressionText?_unreadable free ending unreadable
  simp only [run, Plan.ofArguments, asked, stopped]

theorem run_of_no_roll
    (idle : ∀ settings words, Command.ofArguments options ≠ .ok (.roll settings words))
    (input other : List UInt8) (tape : Tape) : run options input tape = run options other tape := by
  unfold run Plan.ofArguments
  rcases asked : Command.ofArguments options with error | (_ | _ | ⟨settings, words⟩)
  · rfl
  · rfl
  · rfl
  · exact absurd asked (idle settings words)

theorem run_joined (parts : Options false options) {first : String}
    (word : Argument.ofString first = .word) (others : List String) (input other : List UInt8)
    (tape : Tape) :
    run (options ++ first :: others) input tape =
      run (options ++ [" ".intercalate (first :: others)]) other tape := by
  have joined := Argument.ofString_joined word others
  exact run_eq_of_text (parts.ofArguments_word word others) (parts.ofArguments_word joined [])
    (expressionText?_joined first others input other)

theorem run_joined_behind (parts : Options waits options) (first : String) (others : List String)
    (input other : List UInt8) (tape : Tape) :
    run (options ++ "--" :: first :: others) input tape =
      run (options ++ ["--", " ".intercalate (first :: others)]) other tape :=
  run_eq_of_text (parts.ofArguments_endOfOptions _) (parts.ofArguments_endOfOptions _)
    (expressionText?_joined first others input other)

theorem run_feed (parts : Options waits options) (free : 10 ∉ line) {more : List UInt8}
    (feed : rest.head? = some 10) (other : more.head? = some 10) (tape : Tape) :
    run options (line ++ rest) tape = run options (line ++ more) tape := by
  refine run_eq_of_text parts.ofArguments_self parts.ofArguments_self ?_
  rw [expressionText?, expressionText?, firstLine_of_feed free feed other]

end

/-- A run does not show whether its expression came in several words, in one, or in the first line
of the input; and of the input it shows nothing else. Every command line is options and an ending,
and every input a first line and a rest. -/
theorem run_blind_to_origin (tape : Tape) :
    (∀ arguments, Splits arguments) ∧
    (∀ input : List UInt8, ∃ line rest, input = line ++ rest ∧ 10 ∉ line ∧ EndsLine rest) ∧
    ∀ waits options, Options waits options →
      (∀ first others input other, waits = false → Argument.ofString first = .word →
        run (options ++ first :: others) input tape =
          run (options ++ [" ".intercalate (first :: others)]) other tape) ∧
      (∀ first others input other, run (options ++ "--" :: first :: others) input tape =
        run (options ++ ["--", " ".intercalate (first :: others)]) other tape) ∧
      (∀ line rest, 10 ∉ line → EndsLine rest →
        (∀ text : String, line = utf8 text.toList → ∀ other,
          run options (line ++ rest) tape =
            run (options ++ ["--", lineText text rest]) other tape) ∧
        ((∀ text : String, line ≠ utf8 text.toList) →
          (∃ settings words, Command.ofArguments options = .ok (.roll settings words)) →
          run options (line ++ rest) tape =
            { exitCode := 1
              output := []
              complaint := some
                "error: unable to read expression: stream did not contain valid UTF-8" }) ∧
        ∀ more, rest.head? = some 10 → more.head? = some 10 →
          run options (line ++ rest) tape = run options (line ++ more) tape) ∧
      ((∀ settings words, Command.ofArguments options ≠ .ok (.roll settings words)) →
        ∀ input other, run options input tape = run options other tape) := by
  refine ⟨splits, exists_line, fun waits options parts => ⟨?joined, ?behind, ?lines, ?idle⟩⟩
  case joined =>
    rintro first others input other rfl word
    exact run_joined parts word others input other tape
  case behind =>
    intro first others input other
    exact run_joined_behind parts first others input other tape
  case lines =>
    intro line rest free ending
    refine ⟨fun text written other => run_line parts free ending written other tape,
      fun unreadable asked => ?_, fun more feed other => run_feed parts free feed other tape⟩
    obtain ⟨settings, words, asked⟩ := asked
    exact run_unreadable parts free ending unreadable asked tape
  case idle =>
    intro idle input other
    exact run_of_no_roll idle input other tape

private theorem ne_utf8 (text : String) : [255] ≠ utf8 text.toList := by
  intro written
  cases fromUTF8?_eq_some_iff.mpr written

theorem origins_agree :
    run ["--seed", "7", "2d6", "--json", "-3"] [] [] =
      run ["--seed", "7", "2d6 --json -3"] [] [] ∧
    run ["--seed", "7", "--", "-3", "+", "d4"] [] [] =
      run ["--seed", "7", "--", "-3 + d4"] [] [] ∧
    run ["--seed", "7"] [100, 54, 13, 10, 255] [] = run ["--seed", "7", "--", "d6"] [] [] ∧
    run ["--seed", "7"] [255] [] =
      { exitCode := 1
        complaint := some
          "error: unable to read expression: stream did not contain valid UTF-8" } := by
  have parts : Options false ["--seed", "7"] := .valued rfl rfl .nil
  obtain ⟨joined, behind, lines, -⟩ := (run_blind_to_origin []).2.2 false _ parts
  refine ⟨joined "2d6" ["--json", "-3"] [] [] rfl rfl, behind "-3" ["+", "d4"] [] [], ?_, ?_⟩
  · exact (lines [100, 54, 13] [10, 255] (by decide) (.inr rfl)).1 "d6\x0d" rfl []
  · exact (lines [255] [] (by decide) (.inl rfl)).2.1 ne_utf8 ⟨_, _, rfl⟩

/-- An unreadable line is no fault where nothing is to be rolled. -/
theorem version_beside_unreadable :
    Options false ["--seed", "1", "--version"] ∧ (∀ text : String, [255] ≠ utf8 text.toList) ∧
      ¬ ((run ["--seed", "1", "--version"] [255] []).exitCode = 1 ∧
        (run ["--seed", "1", "--version"] [255] []).output = []) := by
  refine ⟨.valued rfl rfl (.complete rfl .nil), ne_utf8, ?_⟩
  rintro ⟨failed, -⟩
  cases failed

end Dice.Cli
