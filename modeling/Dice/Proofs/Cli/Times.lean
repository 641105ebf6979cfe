import Dice.Proofs.Cli.CommandLine

namespace Dice.Cli

open Command

namespace Settings

/-- The settings with another number of rounds. -/
def retimed (times : Nat) (settings : Settings) : Settings :=
  { settings with times := some times }

variable {settings next final : Settings} {written options : List String} {count : Nat}

theorem Given.retimed {text : String} {setting : Setting}
    (value : settings.Given text setting next) (given : settings.times = some count)
    (times : Nat) :
    (settings.retimed times).Given text setting (next.retimed times) ∧
      next.times = some count := by
  cases value with
  | times absent numeral => cases absent.symm.trans given
  | seed fresh numeral => exact ⟨.seed fresh numeral, given⟩
  | maxDice fresh numeral => exact ⟨.maxDice fresh numeral, given⟩
  | listLimit fresh numeral => exact ⟨.listLimit fresh numeral, given⟩

/-- The number of rounds is given once, and no other option looks at it. -/
theorem Step.retimed (step : Step settings written next) (given : settings.times = some count)
    (times : Nat) :
    Step (settings.retimed times) written (next.retimed times) ∧ next.times = some count := by
  cases step with
  | json fresh => exact ⟨.json fresh, given⟩
  | debug fresh spelled => exact ⟨.debug fresh spelled, given⟩
  | value spelled value =>
    obtain ⟨value, kept⟩ := value.retimed given times
    exact ⟨.value spelled value, kept⟩
  | letters fresh value =>
    obtain ⟨value, kept⟩ := value.retimed given times
    exact ⟨.letters fresh value, kept⟩

theorem Steps.retimed (steps : Steps settings options final) (given : settings.times = some count)
    (times : Nat) :
    Steps (settings.retimed times) options (final.retimed times) ∧ final.times = some count := by
  induction steps with
  | nil => exact ⟨.nil, given⟩
  | cons first rest ih =>
    obtain ⟨first, kept⟩ := first.retimed given times
    obtain ⟨rest, kept⟩ := ih kept
    exact ⟨.cons first rest, kept⟩

end Settings

/-- The ways to write the number of rounds; one of them asks for the log as well. -/
inductive Timed (value : String) : Bool → List String → Prop where
  | spelled {written : List String} (spelled : Spelled value .times written) :
      Timed value false written
  | letters : Timed value true ["-dn", value]

/-- Two command lines that are alike, but for the value of the number of rounds among their
options. -/
inductive Retimed (few many : String) : List String → List String → Prop where
  | intro {front back first second : List String} {settings : Settings} {log : Bool}
      (steps : Settings.Steps {} front settings) (written : Timed few log first)
      (rewritten : Timed many log second) :
      Retimed few many (front ++ (first ++ back)) (front ++ (second ++ back))

section

variable {settings next final : Settings} {written rest options words : List String}
  {value : String} {count : Nat} {log : Bool}

theorem Settings.give_times_eq_ok_iff
    (numeral : Numeral.Signed (UInt32.size - 1) value.toList count) :
    settings.give .times value = .ok next ↔
      settings.times = none ∧ next = settings.retimed count := by
  rw [give_eq_ok_iff]
  constructor
  · intro given
    cases given with
    | times fresh other =>
      cases numeral.unique (by decide) other
      exact ⟨fresh, rfl⟩
  · rintro ⟨fresh, rfl⟩
    exact .times fresh numeral

theorem Timed.ofRest_eq_ok_iff (timed : Timed value log written)
    (numeral : Numeral.Signed (UInt32.size - 1) value.toList count) :
    ofRest none settings (written ++ rest) = .ok (.roll final words) ↔
      settings.times = none ∧ (log = true → settings.debug = false) ∧
        ofRest none { settings with times := some count, debug := settings.debug || log } rest =
          .ok (.roll final words) := by
  cases timed with
  | spelled spelled =>
    rw [spelled.ofRest_eq_ok_iff numeral.ofString_eq_word]
    simp [Settings.give_times_eq_ok_iff numeral, Settings.retimed, and_assoc]
  | letters =>
    have option : Argument.ofString "-dn" = .options [.turnOn .debug] (some .times) := rfl
    refine (ofRest_apart_eq_ok_iff option numeral.ofString_eq_word).trans ?_
    simp [ofRequests_turnOn_eq_ok_iff, Settings.turnOn_debug_eq_ok_iff,
      Settings.give_times_eq_ok_iff numeral, Settings.retimed, and_left_comm]

/-- Another number of rounds changes this one setting. -/
theorem Retimed.commandLine {few many : String} {arguments more : List String} {times : Nat}
    (retimed : Retimed few many arguments more) (line : CommandLine arguments settings words)
    (read : Numeral.Signed (UInt32.size - 1) few.toList count)
    (other : Numeral.Signed (UInt32.size - 1) many.toList times) :
    settings.times = some count ∧ CommandLine more (settings.retimed times) words := by
  rw [← CommandLine.ofArguments_eq_ok_iff, ← ofRest_start] at line ⊢
  cases retimed with
  | intro steps written rewritten =>
    rw [steps.ofRest_eq_ok_iff] at line ⊢
    rw [written.ofRest_eq_ok_iff read] at line
    rw [rewritten.ofRest_eq_ok_iff other]
    obtain ⟨fresh, quiet, asked⟩ := line
    obtain ⟨options, rest, rfl, after, behind⟩ := Settings.exists_steps asked
    obtain ⟨after, known⟩ := after.retimed rfl times
    exact ⟨known, fresh, quiet, after.ofRest_eq_ok_iff.mpr behind.ofRest_eq⟩

theorem Settings.Step.exists_timed (step : Step settings written next)
    (fresh : settings.times = none) (given : next.times = some count) :
    ∃ value log, Timed value log written ∧
      Numeral.Signed (UInt32.size - 1) value.toList count := by
  cases step with
  | json => cases fresh.symm.trans given
  | debug => cases fresh.symm.trans given
  | @letters next value quiet taken =>
    cases taken with
    | times absent numeral =>
      cases given
      exact ⟨value, true, .letters, numeral⟩
  | @value next setting value written spelled taken =>
    cases taken with
    | times absent numeral =>
      cases given
      exact ⟨value, false, .spelled spelled, numeral⟩
    | seed => cases fresh.symm.trans given
    | maxDice => cases fresh.symm.trans given
    | listLimit => cases fresh.symm.trans given

theorem Settings.Steps.exists_timed (steps : Steps settings options final)
    (fresh : settings.times = none) (given : final.times = some count) :
    ∃ front back first start few log, options = front ++ (first ++ back) ∧
      Steps settings front start ∧ Timed few log first ∧
      Numeral.Signed (UInt32.size - 1) few.toList count := by
  induction steps with
  | nil => cases fresh.symm.trans given
  | @cons settings next final written others first rest ih =>
    cases found : next.times with
    | none =>
      obtain ⟨front, back, argument, start, few, log, rfl, steps, timed⟩ := ih found given
      exact ⟨written ++ front, back, argument, start, few, log, by simp, .cons first steps, timed⟩
    | some times =>
      cases (rest.retimed found times).2.symm.trans given
      obtain ⟨few, log, timed, numeral⟩ := first.exists_timed fresh found
      exact ⟨[], others, written, settings, few, log, rfl, .nil, timed, numeral⟩

theorem CommandLine.exists_retimed {arguments : List String}
    (line : CommandLine arguments settings words) (given : settings.times = some count) :
    ∃ few, Numeral.Signed (UInt32.size - 1) few.toList count ∧
      ∀ many, ∃ more, Retimed few many arguments more := by
  cases line with
  | intro steps behind =>
    obtain ⟨front, back, first, start, few, log, rfl, steps, timed, numeral⟩ :=
      steps.exists_timed rfl given
    refine ⟨few, numeral, fun many => ?_⟩
    have rewritten : ∃ second, Timed many log second := by
      cases log with
      | false => exact ⟨_, .spelled .letter⟩
      | true => exact ⟨_, .letters⟩
    obtain ⟨second, rewritten⟩ := rewritten
    rw [List.append_assoc, List.append_assoc]
    exact ⟨_, .intro steps timed rewritten⟩

end

end Dice.Cli
