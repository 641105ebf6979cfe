import Dice.Proofs.Cli.Origin
import Dice.Proofs.Cli.Times
import Dice.Proofs.Lines
import Dice.Proofs.Roller.Steady

namespace Dice.Cli

open Rolling

namespace Job

/-- Fewer rounds roll the front of what more rounds do. -/
theorem rounds_take (job : Job) {few many : Nat} (fewer : few ≤ many) (source : Source) :
    (job.rounds few source).1 = (job.rounds many source).1.take few := by
  induction few generalizing many source with
  | zero => rfl
  | succ few ih =>
    obtain ⟨many, rfl⟩ : ∃ less, many = less + 1 := Nat.exists_eq_add_one.mpr (by omega)
    rcases played : job.round source with ⟨fault | outcome, after⟩
    · simp only [rounds, played, List.take_nil]
    · simp only [rounds, played, List.take_succ_cons]
      rw [ih (Nat.le_of_succ_le_succ fewer) after]

theorem rounds_congr {job other : Job} (same : job.expression = other.expression) (count : Nat)
    (source : Source) : job.rounds count source = other.rounds count source := by
  have alike (source : Source) : job.round source = other.round source := by
    rw [round, round, same]
  induction count generalizing source with
  | zero => rfl
  | succ count ih => simp only [rounds, alike, ih]

end Job

/-- The outcomes of so many rolls of the expression, one after the other from the seeded roller. -/
def SeededRolls (expression : Expression) (count : Nat) (seed : UInt64) (outcomes : List Outcome) :
    Prop :=
  ∃ last, Chain (fun _ start outcome finish =>
    (expression.roll .seeded).runFrom start = (.ok outcome, finish))
    (List.replicate count ()) seed outcomes last

theorem SeededRolls.length_eq {expression : Expression} {count : Nat} {seed : UInt64}
    {outcomes : List Outcome} (rolled : SeededRolls expression count seed outcomes) :
    outcomes.length = count := by
  obtain ⟨last, chain⟩ := rolled
  have paired : List.Forall₂ (fun _ _ => True) (List.replicate count ()) outcomes :=
    chain.forall₂ fun _ _ _ _ _ => trivial
  rw [← paired.length_eq, List.length_replicate]

theorem SeededRolls.eq_cons {expression : Expression} {count : Nat} {seed middle : UInt64}
    {outcomes : List Outcome} {outcome : Outcome}
    (rolled : SeededRolls expression (count + 1) seed outcomes)
    (first : (expression.roll .seeded).runFrom seed = (.ok outcome, middle)) :
    ∃ others, outcomes = outcome :: others ∧ SeededRolls expression count middle others := by
  obtain ⟨last, chain⟩ := rolled
  cases chain with
  | cons same others =>
    cases first.symm.trans same
    exact ⟨_, rfl, last, others⟩

/-- No round with the seeded source fails. -/
theorem Job.rounds_seeded (job : Job) (count : Nat) (seed : UInt64) :
    ∃ outcomes, SeededRolls job.expression count seed outcomes ∧
      job.rounds count (.seeded seed) = (outcomes, none) := by
  induction count generalizing seed with
  | zero => exact ⟨[], ⟨seed, .nil⟩, rfl⟩
  | succ count ih =>
    obtain ⟨outcome, middle, first⟩ := Seeded.steady.exists_roll job.expression seed
    obtain ⟨outcomes, ⟨last, others⟩, played⟩ := ih middle
    have round : job.round (.seeded seed) = (.ok outcome, .seeded middle) := by
      change Prod.map id Source.seeded ((job.expression.roll .seeded).runFrom seed) = _
      exact congrArg (Prod.map id Source.seeded) first
    refine ⟨outcome :: outcomes, ⟨last, .cons first others⟩, ?_⟩
    simp only [rounds, round, played]

theorem Job.printable_line (job : Job) (outcome : Outcome) :
    Json.Printable (job.line outcome).toList := by
  unfold line
  split_ifs
  · exact outcome.printable_record
  · exact outcome.printable_describe job.settings.listLimit

/-- The job of rolling an accepted expression. -/
def Job.ofText (settings : Settings) (text : String) (expression : Expression) : Job where
  expression := expression
  settings := settings
  opening := .parsed text expression :: (settings.seed.map Event.seeded).toList

/-- All that a run prints: each line with a line feed behind it. -/
def Transcript.printed (transcript : Transcript) : List Char :=
  transcript.output.flatMap fun line => line.toList ++ ['\n']

section

variable {arguments words : List String} {settings : Settings} {input : List UInt8} {text : String}
  {error : ParseError} {expression : Expression} {seed : UInt64}

theorem run_rejected (asked : Command.ofArguments arguments = .ok (.roll settings words))
    (given : expressionText? words input = some text)
    (refused : Expression.parseWith { maxDice := settings.maxDice } text = .error error)
    (tape : Tape) : run arguments input tape = Plan.rejected settings text error := by
  simp only [run, Plan.ofArguments, asked, given, Plan.ofText, refused]

theorem run_accepted (asked : Command.ofArguments arguments = .ok (.roll settings words))
    (given : expressionText? words input = some text)
    (accepted : Expression.parseWith { maxDice := settings.maxDice } text = .ok expression)
    (tape : Tape) :
    run arguments input tape = (Job.ofText settings text expression).transcript tape := by
  simp only [run, Plan.ofArguments, asked, given, Plan.ofText, accepted]
  rfl

theorem output_retimed (asked : Command.ofArguments arguments = .ok (.roll settings words))
    (given : expressionText? words input = some text) {more : List String} {count times : Nat}
    (known : settings.times = some count)
    (other : Command.ofArguments more = .ok (.roll (settings.retimed times) words))
    (fewer : count ≤ times) (tape : Tape) :
    (run arguments input tape).output = (run more input tape).output.take count := by
  cases read : Expression.parseWith { maxDice := settings.maxDice } text with
  | error error =>
    rw [run_rejected asked given read, run_rejected other given read]
    exact List.take_nil.symm
  | ok expression =>
    rw [run_accepted asked given read, run_accepted other given read]
    let job := Job.ofText settings text expression
    let longer := Job.ofText (settings.retimed times) text expression
    have shorter : job.times = count := congrArg (Option.getD · 1) known
    have same : job.rounds times (job.source tape) = longer.rounds times (longer.source tape) :=
      Job.rounds_congr (show job.expression = longer.expression from rfl) times _
    have rolled : (job.rounds count (job.source tape)).1 =
        (longer.rounds times (longer.source tape)).1.take count := by
      rw [job.rounds_take fewer, same]
    change (job.rounds job.times _).1.map job.line = ((longer.rounds times _).1.map _).take count
    rw [shorter, rolled, List.map_take]
    rfl

/-- A run that is given a seed: an expression that is refused draws nothing and prints nothing, and
of an accepted one all rounds are printed, one line for each. The settings are those that the
command line spells, and no other command line asks for a roll. -/
theorem run_seeded (line : CommandLine arguments settings words)
    (seeded : settings.seed = some seed) (supplied : Supplied words input text) (tape : Tape) :
    (∀ settings words, Command.ofArguments arguments = .ok (.roll settings words) ↔
      CommandLine arguments settings words) ∧
    (∀ error, Expression.parseWith { maxDice := settings.maxDice } text = .error error →
      (run arguments input tape).exitCode = 2 ∧ (run arguments input tape).output = [] ∧
      (run arguments input tape).events = Event.shown settings.debug [.rejected text error]) ∧
    (∀ expression, Expression.parseWith { maxDice := settings.maxDice } text = .ok expression →
      (run arguments input tape).exitCode = 0 ∧
      (run arguments input tape).output.length = settings.times.getD 1 ∧
      (∀ line ∈ (run arguments input tape).output, '\n' ∉ line.toList) ∧
      ∃ outcomes, SeededRolls expression (settings.times.getD 1) seed outcomes ∧
        (run arguments input tape).output = outcomes.map fun outcome =>
          if settings.json then outcome.record.text else outcome.describe settings.listLimit) ∧
    (∀ count, settings.times = some count →
      ∃ few, Numeral.Signed (UInt32.size - 1) few.toList count ∧
        ∀ many, ∃ more, Retimed few many arguments more) ∧
    ∀ few many more count times, Retimed few many arguments more →
      Numeral.Signed (UInt32.size - 1) few.toList count →
      Numeral.Signed (UInt32.size - 1) many.toList times → count ≤ times →
      (run arguments input tape).output = (run more input tape).output.take count ∧
      (run arguments input tape).printed <+: (run more input tape).printed := by
  have asked : Command.ofArguments arguments = .ok (.roll settings words) :=
    CommandLine.ofArguments_eq_ok_iff.mpr line
  have given := supplied.expressionText?_eq
  refine ⟨fun _ _ => CommandLine.ofArguments_eq_ok_iff, fun error refused => ?refused,
    fun expression accepted => ?accepted, fun count known => line.exists_retimed known,
    fun few many more count times retimed read other fewer => ?front⟩
  case refused =>
    rw [run_rejected asked given refused]
    exact ⟨rfl, rfl, rfl⟩
  case accepted =>
    let job := Job.ofText settings text expression
    have source : job.source tape = .seeded seed := by
      simp only [job, Job.source, Job.ofText, seeded]
    obtain ⟨outcomes, rolled, played⟩ := job.rounds_seeded job.times seed
    have output : (run arguments input tape).output = outcomes.map job.line := by
      rw [run_accepted asked given accepted]
      change (job.rounds job.times (job.source tape)).1.map job.line = _
      rw [source, played]
    have exit : (run arguments input tape).exitCode = 0 := by
      rw [run_accepted asked given accepted]
      change (if (job.rounds job.times (job.source tape)).2.isSome then 1 else 0) = (0 : UInt8)
      rw [source, played]
      rfl
    refine ⟨exit, ?_, ?_, outcomes, rolled, output⟩
    · rw [output, List.length_map, rolled.length_eq]
      rfl
    · intro line member
      rw [output] at member
      obtain ⟨outcome, _, rfl⟩ := List.mem_map.mp member
      exact (job.printable_line outcome).not_newline
  case front =>
    obtain ⟨known, changed⟩ := retimed.commandLine line read other
    have longer := CommandLine.ofArguments_eq_ok_iff.mpr changed
    have front := output_retimed asked given known longer fewer tape
    refine ⟨front, ?_⟩
    rw [Transcript.printed, front]
    exact (List.take_prefix count _).flatMap _

end

private def six : Number := ⟨6, by decide, by decide⟩

private def twoSixes : Expression where
  terms := [⟨⟨2, by decide, by decide⟩, six, .positive⟩]
  terms_ne_nil := List.cons_ne_nil _ _
  modifier := 1
  source := some "2d6 + 1"

private theorem shows_next (state next : UInt64) (face : Nat) (step : state + Seeded.step = next)
    (accepted : Seeded.accepts six (Seeded.word next) = true)
    (shown : Seeded.face six (Seeded.word next) = face) (inside : 1 ≤ face ∧ face ≤ 6) :
    Roller.Shows (fun sides => modifyGet (Seeded.drawFace sides)) (six, .positive) state face
      next := by
  subst step shown
  refine ⟨_, ?_, inside, rfl⟩
  rw [runFrom_modifyGet, Seeded.drawFace_of_accepts accepted]

private theorem rolls_with_seven {outcomes : List Outcome}
    (rolled : SeededRolls twoSixes 2 7 outcomes) :
    outcomes = [.ofRolls twoSixes [3, 2], .ofRolls twoSixes [3, 4]] := by
  have first : (twoSixes.roll .seeded).runFrom 7 =
      (.ok (.ofRolls twoSixes [3, 2]), 6515331631289004369) := by
    have three := shows_next 7 3257665815644502188 3 rfl (by decide +kernel) (by decide +kernel)
      (by decide)
    have two := shows_next 3257665815644502188 6515331631289004369 2 rfl (by decide +kernel)
      (by decide +kernel) (by decide)
    exact Expression.runFrom_roll_ofDie_eq_ok_iff.mpr ⟨[3, 2], .cons three (.cons two .nil), rfl⟩
  have second : (twoSixes.roll .seeded).runFrom 6515331631289004369 =
      (.ok (.ofRolls twoSixes [3, 4]), 13030663262578008731) := by
    have three := shows_next 6515331631289004369 9772997446933506550 3 rfl (by decide +kernel)
      (by decide +kernel) (by decide)
    have four := shows_next 9772997446933506550 13030663262578008731 4 rfl (by decide +kernel)
      (by decide +kernel) (by decide)
    exact Expression.runFrom_roll_ofDie_eq_ok_iff.mpr ⟨[3, 4], .cons three (.cons four .nil), rfl⟩
  obtain ⟨others, same, rolled⟩ := rolled.eq_cons first
  obtain ⟨last, others_eq, rolled⟩ := rolled.eq_cons second
  rw [same, others_eq, List.length_eq_zero_iff.mp rolled.length_eq]

theorem run_seeded_with_seven :
    ((run ["--seed", "7", "-dn", "2", "--list-limit=1", "2d6", "+ 1"] [] []).exitCode = 0 ∧
      (run ["--seed", "7", "-dn", "2", "--list-limit=1", "2d6", "+ 1"] [] []).output =
        ["2d6 + 1 [3, 1 more...] = 6", "2d6 + 1 [3, 1 more...] = 8"] ∧
      (run ["--seed", "7", "-dn", "1", "--list-limit=1", "2d6", "+ 1"] [] []).output =
        ["2d6 + 1 [3, 1 more...] = 6"]) ∧
    ((run ["--json", "--seed=7", "--times", "2", "--", "2d6 + 1"] [] []).exitCode = 0 ∧
      (run ["--json", "--seed=7", "--times", "2", "--", "2d6 + 1"] [] []).output =
        ["\x7b\"expression\":\"2d6 + 1\",\"rolls\":[3,2],\"modifier\":1,\"total\":6\x7d",
          "\x7b\"expression\":\"2d6 + 1\",\"rolls\":[3,4],\"modifier\":1,\"total\":8\x7d"]) ∧
    (run ["--seed", "7", "--max-dice", "1"] [50, 100, 54, 10] []).exitCode = 2 ∧
      (run ["--seed", "7", "--max-dice", "1"] [50, 100, 54, 10] []).output = [] := by
  refine ⟨?described, ?recorded, ?refused⟩
  case described =>
    have line : CommandLine ["--seed", "7", "-dn", "2", "--list-limit=1", "2d6", "+ 1"]
        { times := some 2, seed := some 7, listLimit := some 1, debug := true } ["2d6", "+ 1"] :=
      CommandLine.ofArguments_eq_ok_iff.mp rfl
    have supplied : Supplied ["2d6", "+ 1"] [] "2d6 + 1" := .words "2d6" ["+ 1"] []
    have shorter : CommandLine ["--seed", "7", "-dn", "1", "--list-limit=1", "2d6", "+ 1"]
        { times := some 1, seed := some 7, listLimit := some 1, debug := true } ["2d6", "+ 1"] :=
      CommandLine.ofArguments_eq_ok_iff.mp rfl
    have seed : Settings.Steps {} ["--seed", "7"] { seed := some 7 } :=
      .cons (.value (.apart .seed) (.seed rfl (Numeral.readNat_eq_ok_iff.mp rfl))) .nil
    have retimed : Retimed "1" "2"
        (["--seed", "7"] ++ (["-dn", "1"] ++ ["--list-limit=1", "2d6", "+ 1"]))
        (["--seed", "7"] ++ (["-dn", "2"] ++ ["--list-limit=1", "2d6", "+ 1"])) :=
      .intro seed .letters .letters
    obtain ⟨-, -, accepted, -, -⟩ := run_seeded line rfl supplied []
    obtain ⟨-, -, -, -, front⟩ := run_seeded shorter rfl supplied []
    obtain ⟨exit, -, -, outcomes, rolled, output⟩ := accepted twoSixes rfl
    have fewer := (front "1" "2" _ 1 2 retimed ((Numeral.readRanged_eq_ok_iff (by decide)).mp rfl)
      ((Numeral.readRanged_eq_ok_iff (by decide)).mp rfl) (by decide)).1
    rw [rolls_with_seven rolled] at output
    have front := fewer.trans (congrArg (List.take 1) output)
    exact ⟨exit, output.trans (by decide +kernel), front.trans (by decide +kernel)⟩
  case recorded =>
    have line : CommandLine ["--json", "--seed=7", "--times", "2", "--", "2d6 + 1"]
        { times := some 2, seed := some 7, json := true } ["2d6 + 1"] :=
      CommandLine.ofArguments_eq_ok_iff.mp rfl
    have supplied : Supplied ["2d6 + 1"] [] "2d6 + 1" := .words "2d6 + 1" [] []
    obtain ⟨-, -, accepted, -, -⟩ := run_seeded line rfl supplied []
    obtain ⟨exit, -, -, outcomes, rolled, output⟩ := accepted twoSixes rfl
    rw [rolls_with_seven rolled] at output
    exact ⟨exit, output.trans (by decide +kernel)⟩
  case refused =>
    have line : CommandLine ["--seed", "7", "--max-dice", "1"]
        { seed := some 7, maxDice := some 1 } [] := CommandLine.ofArguments_eq_ok_iff.mp rfl
    have supplied : Supplied [] ([50, 100, 54] ++ [10]) "2d6" :=
      Supplied.line (by decide) (.inr rfl) (rfl : _ = Text.utf8 "2d6".toList)
    obtain ⟨-, refused, -, -, -⟩ := run_seeded line rfl supplied []
    obtain ⟨exit, output, -⟩ := refused _ rfl
    exact ⟨exit, output⟩

end Dice.Cli
