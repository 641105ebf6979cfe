import Dice.Cli.Command
import Dice.Cli.Event
import Dice.Cli.Help
import Dice.Parse.Expression
import Dice.Record
import Dice.Roller.Source

/-!
Runs of the command line, from the arguments to what is printed.

Nothing is drawn before the expression is accepted. All rounds of a run draw from one source, and
the first fault ends it.
-/

namespace Dice.Cli

/-- What a run leaves behind. Every line of `output` ends in a line feed when it is printed. -/
structure Transcript where
  exitCode : UInt8
  output : List String := []
  events : List Event := []
  /-- What is wrong, if anything is, and where in the expression. -/
  complaint : Option String := none
  position : Option Position := none

/-- The bytes before the first line feed; a carriage return in front of the line feed is dropped as
well. -/
def firstLine (input : List UInt8) : List UInt8 :=
  let line := input.takeWhile (· ≠ 10)
  if line.length < input.length ∧ line.getLast? = some 13 then line.dropLast else line

/-- The text of the expression: the words of the command line, or else the first line of the input,
if that is UTF-8. -/
def expressionText? (words : List String) (input : List UInt8) : Option String :=
  match words with
  | [] => String.fromUTF8? ⟨(firstLine input).toArray⟩
  | words => some (" ".intercalate words)

/-- A run that has got as far as rolling. -/
structure Job where
  expression : Expression
  settings : Settings
  /-- The events up to the first roll. -/
  opening : List Event

namespace Job

/-- The source that the settings ask for; without a seed, the secure one on this tape. -/
def source (job : Job) (tape : Tape) : Source :=
  match job.settings.seed with
  | some seed => .seeded seed
  | none => .secure tape

def times (job : Job) : Nat :=
  job.settings.times.getD 1

def round (job : Job) (source : Source) : Except Fault Outcome × Source :=
  source.run fun roller => job.expression.roll roller

/-- The rolls of so many rounds, up to the first fault. -/
def rounds (job : Job) : Nat → Source → List Outcome × Option Fault
  | 0, _ => ([], none)
  | count + 1, source =>
    match job.round source with
    | (.error fault, _) => ([], some fault)
    | (.ok outcome, source) =>
      let others := job.rounds count source
      (outcome :: others.1, others.2)

def line (job : Job) (outcome : Outcome) : String :=
  if job.settings.json then outcome.record.text
  else outcome.describe job.settings.listLimit

/-- The complaint about a fault. -/
def complaint (fault : Fault) : String :=
  "error: " ++ fault.message

def transcript (job : Job) (tape : Tape) : Transcript :=
  let played := job.rounds job.times (job.source tape)
  { exitCode := if played.2.isSome then 1 else 0
    output := played.1.map job.line
    events := Event.shown job.settings.debug (job.opening ++ played.1.map .rolled)
    complaint := played.2.map complaint }

end Job

inductive Plan where
  /-- There is nothing to roll. -/
  | stop (transcript : Transcript)
  | roll (job : Job)

namespace Plan

/-- The first line of a complaint about the arguments. -/
def usageLine (error : UsageError) : String :=
  String.ofList (error.message.toList.takeWhile (· ≠ '\n'))

def rejected (settings : Settings) (text : String) (error : ParseError) : Transcript where
  exitCode := 2
  events := Event.shown settings.debug [.rejected text error]
  complaint := some ("Error: " ++ error.message)
  position := error.excerpt?.map fun excerpt => excerpt.span.position text.toList

def ofText (settings : Settings) (text : String) : Plan :=
  match Expression.parseWith { maxDice := settings.maxDice } text with
  | .error error => stop (rejected settings text error)
  | .ok expression =>
    roll
      { expression, settings
        opening := .parsed text expression :: (settings.seed.map Event.seeded).toList }

def ofArguments (arguments : List String) (input : List UInt8) : Plan :=
  match Command.ofArguments arguments with
  | .error error => stop { exitCode := 2, complaint := some (usageLine error) }
  | .ok .version => stop { exitCode := 0, output := ["knucklebones 0.1.0"] }
  | .ok .help => stop { exitCode := 0, output := helpLines }
  | .ok (.roll settings words) =>
    match expressionText? words input with
    | none =>
      stop
        { exitCode := 1
          complaint := some
            "error: unable to read expression: stream did not contain valid UTF-8" }
    | some text => ofText settings text

end Plan

/-- Runs a command line: its arguments, its standard input, and a tape of secure draws. -/
def run (arguments : List String) (input : List UInt8) (tape : Tape) : Transcript :=
  match Plan.ofArguments arguments input with
  | .stop transcript => transcript
  | .roll job => job.transcript tape

end Dice.Cli
