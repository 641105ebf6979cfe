import Dice.Cli.Run

namespace Dice.Cli

/-- Words of four bytes each, the lowest byte first. -/
def tapeOfBytes : List UInt8 → Tape
  | a :: b :: c :: d :: rest =>
    .word (a.toUInt32 ||| b.toUInt32 <<< 8 ||| c.toUInt32 <<< 16 ||| d.toUInt32 <<< 24) ::
      tapeOfBytes rest
  | _ => []

def drawTape (words : Nat) : IO Tape := do
  try
    return tapeOfBytes (← IO.getRandomBytes (4 * words).toUSize).toList
  catch error =>
    return [.failure (toString error)]

/-- One round; a tape that turns out too short is lengthened first. -/
partial def playRound (job : Job) (source : Source) : IO (Except Fault Outcome × Source) := do
  match source, job.round source with
  | .secure tape, (.error .tapeFinished, _) =>
    playRound job (.secure (tape ++ (← drawTape (tape.length + 64))))
  | _, played => return played

def report (job : Job) (events : List Event) : IO Unit :=
  (Event.shown job.settings.debug events).forM fun event => IO.eprintln event.line

partial def play (job : Job) (rounds : Nat) (source : Source) : IO UInt8 := do
  if rounds = 0 then return 0
  match ← playRound job source with
  | (.error fault, _) =>
    IO.eprintln (Job.complaint fault)
    return 1
  | (.ok outcome, source) =>
    report job [.rolled outcome]
    IO.println (job.line outcome)
    play job (rounds - 1) source

def printAll (transcript : Transcript) : IO UInt8 := do
  transcript.events.forM fun event => IO.eprintln event.line
  transcript.output.forM fun line => IO.println line
  match transcript.complaint, transcript.position with
  | none, _ => pure ()
  | some complaint, none => IO.eprintln complaint
  | some complaint, some position => do
    IO.eprintln complaint
    IO.eprintln ("  at line " ++ toString position.line ++ ", column " ++ toString position.column)
  return transcript.exitCode

/-- Standard input is read only if the arguments hold no expression. -/
def readInput (arguments : List String) : IO (List UInt8) := do
  match Command.ofArguments arguments with
  | .ok (.roll _ []) => return (← (← IO.getStdin).readBinToEnd).toList
  | _ => return []

end Dice.Cli

open Dice.Cli in
def main (arguments : List String) : IO UInt32 := do
  let code ← match Plan.ofArguments arguments (← readInput arguments) with
    | .stop transcript => printAll transcript
    | .roll job => do
      report job job.opening
      play job job.times (job.source [])
  return code.toUInt32
