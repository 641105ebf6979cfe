import Dice.Expression
import Dice.Parse.Expression
import Dice.Outcome
import Dice.Record
import Dice.Roller.Source
import Dice.Main
import Dice.Proofs.Grammar
import Dice.Proofs.Rejection
import Dice.Proofs.RoundTrip
import Dice.Proofs.Roller.Calls
import Dice.Proofs.Total
import Dice.Proofs.Roller.Fairness
import Dice.Proofs.Json.Reader
import Dice.Proofs.Json.Text
import Dice.Proofs.Record
import Dice.Proofs.Exactness
import Dice.Proofs.Grouping
import Dice.Proofs.Piece.Placed
import Dice.Proofs.Piece.Descent
import Dice.Proofs.Identity
import Dice.Proofs.Excerpt
import Dice.Proofs.Roller.Steady
import Dice.Proofs.Cli.Options
import Dice.Proofs.Cli.Origin
import Dice.Proofs.Cli.Times
import Dice.Proofs.Lines
import Dice.Proofs.Cli.Rounds
import Dice.Proofs.Joined
import Dice.Proofs.Limits
import Dice.Proofs.Piece.Outline
import Dice.Proofs.Spacing
import Dice.Proofs.Range
import Dice.Proofs.Mirror
import Dice.Proofs.Roller.Script
import Dice.Proofs.Listing
import Dice.Proofs.Description
import Dice.Proofs.Parse.Digits
import Dice.Proofs.Roller.Checks
import Dice.Proofs.Cli.Numeral
import Dice.Proofs.Cli.Spelling
