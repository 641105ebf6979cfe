import Dice.Roller.Fixed
import Dice.Roller.Secure
import Dice.Roller.Seeded

namespace Dice

inductive Source where
  | highest
  | replay (faces : List Nat)
  | prepared (stock : List (List Int))
  | secure (tape : Tape)
  | seeded (state : UInt64)
deriving Repr

namespace Source

/-- Draws from a source; the second part is the source in the state it is left in, also after a
fault. -/
def run {α : Type} (source : Source) (draw : {σ : Type} → Roller σ → Rolling σ α) :
    Except Fault α × Source :=
  match source with
  | highest => ((draw Roller.highest).run ()).map id fun _ => highest
  | replay faces => ((draw Roller.replay).run faces).map id replay
  | prepared stock => ((draw Roller.prepared).run stock).map id prepared
  | secure tape => ((draw Roller.secure).run tape).map id secure
  | seeded state => ((draw Roller.seeded).run state).map id seeded

end Source

end Dice
