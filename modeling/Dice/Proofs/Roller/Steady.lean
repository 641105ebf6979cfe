import Dice.Proofs.Roller.Flat
import Dice.Roller.Seeded

namespace Dice

open Rolling

theorem Rolling.runFrom_modifyGet {σ α : Type} (draw : σ → α × σ) (start : σ) :
    (modifyGet draw : Rolling σ α).runFrom start = (.ok (draw start).1, (draw start).2) :=
  rfl

namespace Roller

variable {σ : Type}

/-- Every face that is drawn is one that the die has; drawing may still fail. -/
def Honest (die : Number → Rolling σ Nat) : Prop :=
  ∀ sides start face finish, (die sides).runFrom start = (.ok face, finish) →
    1 ≤ face ∧ face ≤ sides.val

/-- Every draw gives a face that the die has. -/
def Steady (die : Number → Rolling σ Nat) : Prop :=
  ∀ sides start, ∃ face finish, (die sides).runFrom start = (.ok face, finish) ∧
    1 ≤ face ∧ face ≤ sides.val

variable {die : Number → Rolling σ Nat} {each : Number × Sign} {start finish : σ} {fault : Fault}

/-- With an honest die it makes no difference whether the faces are checked. -/
theorem Honest.signedDie_eq (honest : Honest die) (sides : Number) (sign : Sign) :
    signedDie die sides sign = (fun face : Nat => sign.apply face) <$> die sides := by
  apply ext_runFrom
  intro start
  rw [map_eq_pure_bind, signedDie]
  apply runFrom_bind_congr
  intro face middle drawn
  have inside := honest sides start face middle drawn
  rw [if_neg (by omega)]

theorem Honest.failed_of_misses (honest : Honest die)
    (missed : Misses die each start fault finish) :
    (die each.1).runFrom start = (.error fault, finish) := by
  cases missed with
  | failed failed => exact failed
  | badFace drawn outside => exact absurd (honest _ _ _ _ drawn) outside

theorem Steady.honest (steady : Steady die) : Honest die := by
  intro sides start face finish drawn
  obtain ⟨shown, last, steadily, inside⟩ := steady sides start
  cases steadily.symm.trans drawn
  exact inside

theorem Steady.not_misses (steady : Steady die) : ¬ Misses die each start fault finish := by
  intro missed
  obtain ⟨face, last, drawn, _⟩ := steady each.1 start
  cases (steady.honest.failed_of_misses missed).symm.trans drawn

theorem Steady.exists_term (steady : Steady die) (term : Term) (start : σ) :
    ∃ rolls finish, ((ofDie die).term term).runFrom start = (.ok rolls, finish) := by
  rcases rolled : ((ofDie die).term term).runFrom start with ⟨fault | rolls, finish⟩
  · obtain ⟨_, _, _, _, _, _, _, failed⟩ := runFrom_mapM_eq_error_iff.mp rolled
    exact absurd (signedDie_eq_error_iff.mp failed) steady.not_misses
  · exact ⟨rolls, finish, rfl⟩

theorem Steady.exists_roll (steady : Steady die) (expression : Expression) (start : σ) :
    ∃ outcome finish, (expression.roll (.ofDie die)).runFrom start = (.ok outcome, finish) := by
  rcases rolled : (expression.roll (.ofDie die)).runFrom start with ⟨fault | outcome, finish⟩
  · obtain ⟨each, _, middle, missed⟩ := Expression.exists_miss_of_error rolled
    exact absurd missed steady.not_misses
  · exact ⟨outcome, finish, rfl⟩

end Roller

namespace Seeded

theorem word_lt (state : UInt64) : word state < UInt32.size := by
  unfold word
  exact UInt32.toNat_lt_size _

theorem drawFace_range (sides : Number) (state : UInt64) :
    1 ≤ (drawFace sides state).1 ∧ (drawFace sides state).1 ≤ sides.val := by
  fun_induction drawFace sides state with
  | case1 state accepted =>
    exact face_range (word_lt (state + step))
  | case2 state rejected ih => exact ih

/-- The seeded die never runs out, and every word that it takes stands for one of its faces. -/
theorem steady : Roller.Steady fun sides => modifyGet (drawFace sides) := by
  intro sides start
  have drawn := runFrom_modifyGet (drawFace sides) start
  exact ⟨(drawFace sides start).1, (drawFace sides start).2, drawn, drawFace_range sides start⟩

end Seeded

end Dice
