import Dice.Decimal

namespace Dice

structure Number where
  val : Nat
  pos : 0 < val
  lt_size : val < 65536
deriving DecidableEq, Repr, Hashable

namespace Number

def one : Number := ⟨1, by decide, by decide⟩

def ofNat? (n : Nat) : Option Number :=
  if fits : 0 < n ∧ n < 65536 then some ⟨n, fits.1, fits.2⟩ else none

def chars (n : Number) : List Char :=
  Decimal.ofNat n.val

@[ext] theorem ext {m n : Number} (same : m.val = n.val) : m = n := by
  cases m; cases n; cases same; rfl

@[simp] theorem ofNat?_val (n : Number) : ofNat? n.val = some n := by
  simp [ofNat?, n.pos, n.lt_size]

theorem ofNat?_eq_none_iff {value : Nat} : ofNat? value = none ↔ value = 0 ∨ 65536 ≤ value := by
  unfold ofNat?
  split <;> simp <;> omega

end Number

end Dice
