namespace Dice.Saturating

def mulWord (a b : UInt32) : UInt32 :=
  UInt32.ofNatClamp (a.toNat * b.toNat)

def addWord (a b : UInt32) : UInt32 :=
  UInt32.ofNatClamp (a.toNat + b.toNat)

def addShort (a b : UInt16) : UInt16 :=
  UInt16.ofNatClamp (a.toNat + b.toNat)

theorem toNat_mulWord {a b : UInt32} (fits : a.toNat * b.toNat < UInt32.size) :
    (mulWord a b).toNat = a.toNat * b.toNat := by
  rw [mulWord, UInt32.ofNatClamp_eq_ofNat _ fits]
  exact Nat.mod_eq_of_lt fits

theorem toNat_addWord {a b : UInt32} (fits : a.toNat + b.toNat < UInt32.size) :
    (addWord a b).toNat = a.toNat + b.toNat := by
  rw [addWord, UInt32.ofNatClamp_eq_ofNat _ fits]
  exact Nat.mod_eq_of_lt fits

theorem toNat_addShort {a b : UInt16} (fits : a.toNat + b.toNat < UInt16.size) :
    (addShort a b).toNat = a.toNat + b.toNat := by
  rw [addShort, UInt16.ofNatClamp_eq_ofNat _ fits]
  exact Nat.mod_eq_of_lt fits

/-- Adds an integer to a signed 64-bit total. -/
def add (total : Int64) (value : Int) : Int64 :=
  Int64.ofIntClamp (total.toInt + value)

/-- Adds integers to a total from left to right, each sum saturating on its own. -/
def sum (start : Int64) (values : List Int) : Int64 :=
  values.foldl add start

@[simp] theorem sum_nil (start : Int64) : sum start [] = start := rfl

@[simp] theorem sum_cons (start : Int64) (value : Int) (values : List Int) :
    sum start (value :: values) = sum (add start value) values := rfl

theorem sum_append (start : Int64) (first second : List Int) :
    sum start (first ++ second) = sum (sum start first) second :=
  List.foldl_append

theorem toInt_add {total : Int64} {value : Int} (low : Int64.minValue.toInt ≤ total.toInt + value)
    (high : total.toInt + value ≤ Int64.maxValue.toInt) :
    (add total value).toInt = total.toInt + value :=
  Int64.toInt_ofIntClamp low high

theorem zero_add (word : Int64) : add 0 word.toInt = word := by
  apply Int64.toInt_inj.mp
  have zero : (0 : Int64).toInt = 0 := rfl
  rw [toInt_add, zero, Int.zero_add]
  · rw [zero, Int.zero_add]
    exact word.minValue_le_toInt
  · rw [zero, Int.zero_add]
    exact word.toInt_le

end Dice.Saturating
