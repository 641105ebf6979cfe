namespace Dice.Text

/-- The number of bytes that a text takes in UTF-8. -/
def byteSize : List Char → Nat
  | [] => 0
  | c :: rest => c.utf8Size + byteSize rest

@[simp] theorem byteSize_nil : byteSize [] = 0 := rfl

@[simp] theorem byteSize_cons (c : Char) (text : List Char) :
    byteSize (c :: text) = c.utf8Size + byteSize text := rfl

@[simp] theorem byteSize_append (first second : List Char) :
    byteSize (first ++ second) = byteSize first + byteSize second := by
  induction first with
  | nil => exact (Nat.zero_add _).symm
  | cons c first ih => simp only [List.cons_append, byteSize_cons, ih, Nat.add_assoc]

theorem byteSize_pos {text : List Char} (written : text ≠ []) : 0 < byteSize text := by
  obtain ⟨c, rest, rfl⟩ := List.exists_cons_of_ne_nil written
  exact Nat.add_pos_left c.utf8Size_pos _

/-- A text can be divided at a byte in one way only. -/
theorem append_inj_of_byteSize {first second front back : List Char}
    (same : first ++ second = front ++ back) (size : byteSize first = byteSize front) :
    first = front ∧ second = back := by
  induction first generalizing front with
  | nil =>
    cases front with
    | nil => exact ⟨rfl, same⟩
    | cons c front => exact absurd size (Nat.ne_of_lt (byteSize_pos (List.cons_ne_nil c front)))
  | cons c first ih =>
    cases front with
    | nil => exact absurd size (Nat.ne_of_gt (byteSize_pos (List.cons_ne_nil c first)))
    | cons d front =>
      obtain ⟨rfl, others⟩ := List.cons.inj same
      obtain ⟨rfl, rest⟩ := ih others (Nat.add_left_cancel size)
      exact ⟨rfl, rest⟩

/-- The characters of a text that start before the given byte. -/
def before (bytes : Nat) : List Char → List Char
  | [] => []
  | c :: rest => if bytes = 0 then [] else c :: before (bytes - c.utf8Size) rest

end Dice.Text
