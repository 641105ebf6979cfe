namespace Dice.Text

/-- The code points with the Unicode property White_Space, as closed ranges. -/
def blankRanges : List (Nat × Nat) :=
  [(0x09, 0x0D), (0x20, 0x20), (0x85, 0x85), (0xA0, 0xA0), (0x1680, 0x1680), (0x2000, 0x200A),
    (0x2028, 0x2029), (0x202F, 0x202F), (0x205F, 0x205F), (0x3000, 0x3000)]

def isBlank (c : Char) : Bool :=
  blankRanges.any fun range => range.1 ≤ c.toNat && c.toNat ≤ range.2

/-- The blanks that a text starts with. -/
def leadingBlanks (text : List Char) : List Char :=
  text.takeWhile isBlank

def trimLeft (text : List Char) : List Char :=
  text.dropWhile isBlank

def trimRight (text : List Char) : List Char :=
  (text.reverse.dropWhile isBlank).reverse

def trim (text : List Char) : List Char :=
  trimRight (trimLeft text)

theorem leadingBlanks_append_trimLeft (text : List Char) :
    leadingBlanks text ++ trimLeft text = text :=
  List.takeWhile_append_dropWhile

/-- The trimmed text followed by blanks is the text without its leading blanks. -/
theorem exists_trim_append (text : List Char) :
    ∃ blanks, trim text ++ blanks = trimLeft text ∧ ∀ c ∈ blanks, isBlank c = true := by
  refine ⟨((trimLeft text).reverse.takeWhile isBlank).reverse, ?_, ?_⟩
  · rw [trim, trimRight, ← List.reverse_append, List.takeWhile_append_dropWhile,
      List.reverse_reverse]
  · intro c member
    exact List.all_eq_true.mp List.all_takeWhile c (List.mem_reverse.mp member)

end Dice.Text
