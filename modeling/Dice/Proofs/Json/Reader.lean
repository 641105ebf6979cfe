import Mathlib
import Dice.Json

/-!
A reader of JSON.

A text is read token by token, where numbers and strings are values at once. The tokens are put
together from the right: when a bracket or brace that opens is met, every value between it and the
one that ends it is whole already.

Only the values that records are made of are read: integers, strings, arrays and objects.
-/

namespace Dice.Json

section

variable {text rest : List Char}

def hexDigit? (c : Char) : Option Nat :=
  if c.isDigit then some (c.toNat - '0'.toNat)
  else if 'a' ≤ c ∧ c ≤ 'f' then some (c.toNat - 'a'.toNat + 10)
  else if 'A' ≤ c ∧ c ≤ 'F' then some (c.toNat - 'A'.toNat + 10)
  else none

/-- The code unit that a text begins with, as four hexadecimal digits, and what follows them. -/
def unit? : List Char → Option (Nat × List Char)
  | first :: second :: third :: fourth :: rest => do
    let high := (← hexDigit? first) * 16 + (← hexDigit? second)
    let low := (← hexDigit? third) * 16 + (← hexDigit? fourth)
    return (high * 256 + low, rest)
  | _ => none

/-- The other half of a surrogate pair. -/
def lowHalf? : List Char → Option (Nat × List Char)
  | '\\' :: 'u' :: text => (unit? text).filter fun found => 0xDC00 ≤ found.1 && found.1 < 0xE000
  | _ => none

/-- The character that a code unit stands for, which may take a second one, and what follows. -/
def decoded? (unit : Nat) (rest : List Char) : Option (Char × List Char) :=
  if unit < 0xD800 ∨ 0xE000 ≤ unit then some (Char.ofNat unit, rest)
  else if unit < 0xDC00 then
    (lowHalf? rest).map fun found =>
      (Char.ofNat (0x10000 + (unit - 0xD800) * 0x400 + (found.1 - 0xDC00)), found.2)
  else none

def letter? (c : Char) : Option Char :=
  if c = '"' ∨ c = '\\' ∨ c = '/' then some c
  else if c = 'b' then some '\x08'
  else if c = 't' then some '\t'
  else if c = 'n' then some '\n'
  else if c = 'f' then some '\x0c'
  else if c = 'r' then some '\r'
  else none

def escaped? : List Char → Option (Char × List Char)
  | [] => none
  | c :: rest =>
    if c = 'u' then (unit? rest).bind fun found => decoded? found.1 found.2
    else (letter? c).map (·, rest)

/-- The next character of a string, and what follows. -/
def character? : List Char → Option (Char × List Char)
  | [] => none
  | c :: rest =>
    if c = '\\' then escaped? rest
    else if c = '"' ∨ c.toNat < 0x20 then none
    else some (c, rest)

private theorem length_lt_of_unit? {unit : Nat} (read : unit? text = some (unit, rest)) :
    rest.length < text.length := by
  unfold unit? at read
  split at read
  · simp only [bind, pure, Option.bind_eq_some_iff] at read
    obtain ⟨_, _, _, _, _, _, _, _, same⟩ := read
    cases same
    simp only [List.length_cons]
    omega
  · cases read

private theorem length_lt_of_lowHalf? {low : Nat} (read : lowHalf? text = some (low, rest)) :
    rest.length < text.length := by
  unfold lowHalf? at read
  split at read
  · have shorter := length_lt_of_unit? (Option.filter_eq_some_iff.mp read).1
    simp only [List.length_cons]
    omega
  · cases read

private theorem length_le_of_decoded? {unit : Nat} {c : Char}
    (read : decoded? unit text = some (c, rest)) : rest.length ≤ text.length := by
  unfold decoded? at read
  split at read
  · cases read
    exact Nat.le_refl _
  · split at read
    · obtain ⟨found, low, same⟩ := Option.map_eq_some_iff.mp read
      rw [← (Prod.mk.inj same).2]
      exact Nat.le_of_lt (length_lt_of_lowHalf? low)
    · cases read

private theorem length_lt_of_escaped? {c : Char} (read : escaped? text = some (c, rest)) :
    rest.length < text.length := by
  unfold escaped? at read
  split at read
  · cases read
  · split at read
    · obtain ⟨found, unit, decoded⟩ := Option.bind_eq_some_iff.mp read
      have first := length_lt_of_unit? unit
      have second := length_le_of_decoded? decoded
      exact Nat.lt_succ_of_lt (Nat.lt_of_le_of_lt second first)
    · obtain ⟨meant, _, same⟩ := Option.map_eq_some_iff.mp read
      cases same
      exact Nat.lt_succ_self _

theorem length_lt_of_character? {c : Char} (read : character? text = some (c, rest)) :
    rest.length < text.length := by
  unfold character? at read
  split at read
  · cases read
  · split at read
    · exact Nat.lt_succ_of_lt (length_lt_of_escaped? read)
    · split at read
      · cases read
      · cases read
        exact Nat.lt_succ_self _

def string? (text : List Char) : Option (List Char × List Char) :=
  match _ : character? text with
  | some (c, rest) => (string? rest).map fun found => (c :: found.1, found.2)
  | none =>
    match text with
    | '"' :: rest => some ([], rest)
    | _ => none
termination_by text.length
decreasing_by exact length_lt_of_character? ‹_›

theorem length_lt_of_string? {inside : List Char} (read : string? text = some (inside, rest)) :
    rest.length < text.length := by
  fun_induction string? text generalizing inside rest with
  | case1 text c middle first ih =>
    obtain ⟨found, others, same⟩ := Option.map_eq_some_iff.mp read
    cases same
    exact Nat.lt_trans (ih others) (length_lt_of_character? first)
  | case2 rest none =>
    cases read
    exact Nat.lt_succ_self _
  | case3 => cases read

/-- The number that a text begins with, and what follows it. Its digits are those that the number is
written with, so there are no leading zeroes. -/
def natural? (text : List Char) : Option (Nat × List Char) :=
  let digits := text.takeWhile Char.isDigit
  if digits = Decimal.ofNat (Decimal.value digits) then
    some (Decimal.value digits, text.dropWhile Char.isDigit)
  else none

def integer? : List Char → Option (Int × List Char)
  | '-' :: text => (natural? text).map fun found => (-(found.1 : Int), found.2)
  | text => (natural? text).map fun found => ((found.1 : Int), found.2)

theorem length_lt_of_natural? {value : Nat} (read : natural? text = some (value, rest)) :
    rest.length < text.length := by
  dsimp only [natural?] at read
  split at read
  · rename_i same
    cases read
    have written := List.length_pos_iff.mpr (same ▸ Decimal.ofNat_ne_nil _)
    have split : text.takeWhile Char.isDigit ++ text.dropWhile Char.isDigit = text :=
      List.takeWhile_append_dropWhile
    have parts := congrArg List.length split
    rw [List.length_append] at parts
    omega
  · cases read

theorem length_lt_of_integer? {value : Int} (read : integer? text = some (value, rest)) :
    rest.length < text.length := by
  unfold integer? at read
  split at read
  · obtain ⟨found, digits, same⟩ := Option.map_eq_some_iff.mp read
    cases same
    exact Nat.lt_succ_of_lt (length_lt_of_natural? digits)
  · obtain ⟨found, digits, same⟩ := Option.map_eq_some_iff.mp read
    cases same
    exact length_lt_of_natural? digits

inductive Token where
  | mark (c : Char)
  | whole (json : Json)

def marks : List Char := ['[', ']', '{', '}', ',', ':']

/-- The token that a text begins with, and what follows it. -/
def token? : List Char → Option (Token × List Char)
  | [] => none
  | c :: rest =>
    if c ∈ marks then some (.mark c, rest)
    else if c = '"' then (string? rest).map fun found => (.whole (.string found.1), found.2)
    else (integer? (c :: rest)).map fun found => (.whole (.number found.1), found.2)

theorem length_lt_of_token? {token : Token} (read : token? text = some (token, rest)) :
    rest.length < text.length := by
  unfold token? at read
  split at read
  · cases read
  · split at read
    · cases read
      exact Nat.lt_succ_self _
    · split at read
      · obtain ⟨found, inside, same⟩ := Option.map_eq_some_iff.mp read
        cases same
        exact Nat.lt_succ_of_lt (length_lt_of_string? inside)
      · obtain ⟨found, digits, same⟩ := Option.map_eq_some_iff.mp read
        cases same
        exact length_lt_of_integer? digits

end

/-- The items of an array up to the bracket that ends it, and what follows the bracket. -/
def items? : List Token → Option (List Json × List Token)
  | .whole last :: .mark ']' :: rest => some ([last], rest)
  | .whole item :: .mark ',' :: rest => (items? rest).map fun found => (item :: found.1, found.2)
  | _ => none

/-- The fields of an object up to the brace that ends it, and what follows the brace. -/
def fields? : List Token → Option (List (List Char × Json) × List Token)
  | .whole (.string name) :: .mark ':' :: .whole last :: .mark '}' :: rest =>
    some ([(name, last)], rest)
  | .whole (.string name) :: .mark ':' :: .whole value :: .mark ',' :: rest =>
    (fields? rest).map fun found => ((name, value) :: found.1, found.2)
  | _ => none

/-- Puts a token in front of others. One that opens an array or object takes what belongs to it. -/
def put? : Token → List Token → Option (List Token)
  | .mark '[', .mark ']' :: rest => some (.whole (.array []) :: rest)
  | .mark '[', tokens => (items? tokens).map fun found => .whole (.array found.1) :: found.2
  | .mark '{', .mark '}' :: rest => some (.whole (.object []) :: rest)
  | .mark '{', tokens => (fields? tokens).map fun found => .whole (.object found.1) :: found.2
  | token, tokens => some (token :: tokens)

/-- The tokens of a text, put together as far as they can be. Blanks between tokens mean nothing. -/
def tokens? (text : List Char) : Option (List Token) :=
  match _ : token? text with
  | some (token, rest) => (tokens? rest).bind (put? token)
  | none =>
    match text with
    | [] => some []
    | c :: rest => if c ∈ [' ', '\t', '\n', '\r'] then tokens? rest else none
termination_by text.length
decreasing_by
  · exact length_lt_of_token? ‹_›
  · exact Nat.lt_succ_self _

def read? (text : List Char) : Option Json :=
  match tokens? text with
  | some [.whole json] => some json
  | _ => none

end Dice.Json
