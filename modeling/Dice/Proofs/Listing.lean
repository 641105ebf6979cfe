import Dice.Proofs.Lines
import Dice.Proofs.Roller.Calls
import Dice.Roller.Fixed

namespace Dice

namespace Text

/-- None of the marks that lists are set in stands in the text. -/
def Markless (text : List Char) : Prop :=
  ∀ c ∈ text, c ∉ ['[', ']', ',']

theorem Spelled.markless {text : List Char} (spelled : Spelled text) : Markless text := by
  have marks : ∀ c ∈ ['[', ']', ','], ¬ (c.isDigit = true ∨ c ∈ ['d', '+', '-', ' ']) := by simp
  exact fun c member mark => marks c mark (spelled c member)

theorem Markless.not_mem {text : List Char} (markless : Markless text) {c : Char}
    (mark : c ∈ ['[', ']', ',']) : c ∉ text :=
  fun member => markless c member mark

/-- The items of a list that has a comma and a blank between them. -/
def items : List Char → List (List Char)
  | [] => [[]]
  | ',' :: ' ' :: rest => [] :: items rest
  | c :: rest => (items rest).modifyHead (c :: ·)

/-- What stands behind the first bracket that opens, up to the next one that closes. -/
def bracketed (text : List Char) : List Char :=
  ((text.dropWhile (· ≠ '[')).drop 1).takeWhile (· ≠ ']')

theorem items_append {front : List Char} (clean : ',' ∉ front) (back : List Char) :
    items (front ++ back) = (items back).modifyHead (front ++ ·) := by
  induction front with
  | nil => exact (congrFun List.modifyHead_id _).symm
  | cons c front ih =>
    obtain ⟨other, clean⟩ := not_or.mp (mt List.mem_cons.mpr clean)
    rw [List.cons_append, items, ih clean, List.modifyHead_modifyHead]
    · rfl
    · exact fun _ same => absurd same.symm other

theorem items_eq_singleton {item : List Char} (clean : ',' ∉ item) : items item = [item] := by
  simpa [items] using items_append clean []

theorem items_separated {item : List Char} (clean : ',' ∉ item) (back : List Char) :
    items (item ++ ([',', ' '] ++ back)) = item :: items back := by
  rw [items_append clean]
  change ([] :: items back).modifyHead _ = _
  rw [List.modifyHead_cons, List.append_nil]

/-- Reading the items back undoes writing them, if there are any and no comma stands in one. -/
theorem items_intercalate {parts : List (List Char)} (nonempty : parts ≠ [])
    (clean : ∀ part ∈ parts, ',' ∉ part) : items ([',', ' '].intercalate parts) = parts := by
  induction parts with
  | nil => contradiction
  | cons first others ih =>
    obtain ⟨head, tail⟩ := List.forall_mem_cons.mp clean
    cases others with
    | nil => rw [List.intercalate_singleton, items_eq_singleton head]
    | cons second others =>
      rw [List.intercalate_cons_cons, List.append_assoc, items_separated head,
        ih (List.cons_ne_nil _ _) tail]

theorem intercalate_concat (separator last : List Char) {parts : List (List Char)}
    (nonempty : parts ≠ []) : separator.intercalate (parts ++ [last]) =
      separator.intercalate parts ++ (separator ++ last) := by
  induction parts with
  | nil => contradiction
  | cons first others ih =>
    cases others with
    | nil => simp
    | cons second others =>
      have behind := ih (List.cons_ne_nil _ _)
      rw [List.cons_append] at behind
      rw [List.cons_append, List.cons_append, List.intercalate_cons_cons, behind,
        List.intercalate_cons_cons, List.append_assoc _ _ (separator ++ last)]

theorem bracketed_append {front inner : List Char} (opens : '[' ∉ front) (closes : ']' ∉ inner)
    (back : List Char) : bracketed (front ++ '[' :: inner ++ ']' :: back) = inner := by
  have before : ∀ c ∈ front, decide (c ≠ '[') = true :=
    fun c member => decide_eq_true (ne_of_mem_of_not_mem member opens)
  have inside : ∀ c ∈ inner, decide (c ≠ ']') = true :=
    fun c member => decide_eq_true (ne_of_mem_of_not_mem member closes)
  rw [bracketed, List.append_assoc, List.dropWhile_append_of_pos before]
  change (inner ++ ']' :: back).takeWhile _ = inner
  rw [List.takeWhile_append_of_pos inside]
  simp

end Text

open Text

namespace Outcome

/-- How a list says that this many rolls are left out. -/
def remainder (count : Nat) : List Char :=
  Decimal.ofNat count ++ " more...".toList

/-- The items between the brackets of a description. -/
def listing (limit : Option Nat) (outcome : Outcome) : List (List Char) :=
  items (bracketed (outcome.describe limit).toList)

/-- The items that are written for the listed rolls: an empty one if there are none. -/
def rollItems (shown : List Int) : List (List Char) :=
  if shown = [] then [[]] else shown.map Decimal.ofInt

def remainderItems (count : Nat) : List (List Char) :=
  if count = 0 then [] else [remainder count]

def entries (limit : Option Nat) (rolls : List Int) : List (List Char) :=
  rollItems (listed limit rolls) ++ remainderItems (omitted limit rolls)

section

variable {shown : List Int}

theorem rollItems_of_ne_nil (nonempty : shown ≠ []) :
    rollItems shown = shown.map Decimal.ofInt :=
  if_neg nonempty

theorem rollItems_ne_nil (shown : List Int) : rollItems shown ≠ [] := by
  unfold rollItems
  split_ifs with empty
  · exact List.cons_ne_nil _ _
  · exact mt List.map_eq_nil_iff.mp empty

theorem intercalate_rollItems (separator : List Char) (shown : List Int) :
    separator.intercalate (rollItems shown) =
      separator.intercalate (shown.map Decimal.ofInt) := by
  unfold rollItems
  split_ifs with empty
  · simp [empty]
  · rfl

theorem spelled_of_mem_rollItems {item : List Char} (member : item ∈ rollItems shown) :
    Spelled item := by
  unfold rollItems at member
  split_ifs at member
  · cases List.mem_singleton.mp member
    exact spelled_nil
  · obtain ⟨roll, _, rfl⟩ := List.mem_map.mp member
    exact spelled_ofInt roll

theorem eq_remainder_of_mem {item : List Char} {count : Nat}
    (member : item ∈ remainderItems count) : item = remainder count := by
  unfold remainderItems at member
  split_ifs at member
  · contradiction
  · exact List.mem_singleton.mp member

theorem markless_remainder (count : Nat) : Markless (remainder count) := by
  have words : Markless " more...".toList := by simp [Markless]
  exact List.forall_mem_append.mpr ⟨(spelled_ofNat count).markless, words⟩

theorem remainder_ne_nil (count : Nat) : remainder count ≠ [] :=
  List.append_ne_nil_of_left_ne_nil (Decimal.ofNat_ne_nil count) _

end

section

variable {limit : Option Nat} {rolls : List Int} {entry : List Char}

theorem markless_of_mem_entries (member : entry ∈ entries limit rolls) : Markless entry := by
  rcases List.mem_append.mp member with shown | counted
  · exact (spelled_of_mem_rollItems shown).markless
  · rw [eq_remainder_of_mem counted]
    exact markless_remainder _

theorem entries_ne_nil (limit : Option Nat) (rolls : List Int) : entries limit rolls ≠ [] :=
  List.append_ne_nil_of_left_ne_nil (rollItems_ne_nil _) _

theorem listed_ne_nil (nonempty : rolls ≠ []) (positive : limit ≠ some 0) :
    listed limit rolls ≠ [] := by
  cases limit with
  | none => exact nonempty
  | some limit =>
    intro empty
    rcases List.take_eq_nil_iff.mp empty with zero | missing
    · exact positive (congrArg some zero)
    · exact nonempty missing

theorem ne_nil_of_mem_entries (nonempty : listed limit rolls ≠ [])
    (member : entry ∈ entries limit rolls) : entry ≠ [] := by
  rw [entries, rollItems_of_ne_nil nonempty] at member
  rcases List.mem_append.mp member with shown | counted
  · obtain ⟨roll, _, rfl⟩ := List.mem_map.mp shown
    exact Decimal.ofInt_ne_nil roll
  · rw [eq_remainder_of_mem counted]
    exact remainder_ne_nil _

theorem rollChars_eq (limit : Option Nat) (rolls : List Int) :
    rollChars limit rolls = [',', ' '].intercalate (entries limit rolls) := by
  unfold rollChars entries remainderItems
  split_ifs
  · rw [List.append_nil, List.append_nil, intercalate_rollItems]
  · rw [intercalate_concat _ _ (rollItems_ne_nil _), intercalate_rollItems]
    simp [remainder]

theorem items_rollChars (limit : Option Nat) (rolls : List Int) :
    items (rollChars limit rolls) = entries limit rolls := by
  rw [rollChars_eq]
  exact items_intercalate (entries_ne_nil limit rolls) fun entry member =>
    (markless_of_mem_entries member).not_mem (by simp)

theorem bracket_not_mem_rollChars {c : Char} (bracket : c ∈ ['[', ']']) :
    c ∉ rollChars limit rolls := by
  have free : ∀ d ∈ [',', ' '].intercalate (entries limit rolls), d ∉ ['[', ']'] := by
    refine forall_mem_intercalate (by simp) fun entry member d inside mark => ?_
    exact markless_of_mem_entries member d inside (List.mem_append_left [','] mark)
  rw [rollChars_eq]
  exact fun member => free c member bracket

/-- The items that are read from a description are the ones that were written. -/
theorem listing_eq (limit : Option Nat) (outcome : Outcome) :
    outcome.listing limit = entries limit outcome.rolls := by
  have opens : '[' ∉ outcome.expression.chars ++ [' '] := by
    have front : Spelled (outcome.expression.chars ++ [' ']) := by
      simp [Formula.spelled_chars]
    exact front.markless.not_mem (by simp)
  have closes : ']' ∉ rollChars limit outcome.rolls := bracket_not_mem_rollChars (by simp)
  have written : (outcome.describe limit).toList = outcome.expression.chars ++ [' '] ++
      '[' :: rollChars limit outcome.rolls ++
        ']' :: ' ' :: '=' :: ' ' :: Decimal.ofInt outcome.total.toInt := by
    simp [describe, describeChars]
  rw [listing, written, bracketed_append opens closes, items_rollChars]

end

end Outcome

namespace Expression

open Outcome

variable {σ : Type} {expression : Expression} {roller : Roller σ} {start finish : σ}
  {outcome : Outcome}

theorem rolls_ne_nil (rolled : (expression.roll roller).runFrom start = (.ok outcome, finish)) :
    outcome.rolls ≠ [] := by
  obtain ⟨blocks, calls, rfl⟩ := runFrom_roll_eq_ok_iff.mp rolled
  apply List.ne_nil_of_length_pos
  rw [rolls_ofRolls, Term.length_flatten_of_blocks calls.blocks]
  exact expression.diceCount_pos

/-- Without a limit, the list in the description of a roll holds all rolls. Up to a positive limit,
it holds the first rolls, and one more item for the others, if there are any, so that none is
unaccounted for; no item is empty. With the limit zero, an empty item stands in front of the number
of all rolls. -/
theorem listing_of_roll
    (rolled : (expression.roll roller).runFrom start = (.ok outcome, finish)) :
    outcome.listing none = outcome.rolls.map Decimal.ofInt ∧
    (∀ limit, 0 < limit →
      outcome.listing (some limit) = (outcome.rolls.take limit).map Decimal.ofInt ++
        (if limit < outcome.rolls.length then [remainder (outcome.rolls.length - limit)] else []) ∧
      (outcome.rolls.take limit).length + (outcome.rolls.length - limit) = outcome.rolls.length) ∧
    (∀ limit, limit ≠ some 0 → [] ∉ outcome.listing limit) ∧
    outcome.listing (some 0) = [[], remainder outcome.rolls.length] := by
  have nonempty := rolls_ne_nil rolled
  simp only [listing_eq]
  refine ⟨?_, fun limit positive => ⟨?_, ?_⟩, fun limit positive empty => ?_, ?_⟩
  · rw [entries, rollItems_of_ne_nil (listed_ne_nil nonempty (Option.some_ne_none 0).symm)]
    exact List.append_nil _
  · have positive : some limit ≠ some 0 := mt Option.some.inj (Nat.ne_of_gt positive)
    rw [entries, rollItems_of_ne_nil (listed_ne_nil nonempty positive)]
    simp only [listed, omitted, remainderItems, Nat.sub_eq_zero_iff_le, ← Nat.not_lt, ite_not]
  · exact length_listed_add_omitted (some limit) outcome.rolls
  · exact ne_nil_of_mem_entries (listed_ne_nil nonempty positive) empty rfl
  · simp [entries, rollItems, remainderItems, listed, omitted, nonempty]

/-- Four dice of six sides, without two, of which two rolls are listed or none. -/
theorem listing_of_four_dice : ∃ formula outcome,
    Formula.ofTerms? [⟨⟨4, by decide, by decide⟩, ⟨6, by decide, by decide⟩, .positive⟩] (-2) =
      some formula ∧
    ((ofFormula formula).roll .replay).runFrom [6, 2, 5, 3] = (.ok outcome, []) ∧
    outcome.listing (some 2) = ["6".toList, "2".toList, "2 more...".toList] ∧
    outcome.listing (some 4) = outcome.listing none ∧
    outcome.listing (some 0) = ["".toList, "4 more...".toList] := by
  have rolled : ((ofFormula ⟨[⟨⟨4, by decide, by decide⟩, ⟨6, by decide, by decide⟩, .positive⟩],
      List.cons_ne_nil _ _, -2⟩).roll .replay).runFrom [6, 2, 5, 3] =
      (.ok ⟨_, [6, 2, 5, 3], 14⟩, []) :=
    rfl
  obtain ⟨full, upTo, _, bare⟩ := listing_of_roll rolled
  refine ⟨_, _, rfl, rolled, ?_, ?_, ?_⟩
  · exact (upTo 2 (by decide)).1.trans (by decide)
  · exact (upTo 4 (by decide)).1.trans full.symm
  · exact bare.trans (by decide)

/-- No roll is listed of a die with a single side, but the first item is empty. -/
theorem listing_with_empty_item : ∃ formula outcome,
    Formula.ofTerms? [⟨.one, .one, .positive⟩] 0 = some formula ∧
    ((ofFormula formula).roll .highest).runFrom () = (.ok outcome, ()) ∧
    outcome.rolls = [1] ∧ outcome.describe (some 0) = "1d1 [, 1 more...] = 1" ∧
    [] ∈ outcome.listing (some 0) ∧
    outcome.listing (some 0) ≠
      (outcome.rolls.take 0).map Decimal.ofInt ++ [remainder (outcome.rolls.length - 0)] := by
  refine ⟨_, _, rfl, rfl, rfl, ?_, ?_, ?_⟩
  · decide
  · decide
  · decide

end Expression

end Dice
