import Dice.Proofs.Roller.Tape

/-!
Fairness of the secure roller, as a count of words.

The words that a die takes are whole blocks of as many words as it has sides, and each block has one
word for every face. So the number of ways to draw given faces, one word for each die, does not
depend on the faces.
-/

namespace Dice

open Rolling Roller

namespace Tape

variable {sides : Number} {tape rest : Tape} {word : UInt32} {face : Nat}

/-- The words that a die takes for a face. -/
def wordsFor (sides : Number) (face : Nat) : Set UInt32 :=
  {word | ¬ word < bound sides ∧ Tape.face sides word = face}

/-- A word that is drawn again: the die goes on as if it had not been there. -/
def Redraws (sides : Number) (word : UInt32) : Prop :=
  ∀ rest, (secure.die sides).runFrom (.word word :: rest) = (secure.die sides).runFrom rest

theorem redraws_iff : Redraws sides word ↔ word < bound sides := by
  constructor
  · intro redraws
    by_contra high
    have drawn : drawFace sides [.word word] = drawFace sides [] := redraws []
    have taken : drawFace sides [.word word] = (.ok (Tape.face sides word), []) := if_neg high
    cases taken.symm.trans drawn
  · intro low rest
    change drawFace sides (.word word :: rest) = drawFace sides rest
    rw [drawFace, if_pos low]

private theorem ncard_words {words : Set UInt32} {numbers : Finset Nat}
    (below : ∀ number ∈ numbers, number < 2 ^ 32)
    (same : ∀ word : UInt32, word ∈ words ↔ word.toNat ∈ numbers) :
    words.ncard = numbers.card := by
  have image : UInt32.toNat '' words = numbers := by
    ext number
    constructor
    · intro member
      obtain ⟨word, present, rfl⟩ := member
      exact (same word).mp present
    · intro member
      have value := UInt32.toNat_ofNat_of_lt' (below number member)
      exact ⟨UInt32.ofNat number, (same _).mpr (value.symm ▸ member), value⟩
  rw [← Set.ncard_image_of_injective words fun _ _ => UInt32.toNat_inj.mp, image,
    Set.ncard_coe_finset]

private theorem card_block {size remainder : Nat} (inside : remainder < size) (start : Nat) :
    ((Finset.Ico start (start + size)).filter (· % size = remainder)).card = 1 := by
  have periodic : Function.Periodic (· % size = remainder) size := by
    intro number
    simp
  rw [Nat.filter_Ico_card_eq_of_periodic start size _ periodic, Nat.count_eq_card_filter_range,
    Finset.card_eq_one]
  refine ⟨remainder, ?_⟩
  ext number
  simp only [Finset.mem_filter, Finset.mem_range, Finset.mem_singleton]
  constructor
  · intro both
    rw [← both.2, Nat.mod_eq_of_lt both.1]
  · rintro rfl
    exact ⟨inside, Nat.mod_eq_of_lt inside⟩

private theorem card_blocks {size remainder : Nat} (inside : remainder < size)
    (start blocks : Nat) :
    ((Finset.Ico start (start + blocks * size)).filter (· % size = remainder)).card = blocks := by
  induction blocks with
  | zero => simp
  | succ blocks ih =>
    have split := Finset.Ico_union_Ico_eq_Ico (Nat.le_add_right start (blocks * size))
      (Nat.le_add_right (start + blocks * size) size)
    have apart := Finset.Ico_disjoint_Ico_consecutive start (start + blocks * size)
      (start + blocks * size + size)
    rw [Nat.succ_mul, ← Nat.add_assoc, ← split, Finset.filter_union,
      Finset.card_union_of_disjoint (Finset.disjoint_filter_filter apart), ih, card_block inside]

/-- Every face of a die has as many words as there are whole blocks. -/
theorem ncard_wordsFor (inside : 1 ≤ face ∧ face ≤ sides.val) :
    (wordsFor sides face).ncard = 2 ^ 32 / sides.val := by
  have whole : 2 ^ 32 % sides.val + 2 ^ 32 / sides.val * sides.val = 2 ^ 32 := by
    rw [Nat.mul_comm, Nat.mod_add_div]
  rw [← card_blocks (show face - 1 < sides.val by omega) (2 ^ 32 % sides.val)
    (2 ^ 32 / sides.val), whole]
  apply ncard_words
  · intro number member
    exact (Finset.mem_Ico.mp (Finset.mem_filter.mp member).1).2
  · intro word
    have small : word.toNat < 2 ^ 32 := word.toNat_lt
    rw [wordsFor, Set.mem_ofPred_eq, lt_bound_iff, face_eq, Finset.mem_filter, Finset.mem_Ico]
    omega

theorem ncard_redraws (sides : Number) :
    {word | Redraws sides word}.ncard = 2 ^ 32 % sides.val := by
  have size : 2 ^ 32 % sides.val < 2 ^ 32 :=
    Nat.lt_of_lt_of_le (Nat.mod_lt _ sides.pos)
      (Nat.le_of_lt (Nat.lt_trans sides.lt_size (by decide)))
  rw [← Finset.card_range (2 ^ 32 % sides.val)]
  apply ncard_words
  · intro number member
    exact Nat.lt_trans (Finset.mem_range.mp member) size
  · intro word
    rw [Set.mem_ofPred_eq, redraws_iff, lt_bound_iff, Finset.mem_range]

/-- No word is drawn again exactly if the blocks fill the range. -/
theorem mod_eq_zero_iff (sides : Number) :
    2 ^ 32 % sides.val = 0 ↔ ∃ exponent, sides.val = 2 ^ exponent := by
  rw [← Nat.dvd_iff_mod_eq_zero, Nat.dvd_prime_pow Nat.prime_two]
  constructor
  · intro power
    obtain ⟨exponent, _, same⟩ := power
    exact ⟨exponent, same⟩
  · intro power
    obtain ⟨exponent, same⟩ := power
    have small : 2 ^ exponent < 2 ^ 16 := same ▸ sides.lt_size
    have below := (Nat.pow_lt_pow_iff_right (by decide)).mp small
    exact ⟨exponent, by omega, same⟩

/-- The lists of words with one from each set, in order. -/
def selections (choices : List (Set UInt32)) : Set (List UInt32) :=
  {words | List.Forall₂ (· ∈ ·) words choices}

private theorem ncard_selections (choices : List (Set UInt32)) :
    (selections choices).ncard = (choices.map Set.ncard).prod := by
  induction choices with
  | nil =>
    have empty : selections [] = {[]} := by
      ext words
      exact List.forall₂_nil_right_iff
    rw [empty, Set.ncard_singleton]
    rfl
  | cons choice choices ih =>
    have image : selections (choice :: choices) =
        (fun pair : UInt32 × List UInt32 => pair.1 :: pair.2) ''
          (choice ×ˢ selections choices) := by
      ext words
      constructor
      · intro selected
        cases selected with
        | cons first others => exact ⟨(_, _), ⟨first, others⟩, rfl⟩
      · intro member
        obtain ⟨⟨word, words⟩, ⟨first, others⟩, rfl⟩ := member
        exact .cons first others
    have injective : Function.Injective fun pair : UInt32 × List UInt32 => pair.1 :: pair.2 := by
      intro first second same
      exact Prod.ext (List.cons.inj same).1 (List.cons.inj same).2
    rw [image, Set.ncard_image_of_injective _ injective, Set.ncard_prod, ih, List.map_cons,
      List.prod_cons]

section

variable {dice : List (Number × Sign)} {faces : List Nat}

private theorem length_le_of_chain {rolls : List Int}
    (chain : Chain (Shows secure.die) dice tape rolls rest) :
    rest.length + dice.length ≤ tape.length := by
  obtain ⟨words, rfl, blocks⟩ := chain_secure_iff.mp chain
  have length := blocks.length_le
  rw [List.length_append, List.length_map]
  omega

/-- The rolls that faces of dice stand for. -/
def signed (dice : List (Number × Sign)) (faces : List Nat) : List Int :=
  List.zipWith (fun die face => die.2.apply face) dice faces

def choices (dice : List (Number × Sign)) (faces : List Nat) : List (Set UInt32) :=
  List.zipWith (fun die face => wordsFor die.1 face) dice faces

/-- Faces that dice have. -/
def Fit : List (Number × Sign) → List Nat → Prop :=
  List.Forall₂ fun die face => 1 ≤ face ∧ face ≤ die.1.val

private theorem chain_of_selection (fit : Fit dice faces) {words : List UInt32}
    (selected : words ∈ selections (choices dice faces)) (rest : Tape) :
    Chain (Shows secure.die) dice (words.map Draw.word ++ rest) (signed dice faces) rest := by
  induction fit generalizing words with
  | nil =>
    cases selected
    exact .nil
  | cons inside others ih =>
    cases selected with
    | cons first selected =>
      obtain ⟨high, rfl⟩ := first
      refine .cons ⟨_, ?_, inside, rfl⟩ (ih selected)
      exact drawFace_eq_ok_iff.mpr ⟨[], _, rfl, List.forall_mem_nil _, high, rfl⟩

/-- As many words as there are dice are used up only if none of them is drawn again. -/
private theorem selection_of_chain (fit : Fit dice faces) {words : List UInt32}
    (length : words.length = dice.length)
    (chain : Chain (Shows secure.die) dice (words.map Draw.word ++ rest) (signed dice faces) rest) :
    words ∈ selections (choices dice faces) := by
  induction fit generalizing words with
  | nil =>
    cases List.length_eq_zero_iff.mp length
    exact .nil
  | @cons die face dice faces inside others ih =>
    obtain ⟨word, words, rfl⟩ := List.exists_cons_of_length_eq_add_one length
    rw [signed, List.zipWith_cons_cons] at chain
    cases chain with
    | cons first remaining =>
      obtain ⟨shown, drawn, _, same⟩ := first
      obtain ⟨redrawn, last, split, _, high, taken⟩ := drawFace_eq_ok_iff.mp drawn
      have used := length_le_of_chain remaining
      have lengths := congrArg List.length split
      simp only [List.length_append, List.length_map, List.length_cons] at length lengths
      have none : redrawn = [] := List.eq_nil_of_length_eq_zero (by omega)
      cases none
      cases split
      refine .cons ⟨high, ?_⟩ (ih (Nat.succ.inj length) remaining)
      rw [← taken]
      exact (Int.ofNat.inj (Sign.apply_inj.mp same)).symm

private theorem ncard_choices (fit : Fit dice faces) :
    (choices dice faces).map Set.ncard = dice.map fun die => 2 ^ 32 / die.1.val := by
  induction fit with
  | nil => rfl
  | cons inside others ih =>
    rw [List.map_cons, ← ih, ← ncard_wordsFor inside]
    rfl

private theorem ncard_words_of_faces (fit : Fit dice faces) (rest : Tape) :
    {words : List UInt32 | words.length = dice.length ∧ Chain (Shows secure.die) dice
        (words.map Draw.word ++ rest) (signed dice faces) rest}.ncard =
      (dice.map fun die => 2 ^ 32 / die.1.val).prod := by
  have same : {words : List UInt32 | words.length = dice.length ∧ Chain (Shows secure.die) dice
      (words.map Draw.word ++ rest) (signed dice faces) rest} =
        selections (choices dice faces) := by
    ext words
    constructor
    · intro both
      exact selection_of_chain fit both.1 both.2
    · intro selected
      refine ⟨?_, chain_of_selection fit selected rest⟩
      rw [selected.length_eq, choices, List.length_zipWith, ← fit.length_eq, Nat.min_self]
  rw [same, ncard_selections, ncard_choices fit]

end

end Tape

namespace Expression

/-- For given faces of all its dice, an expression has as many ways to roll them with one word for
each die as whole blocks of words for the dice allow, whatever the faces are. The words that are
left over from the blocks are drawn again; there is none only for a power of two. -/
theorem ncard_words_for_faces (expression : Expression) {faces : List Nat}
    (fit : Tape.Fit expression.dice faces) (rest : Tape) :
    {words : List UInt32 | words.length = expression.diceCount ∧
        (expression.roll secure).runFrom (words.map Draw.word ++ rest) =
          (.ok (.ofRolls expression (Tape.signed expression.dice faces)), rest)}.ncard =
      (expression.dice.map fun die => 2 ^ 32 / die.1.val).prod ∧
    ∀ sides : Number, {word | Tape.Redraws sides word}.ncard = 2 ^ 32 % sides.val ∧
      (2 ^ 32 % sides.val = 0 ↔ ∃ exponent, sides.val = 2 ^ exponent) := by
  refine ⟨?_, fun sides => ⟨Tape.ncard_redraws sides, Tape.mod_eq_zero_iff sides⟩⟩
  rw [← Tape.ncard_words_of_faces fit rest]
  congr 1
  ext words
  rw [Set.mem_ofPred_eq, Set.mem_ofPred_eq, Formula.length_dice, secure,
    runFrom_roll_ofDie_eq_ok_iff]
  constructor
  · intro rolled
    obtain ⟨length, rolls, chain, same⟩ := rolled
    cases congrArg Outcome.rolls same
    exact ⟨length, chain⟩
  · intro shown
    exact ⟨shown.1, _, shown.2, rfl⟩

/-- Two dice whose words do not come out even, and one behind a minus whose words do. -/
theorem ncard_words_for_mixed_faces : ∃ expression : Expression,
    expression.terms = [⟨⟨2, by decide, by decide⟩, ⟨6, by decide, by decide⟩, .positive⟩,
      ⟨.one, ⟨4, by decide, by decide⟩, .negative⟩] ∧
    Tape.Fit expression.dice [1, 6, 4] ∧
    {words : List UInt32 | words.length = 3 ∧
        (expression.roll secure).runFrom (words.map Draw.word ++ []) =
          (.ok (.ofRolls expression [1, 6, -4]), [])}.ncard =
      715827882 * (715827882 * 1073741824) := by
  obtain ⟨expression, terms⟩ : ∃ expression : Expression,
      expression.terms = [⟨⟨2, by decide, by decide⟩, ⟨6, by decide, by decide⟩, .positive⟩,
        ⟨.one, ⟨4, by decide, by decide⟩, .negative⟩] :=
    ⟨ofFormula ⟨_, List.cons_ne_nil _ _, 0⟩, rfl⟩
  have fit : Tape.Fit expression.dice [1, 6, 4] := by
    rw [Formula.dice, terms]
    refine .cons ?_ (.cons ?_ (.cons ?_ .nil)) <;> decide
  have counted := (ncard_words_for_faces expression fit []).1
  rw [Formula.diceCount, Formula.dice, terms] at counted
  exact ⟨expression, terms, fit, counted⟩

end Expression

end Dice
