import Dice.Proofs.Parse.Reading

namespace Dice

open Text (AllBlank Trimmed EndsInDigit)

namespace Decimal

theorem endsInDigit_ofNat (n : Nat) : EndsInDigit (ofNat n) :=
  Text.endsInDigit_of_digits (ofNat_ne_nil n) fun _ => isDigit_of_mem_ofNat

theorem trimmed_ofNat (n : Nat) : Trimmed (ofNat n) :=
  (endsInDigit_ofNat n).trimmed fun _ member =>
    Text.isBlank_of_isDigit (isDigit_of_mem_ofNat (List.mem_of_mem_head? member))

end Decimal

namespace Term

/-- The part of a term that exceeds a cap; the count is looked at before the sides. -/
def excess? (max : UInt16) (term : Term) : Option Role :=
  if max.toNat < term.count.val then some .count
  else if max.toNat < term.sides.val then some .sides
  else none

/-- A term as it stands in canonical text, without the blanks around it. -/
def shown (leads : Bool) (term : Term) : List Char :=
  if leads then term.chars else term.sign.toChar :: ' ' :: term.unsigned

/-- The blank between a sign and the count behind it. -/
def lead (leads : Bool) : List Char :=
  if leads then [] else [' ']

/-- The piece that a term is cut into, with what stands between it and the next sign. -/
def piece (leads : Bool) (gap : List Char) (term : Term) : Piece where
  sign := if leads = true ∧ term.sign = .positive then none else some term.sign
  head := lead leads ++ term.count.chars
  sides := some (.lower, term.sides.chars ++ gap)

variable {max : UInt16} {term : Term} {leads : Bool} {gap : List Char}

@[simp] theorem chars_piece : (term.piece leads gap).chars = term.shown leads ++ gap := by
  cases leads with
  | true => cases sign : term.sign <;> simp [piece, lead, Piece.chars, shown, chars, unsigned, sign,
      Sign.toChar, Marker.toChar]
  | false => simp [piece, lead, Piece.chars, shown, unsigned, Marker.toChar]

theorem appended_eq (term : Term) : term.appended = ' ' :: term.shown false := rfl

private theorem allBlank_lead (leads : Bool) : AllBlank (lead leads) := by
  cases leads with
  | true => exact Text.allBlank_nil
  | false => exact Text.allBlank_space

private theorem trim_head (term : Term) (leads : Bool) :
    Text.trim (lead leads ++ term.count.chars) = term.count.chars :=
  (Text.trim_append_left (allBlank_lead leads) _).trans (Decimal.trimmed_ofNat _).trim_eq

private theorem trim_sides (term : Term) (blank : AllBlank gap) :
    Text.trim (term.sides.chars ++ gap) = term.sides.chars :=
  (Text.trim_append_right blank _).trans (Decimal.trimmed_ofNat _).trim_eq

private theorem getD_sign_piece (term : Term) (leads : Bool) :
    (term.piece leads gap).sign.getD .positive = term.sign := by
  unfold piece
  split
  · rename_i both
    exact both.2.symm
  · rfl

theorem clean_piece (term : Term) (leads : Bool) (blank : AllBlank gap) :
    (term.piece leads gap).Clean := by
  apply Piece.clean_marked
  · refine List.forall_mem_append.mpr
      ⟨Piece.inert_of_allBlank (allBlank_lead leads), fun c member => ?_⟩
    exact Piece.inert_of_isDigit (Decimal.isDigit_of_mem_ofNat member)
  · refine List.forall_mem_append.mpr
      ⟨fun c member => ?_, Piece.inert_of_allBlank blank⟩
    exact Piece.inert_of_isDigit (Decimal.isDigit_of_mem_ofNat member)

theorem excess?_eq_none_iff :
    term.excess? max = none ↔ term.count.val ≤ max.toNat ∧ term.sides.val ≤ max.toNat := by
  unfold excess?
  split
  · simp; omega
  · split <;> simp <;> omega

theorem excess?_eq_some_iff {role : Role} : term.excess? max = some role ↔
    (role = .count ∧ max.toNat < term.count.val) ∨
      (role = .sides ∧ term.count.val ≤ max.toNat ∧ max.toNat < term.sides.val) := by
  unfold excess?
  split
  · cases role <;> simp <;> omega
  · split
    · cases role <;> simp <;> omega
    · cases role <;> simp <;> omega

theorem means_piece (fits : term.excess? max = none) (leads : Bool) (blank : AllBlank gap) :
    (term.piece leads gap).Means max (.dice term) := by
  obtain ⟨count, sides⟩ := excess?_eq_none_iff.mp fits
  have front : Parse.Numeral max (Text.trim (lead leads ++ term.count.chars)) term.count := by
    rw [trim_head]
    exact Parse.numeral_chars count
  have back : Parse.Numeral max (Text.trim (term.sides.chars ++ gap)) term.sides := by
    rw [trim_sides term blank]
    exact Parse.numeral_chars sides
  have means : (term.piece leads gap).Means max
      (.dice ⟨term.count, term.sides, (term.piece leads gap).sign.getD .positive⟩) :=
    .counted front back
  rwa [getD_sign_piece] at means

/-- A term that exceeds the cap is refused for the part that does. -/
theorem flawed_piece {role : Role} (excess : term.excess? max = some role) (leads : Bool)
    (blank : AllBlank gap) : (term.piece leads gap).Flawed max (.tooLarge role max) := by
  have frontWritten : ¬ AllBlank (lead leads ++ term.count.chars) := by
    rw [← Text.trim_eq_nil_iff, trim_head]
    exact Decimal.ofNat_ne_nil _
  have backWritten : ¬ AllBlank (term.sides.chars ++ gap) := by
    rw [← Text.trim_eq_nil_iff, trim_sides term blank]
    exact Decimal.ofNat_ne_nil _
  rcases excess?_eq_some_iff.mp excess with ⟨rfl, beyond⟩ | ⟨rfl, within, beyond⟩
  · refine .count backWritten frontWritten ?_
    rw [trim_head]
    exact Parse.numeralFlaw_ofNat .count beyond
  · refine .sides backWritten (fun _ other wrong => ?_) ?_
    · rw [trim_head] at wrong
      have read := Parse.readNumber_of_numeral .count (Parse.numeral_chars within)
      cases read.symm.trans (Parse.readNumber_of_flaw wrong)
    · rw [trim_sides term blank]
      exact Parse.numeralFlaw_ofNat .sides beyond

theorem endsInDigit_shown (term : Term) (leads : Bool) : EndsInDigit (term.shown leads) := by
  have sides : EndsInDigit term.sides.chars := Decimal.endsInDigit_ofNat _
  unfold shown
  split
  · unfold chars
    split
    · exact (sides.append ['d']).append _
    · exact ((sides.append ['d']).append _).append ['-']
  · exact ((sides.append ['d']).append _).append [_, ' ']

theorem trimmed_shown (term : Term) (leads : Bool) : Trimmed (term.shown leads) := by
  apply (term.endsInDigit_shown leads).trimmed
  intro c member
  unfold shown at member
  split at member
  · unfold chars at member
    split at member
    · have written : term.count.chars ≠ [] := Decimal.ofNat_ne_nil _
      rw [unsigned, List.head?_append_of_ne_nil _ written] at member
      exact Text.isBlank_of_isDigit (Decimal.isDigit_of_mem_ofNat (List.mem_of_mem_head? member))
    · cases member
      rfl
  · cases member
    exact term.sign.isBlank_toChar

theorem excerpt_piece (term : Term) (leads : Bool) (blank : AllBlank gap) (front : List Char) :
    (term.piece leads gap).excerpt front = ⟨term.shown leads,
      ⟨Text.byteSize front, Text.byteSize (front ++ term.shown leads ++ gap)⟩⟩ := by
  rw [Piece.excerpt, chars_piece, Text.trim_append_right blank, (term.trimmed_shown leads).trim_eq,
    List.append_assoc]

end Term

namespace Formula

/-- What stands between a term and the next sign: a blank, or `back` behind the last term. -/
def gap (back : List Char) (after : List Term) : List Char :=
  if after = [] then back else [' ']

/-- The pieces of a row of terms with `back` behind it. -/
def termPieces (back : List Char) : Bool → List Term → List Piece
  | _, [] => []
  | leads, term :: after => term.piece leads (gap back after) :: termPieces back false after

/-- The blank in front of the constant, if there is one. -/
def modifierGap (modifier : Int) : List Char :=
  if modifier = 0 then [] else [' ']

def modifierPiece (modifier : Int) : Piece where
  sign := some (.ofInt modifier)
  head := ' ' :: Decimal.ofNat modifier.natAbs
  sides := none

def modifierPieces (modifier : Int) : List Piece :=
  if modifier = 0 then [] else [modifierPiece modifier]

def pieces (formula : Formula) : List Piece :=
  termPieces (modifierGap formula.modifier.toInt) true formula.terms ++
    modifierPieces formula.modifier.toInt

variable {back : List Char} {max : UInt16}

@[simp] theorem gap_cons (back : List Char) (term : Term) (after : List Term) :
    gap back (term :: after) = [' '] :=
  if_neg (List.cons_ne_nil _ _)

theorem allBlank_gap (blank : AllBlank back) (after : List Term) : AllBlank (gap back after) := by
  unfold gap
  split
  · exact blank
  · exact Text.allBlank_space

theorem allBlank_modifierGap (modifier : Int) : AllBlank (modifierGap modifier) := by
  unfold modifierGap
  split
  · exact Text.allBlank_nil
  · exact Text.allBlank_space

theorem termPieces_append (back : List Char) (leads : Bool) (before after : List Term) :
    termPieces back leads (before ++ after) =
      termPieces (gap back after) leads before ++
        termPieces back (leads && before.isEmpty) after := by
  induction before generalizing leads with
  | nil => simp [termPieces]
  | cons term before ih =>
    have same : gap back (before ++ after) = gap (gap back after) before := by
      cases before with
      | nil => rfl
      | cons _ _ => simp
    simp only [List.cons_append, termPieces, same, ih, Bool.false_and, List.isEmpty_cons,
      Bool.and_false]

private theorem gap_append_flatMap (back : List Char) (terms : List Term) :
    gap back terms ++ (termPieces back false terms).flatMap Piece.chars =
      terms.flatMap Term.appended ++ back := by
  induction terms with
  | nil => simp [gap, termPieces]
  | cons term others ih =>
    rw [termPieces, List.flatMap_cons, Term.chars_piece, List.append_assoc, ih, List.flatMap_cons,
      term.appended_eq]
    simp

theorem flatMap_chars_termPieces (back : List Char) {terms : List Term} (dice : terms ≠ []) :
    (termPieces back true terms).flatMap Piece.chars = termChars terms ++ back := by
  obtain ⟨first, others, rfl⟩ := List.exists_cons_of_ne_nil dice
  rw [termPieces, List.flatMap_cons, Term.chars_piece, List.append_assoc, gap_append_flatMap,
    termChars, List.append_assoc]
  rfl

private theorem modifierChars_eq (modifier : Int) : modifierChars modifier =
    modifierGap modifier ++ (modifierPieces modifier).flatMap Piece.chars := by
  unfold modifierChars modifierGap modifierPieces
  split
  · rfl
  · simp [modifierPiece, Piece.chars]

theorem flatMap_chars_pieces (formula : Formula) :
    formula.pieces.flatMap Piece.chars = formula.chars := by
  rw [pieces, List.flatMap_append, flatMap_chars_termPieces _ formula.terms_ne_nil,
    List.append_assoc, ← modifierChars_eq, chars]

private theorem clean_termPieces (blank : AllBlank back) (leads : Bool) (terms : List Term) :
    ∀ piece ∈ termPieces back leads terms, piece.Clean := by
  induction terms generalizing leads with
  | nil => nofun
  | cons term others ih =>
    exact List.forall_mem_cons.mpr ⟨term.clean_piece leads (allBlank_gap blank others), ih false⟩

private theorem signed_termPieces (back : List Char) (terms : List Term) :
    ∀ piece ∈ termPieces back false terms, piece.sign ≠ none := by
  induction terms with
  | nil => nofun
  | cons term others ih => exact List.forall_mem_cons.mpr ⟨nofun, ih⟩

private theorem forall_modifierPieces {property : Piece → Prop} {modifier : Int}
    (holds : property (modifierPiece modifier)) :
    ∀ piece ∈ modifierPieces modifier, property piece := by
  unfold modifierPieces
  split
  · nofun
  · exact List.forall_mem_cons.mpr ⟨holds, nofun⟩

private theorem clean_modifierPiece (modifier : Int) : (modifierPiece modifier).Clean := by
  apply Piece.clean_unmarked
  refine List.forall_mem_cons.mpr ⟨Piece.inert_of_isBlank rfl, fun c member => ?_⟩
  exact Piece.inert_of_isDigit (Decimal.isDigit_of_mem_ofNat member)

/-- Canonical text is cut between its terms, and in front of its constant. -/
theorem cut_pieces (formula : Formula) : Piece.Cut formula.chars formula.pieces := by
  obtain ⟨first, others, terms⟩ := List.exists_cons_of_ne_nil formula.terms_ne_nil
  have blank := allBlank_modifierGap formula.modifier.toInt
  rw [← flatMap_chars_pieces, pieces, terms, termPieces, List.cons_append]
  apply Piece.cut_of_clean
  · exact first.clean_piece true (allBlank_gap blank others)
  · refine List.forall_mem_append.mpr ⟨clean_termPieces blank false others, ?_⟩
    exact forall_modifierPieces (clean_modifierPiece _)
  · refine List.forall_mem_append.mpr ⟨signed_termPieces _ others, ?_⟩
    exact forall_modifierPieces (Option.some_ne_none _)
  · simp [Piece.body, Term.piece]

theorem endsInDigit_chars (formula : Formula) : EndsInDigit formula.chars := by
  by_cases zero : formula.modifier.toInt = 0
  · obtain ⟨before, last, terms⟩ : ∃ before last, formula.terms = before ++ [last] :=
      ⟨_, _, (List.dropLast_concat_getLast formula.terms_ne_nil).symm⟩
    rw [← flatMap_chars_pieces, pieces, modifierPieces, if_pos zero, List.append_nil, terms,
      termPieces_append, List.flatMap_append]
    apply EndsInDigit.append
    simpa [termPieces, gap, modifierGap, zero] using last.endsInDigit_shown _
  · rw [chars, modifierChars, if_neg zero]
    exact ((Decimal.endsInDigit_ofNat _).append [' ', _, ' ']).append _

private theorem head_chars (formula : Formula) :
    ∀ c ∈ formula.chars.head?, Text.isBlank c = false := by
  obtain ⟨first, others, terms⟩ := List.exists_cons_of_ne_nil formula.terms_ne_nil
  have start : formula.chars = first.shown true ++
      (others.flatMap Term.appended ++ modifierChars formula.modifier.toInt) := by
    rw [chars, terms, termChars, List.append_assoc]
    rfl
  rw [start, List.head?_append_of_ne_nil _ (first.endsInDigit_shown true).ne_nil]
  exact (first.trimmed_shown true).head

theorem trimmed_chars (formula : Formula) : Trimmed formula.chars :=
  formula.endsInDigit_chars.trimmed formula.head_chars

theorem means_termPieces {terms : List Term} (fit : ∀ term ∈ terms, term.excess? max = none)
    (leads : Bool) (blank : AllBlank back) :
    List.Forall₂ (Piece.Means max) (termPieces back leads terms) (terms.map .dice) := by
  induction terms generalizing leads with
  | nil => exact .nil
  | cons term others ih =>
    have first := fit term List.mem_cons_self
    exact .cons (term.means_piece first leads (allBlank_gap blank others))
      (ih (fun other member => fit other (.tail _ member)) false)

def modifierMeanings (modifier : Int) : List Meaning :=
  if modifier = 0 then [] else [.constant modifier]

private theorem trim_modifierPiece (modifier : Int) :
    Text.trim (' ' :: Decimal.ofNat modifier.natAbs) = Decimal.ofNat modifier.natAbs :=
  (Text.trim_append_left Text.allBlank_space _).trans (Decimal.trimmed_ofNat _).trim_eq

theorem means_modifierPieces {modifier : Int} (within : modifier.natAbs ≤ max.toNat) :
    List.Forall₂ (Piece.Means max) (modifierPieces modifier) (modifierMeanings modifier) := by
  unfold modifierPieces modifierMeanings
  split
  · exact .nil
  · rename_i nonzero
    have cap := max.toNat_lt
    let number : Number := ⟨modifier.natAbs, by omega, by omega⟩
    have front : Parse.Numeral max (Text.trim (' ' :: Decimal.ofNat modifier.natAbs)) number := by
      rw [trim_modifierPiece]
      exact (Parse.numeral_chars within : Parse.Numeral max number.chars number)
    have means : (modifierPiece modifier).Means max
        (.constant ((Sign.ofInt modifier).apply modifier.natAbs)) := .constant front
    rw [Sign.apply_ofInt_natAbs] at means
    exact .cons means .nil

theorem flawed_modifierPiece {modifier : Int} (beyond : max.toNat < modifier.natAbs) :
    (modifierPiece modifier).Flawed max (.tooLarge .modifier max) := by
  apply Piece.Flawed.modifier
  · rw [← Text.trim_eq_nil_iff, trim_modifierPiece]
    exact Decimal.ofNat_ne_nil _
  · rw [trim_modifierPiece]
    exact Parse.numeralFlaw_ofNat .modifier beyond

/-- What the canonical text means, piece by piece. -/
def meanings (formula : Formula) : List Meaning :=
  formula.terms.map .dice ++ modifierMeanings formula.modifier.toInt

theorem means_pieces {formula : Formula} (fit : ∀ term ∈ formula.terms, term.excess? max = none)
    (within : formula.modifier.toInt.natAbs ≤ max.toNat) :
    List.Forall₂ (Piece.Means max) formula.pieces formula.meanings :=
  List.rel_append (means_termPieces fit true (allBlank_modifierGap _)) (means_modifierPieces within)

@[simp] theorem terms_meanings (formula : Formula) :
    formula.meanings.filterMap Meaning.term? = formula.terms := by
  have none : (modifierMeanings formula.modifier.toInt).filterMap Meaning.term? = [] := by
    unfold modifierMeanings
    split <;> rfl
  rw [meanings, List.filterMap_append, none, List.append_nil, List.filterMap_map]
  exact List.filterMap_some

/-- A constant of 64 bits is read back without saturating. -/
@[simp] theorem sum_meanings (formula : Formula) :
    Saturating.sum 0 (formula.meanings.filterMap Meaning.constant?) = formula.modifier := by
  have none : (formula.terms.map Meaning.dice).filterMap Meaning.constant? = [] := by
    simp [List.filterMap_map, Function.comp_def, Meaning.constant?]
  rw [meanings, List.filterMap_append, none, List.nil_append, modifierMeanings]
  split
  · rename_i zero
    exact (Int64.toInt_inj.mp zero).symm
  · exact Saturating.zero_add _

end Formula

end Dice
