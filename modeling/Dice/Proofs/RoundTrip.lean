import Dice.Proofs.Canonical

namespace Dice

namespace Formula

def front (before : List Term) : List Char :=
  if before = [] then [] else termChars before ++ [' ']

/-- How an error shows a term of the canonical text: without blanks, but with all bytes up to the
next sign. -/
def termExcerpt (formula : Formula) (before : List Term) (term : Term) (after : List Term) :
    Excerpt :=
  let shown := term.shown before.isEmpty
  let gap := gap (modifierGap formula.modifier.toInt) after
  ⟨shown, ⟨Text.byteSize (front before), Text.byteSize (front before ++ shown ++ gap)⟩⟩

def modifierExcerpt (formula : Formula) : Excerpt :=
  let modifier := formula.modifier.toInt
  ⟨(Sign.ofInt modifier).toChar :: ' ' :: Decimal.ofNat modifier.natAbs,
    ⟨Text.byteSize (front formula.terms), Text.byteSize formula.chars⟩⟩

private theorem flatMap_chars_front (before : List Term) :
    (termPieces [' '] true before).flatMap Piece.chars = front before := by
  by_cases none : before = []
  · rw [none]
    rfl
  · rw [flatMap_chars_termPieces [' '] none, front, if_neg none]

private theorem excerpt_modifierPiece (formula : Formula)
    (nonzero : formula.modifier.toInt ≠ 0) :
    (modifierPiece formula.modifier.toInt).excerpt (front formula.terms) =
      formula.modifierExcerpt := by
  have shown : (modifierPiece formula.modifier.toInt).chars =
      (Sign.ofInt formula.modifier.toInt).toChar ::
        ' ' :: Decimal.ofNat formula.modifier.toInt.natAbs := by
    simp [modifierPiece, Piece.chars]
  have whole : front formula.terms ++ (modifierPiece formula.modifier.toInt).chars =
      formula.chars := by
    rw [shown, front, if_neg formula.terms_ne_nil, chars, modifierChars, if_neg nonzero,
      List.append_assoc]
    rfl
  have trimmed : Text.Trimmed (modifierPiece formula.modifier.toInt).chars := by
    rw [shown]
    apply ((Decimal.endsInDigit_ofNat _).append [_, ' ']).trimmed
    rintro c ⟨⟩
    exact Sign.isBlank_toChar _
  rw [Piece.excerpt, whole, trimmed.trim_eq, shown, modifierExcerpt]

end Formula

/-- What comes of reading the canonical text of an expression. The terms are held against the cap on
numbers one by one, then the constant, and only then are the dice counted. -/
inductive Reread (limits : Limits) (expression : Expression) :
    Except ParseError Expression → Prop where
  | term {before after : List Term} {term : Term} {role : Role}
      (split : expression.terms = before ++ term :: after)
      (earlier : ∀ other ∈ before, other.excess? limits.maxValue = none)
      (excess : term.excess? limits.maxValue = some role) :
      Reread limits expression (.error
        (.flawed (expression.termExcerpt before term after) (.tooLarge role limits.maxValue)))
  | modifier (fit : ∀ term ∈ expression.terms, term.excess? limits.maxValue = none)
      (beyond : limits.maxValue.toNat < expression.modifier.toInt.natAbs) :
      Reread limits expression (.error
        (.flawed expression.modifierExcerpt (.tooLarge .modifier limits.maxValue)))
  | tooManyDice {most : UInt32}
      (fit : ∀ term ∈ expression.terms, term.excess? limits.maxValue = none)
      (within : expression.modifier.toInt.natAbs ≤ limits.maxValue.toNat)
      (cap : limits.maxDice = some most) (many : most.toNat < expression.diceCount) :
      Reread limits expression (.error (.tooManyDice expression.diceCount most))
  | accepted {again : Expression}
      (fit : ∀ term ∈ expression.terms, term.excess? limits.maxValue = none)
      (within : expression.modifier.toInt.natAbs ≤ limits.maxValue.toNat)
      (few : ∀ most, limits.maxDice = some most → expression.diceCount ≤ most.toNat)
      (same : (again == expression) = true) (text : again.text = expression.text)
      (source : again.source = some expression.text) : Reread limits expression (.ok again)

namespace Formula

private theorem toList_text (formula : Formula) : formula.text.toList = formula.chars :=
  String.toList_ofList

private theorem ofChars_text (formula : Formula) :
    Piece.ofChars (Text.trim formula.text.toList) = formula.pieces := by
  rw [toList_text, formula.trimmed_chars.trim_eq, formula.cut_pieces.eq_ofChars]

private theorem not_allBlank_text (formula : Formula) : ¬ Text.AllBlank formula.text.toList := by
  intro blank
  have empty := Text.trim_eq_nil_iff.mpr blank
  rw [toList_text, formula.trimmed_chars.trim_eq] at empty
  exact formula.endsInDigit_chars.ne_nil empty

end Formula

namespace Expression

variable {limits : Limits} {formula : Formula}

private theorem parseWith_text_of_excess {before after : List Term} {term : Term} {role : Role}
    (split : formula.terms = before ++ term :: after)
    (earlier : ∀ other ∈ before, other.excess? limits.maxValue = none)
    (excess : term.excess? limits.maxValue = some role) :
    parseWith limits formula.text = .error
      (.flawed (formula.termExcerpt before term after) (.tooLarge role limits.maxValue)) := by
  have blank := Formula.allBlank_gap (Formula.allBlank_modifierGap formula.modifier.toInt) after
  have cut := formula.ofChars_text
  rw [Formula.pieces, split, Formula.termPieces_append, List.append_assoc, Formula.termPieces,
    List.cons_append, Formula.gap_cons] at cut
  have means := Piece.exists_means_of_mem
    (Formula.means_termPieces earlier true Text.allBlank_space)
  have refused := parseWith_of_flawed formula.not_allBlank_text cut means
    (term.flawed_piece excess _ blank)
  rw [refused, formula.toList_text, formula.trimmed_chars.leadingBlanks_eq, List.nil_append,
    Formula.flatMap_chars_front, term.excerpt_piece _ blank]
  rfl

private theorem parseWith_text_of_beyond
    (fit : ∀ term ∈ formula.terms, term.excess? limits.maxValue = none)
    (beyond : limits.maxValue.toNat < formula.modifier.toInt.natAbs) :
    parseWith limits formula.text = .error
      (.flawed formula.modifierExcerpt (.tooLarge .modifier limits.maxValue)) := by
  have nonzero : formula.modifier.toInt ≠ 0 := by omega
  have cut := formula.ofChars_text
  rw [Formula.pieces, Formula.modifierPieces, if_neg nonzero, Formula.modifierGap,
    if_neg nonzero] at cut
  have means := Piece.exists_means_of_mem
    (Formula.means_termPieces fit true Text.allBlank_space)
  have refused := parseWith_of_flawed formula.not_allBlank_text cut means
    (Formula.flawed_modifierPiece beyond)
  rw [refused, formula.toList_text, formula.trimmed_chars.leadingBlanks_eq, List.nil_append,
    Formula.flatMap_chars_front, formula.excerpt_modifierPiece nonzero]

private theorem parseWith_text_of_within
    (fit : ∀ term ∈ formula.terms, term.excess? limits.maxValue = none)
    (within : formula.modifier.toInt.natAbs ≤ limits.maxValue.toNat) :
    parseWith limits formula.text =
      ofMeanings limits.maxDice formula.text formula.meanings := by
  apply parseWith_of_means
  rw [formula.ofChars_text]
  exact Formula.means_pieces fit within

private theorem diceCount_meanings (formula : Formula) :
    Meaning.diceCount formula.meanings = formula.diceCount := by
  rw [Meaning.diceCount, formula.terms_meanings, Formula.diceCount]

private theorem parseWith_text_of_few
    (fit : ∀ term ∈ formula.terms, term.excess? limits.maxValue = none)
    (within : formula.modifier.toInt.natAbs ≤ limits.maxValue.toNat)
    (few : ∀ most, limits.maxDice = some most → formula.diceCount ≤ most.toNat) :
    ∃ again, parseWith limits formula.text = .ok again ∧ again.toFormula = formula ∧
      again.source = some formula.text := by
  rw [← diceCount_meanings] at few
  have dice : formula.meanings.filterMap Meaning.term? ≠ [] := by
    rw [formula.terms_meanings]
    exact formula.terms_ne_nil
  obtain ⟨again, built, terms, modifier, source⟩ := ofMeanings_of_dice few dice formula.text
  rw [formula.terms_meanings] at terms
  rw [formula.sum_meanings] at modifier
  exact ⟨again, (parseWith_text_of_within fit within).trans built, Formula.ext terms modifier,
    source⟩

private theorem parseWith_text_of_many {most : UInt32}
    (fit : ∀ term ∈ formula.terms, term.excess? limits.maxValue = none)
    (within : formula.modifier.toInt.natAbs ≤ limits.maxValue.toNat)
    (cap : limits.maxDice = some most) (many : most.toNat < formula.diceCount) :
    parseWith limits formula.text = .error (.tooManyDice formula.diceCount most) := by
  rw [← diceCount_meanings] at many ⊢
  exact (parseWith_text_of_within fit within).trans (ofMeanings_of_many cap many)

private theorem parseWith_text_of_reread {expression : Expression}
    {outcome : Except ParseError Expression} (reread : Reread limits expression outcome) :
    parseWith limits expression.text = outcome := by
  cases reread with
  | term split earlier excess => exact parseWith_text_of_excess split earlier excess
  | modifier fit beyond => exact parseWith_text_of_beyond fit beyond
  | tooManyDice fit within cap many => exact parseWith_text_of_many fit within cap many
  | @accepted again fit within few same text source =>
    obtain ⟨other, accepted, otherSame, otherSource⟩ := parseWith_text_of_few fit within few
    have formulas := otherSame.trans (beq_iff.mp same).symm
    have equal : other = again := Expression.ext (congrArg Formula.terms formulas)
      (congrArg Formula.modifier formulas) (otherSource.trans source.symm)
    rw [accepted, equal]

private theorem exists_reread (limits : Limits) (expression : Expression) :
    ∃ outcome, Reread limits expression outcome := by
  cases found : expression.terms.findSome? (Term.excess? limits.maxValue) with
  | some role =>
    obtain ⟨before, term, after, split, excess, earlier⟩ := List.findSome?_eq_some_iff.mp found
    exact ⟨_, .term split earlier excess⟩
  | none =>
    have fit := List.findSome?_eq_none_iff.mp found
    rcases Nat.lt_or_ge limits.maxValue.toNat expression.modifier.toInt.natAbs with beyond | within
    · exact ⟨_, .modifier fit beyond⟩
    · by_cases many : ∃ most, limits.maxDice = some most ∧ most.toNat < expression.diceCount
      · obtain ⟨most, cap, many⟩ := many
        exact ⟨_, .tooManyDice fit within cap many⟩
      · have few : ∀ most, limits.maxDice = some most → expression.diceCount ≤ most.toNat :=
          fun most cap => Nat.not_lt.mp fun above => many ⟨most, cap, above⟩
        obtain ⟨again, _, same, source⟩ := parseWith_text_of_few fit within few
        exact ⟨_, .accepted fit within few (beq_iff.mpr same) (congrArg Formula.text same) source⟩

/-- Reading canonical text never fails for anything but a number or a count of dice that the limits
do not admit, and gives an equal expression otherwise. -/
theorem parseWith_text_eq_iff (limits : Limits) (expression : Expression)
    (outcome : Except ParseError Expression) :
    parseWith limits expression.text = outcome ↔ Reread limits expression outcome := by
  refine ⟨?_, parseWith_text_of_reread⟩
  rintro rfl
  obtain ⟨outcome, reread⟩ := exists_reread limits expression
  rwa [parseWith_text_of_reread reread]

private theorem excess?_of_means {max : UInt16} {piece : Piece} {term : Term}
    (means : piece.Means max (.dice term)) : term.excess? max = none := by
  apply Term.excess?_eq_none_iff.mpr
  cases means with
  | counted front back => exact ⟨front.le_max, back.le_max⟩
  | single front back => exact ⟨Nat.le_trans (Number.pos _) back.le_max, back.le_max⟩

private theorem fit_of_means {max : UInt16} {pieces : List Piece} {meanings : List Meaning}
    (means : List.Forall₂ (Piece.Means max) pieces meanings) :
    ∀ term ∈ meanings.filterMap Meaning.term?, term.excess? max = none := by
  induction means with
  | nil => nofun
  | @cons piece meaning pieces meanings first others ih =>
    cases meaning with
    | dice term => exact List.forall_mem_cons.mpr ⟨excess?_of_means first, ih⟩
    | constant value => exact ih

private theorem fit_of_accepted {text : String} {expression : Expression}
    (accepted : parseWith limits text = .ok expression) :
    (∀ term ∈ expression.terms, term.excess? limits.maxValue = none) ∧
      ∀ most, limits.maxDice = some most → expression.diceCount ≤ most.toNat := by
  obtain ⟨meanings, means, built⟩ := parseWith_eq_ok_iff.mp accepted
  obtain ⟨_, few, terms, _⟩ := ofMeanings_eq_ok_iff.mp built
  rw [Formula.diceCount, terms]
  exact ⟨fit_of_means means, few⟩

/-- An expression that was read is read again from its canonical text exactly if its constant is
within the cap on numbers. Constants are held against the cap one by one, and so their sum, which is
what the canonical text shows, can be above it. -/
theorem parse_text_of_parse {text : String} {expression : Expression}
    (accepted : parse text = .ok expression) :
    ((∃ again, parse expression.text = .ok again ∧ (again == expression) = true) ↔
        expression.modifier.toInt.natAbs ≤ 10000) ∧
      (10000 < expression.modifier.toInt.natAbs → parse expression.text = .error
        (.flawed expression.modifierExcerpt (.tooLarge .modifier 10000))) := by
  obtain ⟨fit, few⟩ := fit_of_accepted accepted
  have refused : 10000 < expression.modifier.toInt.natAbs → parse expression.text =
      .error (.flawed expression.modifierExcerpt (.tooLarge .modifier 10000)) :=
    parseWith_text_of_beyond fit
  refine ⟨⟨?_, fun within => ?_⟩, refused⟩
  · rintro ⟨again, read, _⟩
    apply Nat.not_lt.mp
    intro beyond
    cases read.symm.trans (refused beyond)
  · obtain ⟨again, read, same, _⟩ := parseWith_text_of_few fit within few
    exact ⟨again, read, beq_iff.mpr same⟩

theorem parse_text_of_constants : ∃ expression, parse "10 - d4 - d4" = .ok expression ∧
    ((∃ again, parse expression.text = .ok again ∧ (again == expression) = true) ↔
      expression.modifier.toInt.natAbs ≤ 10000) := by
  have accepted : (parse "10 - d4 - d4").isOk = true := by decide +kernel
  cases read : parse "10 - d4 - d4" with
  | ok expression => exact ⟨expression, rfl, (parse_text_of_parse read).1⟩
  | error error =>
    rw [read] at accepted
    cases accepted

/-- Two constants that are within the cap, but not together. -/
theorem parse_text_of_large_sum : ∃ expression, parse "d6+10000+1" = .ok expression ∧
    ∀ again, parse expression.text ≠ .ok again := by
  have outcome : (parse "d6+10000+1").toOption.map (fun expression =>
      (parse expression.text).isOk) = some false := by decide +kernel
  cases read : parse "d6+10000+1" with
  | ok expression =>
    refine ⟨expression, rfl, fun again same => ?_⟩
    rw [read] at outcome
    simp [Except.toOption, same, Except.isOk, Except.toBool] at outcome
  | error error =>
    rw [read] at outcome
    cases outcome

end Expression

end Dice
