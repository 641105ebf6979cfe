import Mathlib
import Dice.Parse.Expression
import Dice.Proofs.Parse.Numeral
import Dice.Proofs.Piece.Cut

namespace Dice

namespace Piece

/-- What a piece means under a cap on its numbers; a sign that is not written is positive. -/
inductive Means (max : UInt16) : Piece → Meaning → Prop where
  | counted {sign : Option Sign} {head rest : List Char} {marker : Marker} {count sides : Number}
      (front : Parse.Numeral max (Text.trim head) count)
      (back : Parse.Numeral max (Text.trim rest) sides) :
      Means max ⟨sign, head, some (marker, rest)⟩ (.dice ⟨count, sides, sign.getD .positive⟩)
  /-- A group that is not counted is one die. -/
  | single {sign : Option Sign} {head rest : List Char} {marker : Marker} {sides : Number}
      (front : Text.AllBlank head) (back : Parse.Numeral max (Text.trim rest) sides) :
      Means max ⟨sign, head, some (marker, rest)⟩ (.dice ⟨.one, sides, sign.getD .positive⟩)
  | constant {sign : Option Sign} {head : List Char} {number : Number}
      (front : Parse.Numeral max (Text.trim head) number) :
      Means max ⟨sign, head, none⟩ (.constant ((sign.getD .positive).apply number.val))

/-- What is wrong with a piece. Missing sides count before anything in the head does, and the count
before the sides. -/
inductive Flawed (max : UInt16) : Piece → Flaw → Prop where
  | noSides {sign : Option Sign} {head rest : List Char} {marker : Marker}
      (back : Text.AllBlank rest) : Flawed max ⟨sign, head, some (marker, rest)⟩ .malformed
  | noBody {sign : Option Sign} {head : List Char} (front : Text.AllBlank head) :
      Flawed max ⟨sign, head, none⟩ .malformed
  | count {sign : Option Sign} {head rest : List Char} {marker : Marker} {flaw : Flaw}
      (back : ¬ Text.AllBlank rest) (front : ¬ Text.AllBlank head)
      (wrong : Parse.NumeralFlaw .count max (Text.trim head) flaw) :
      Flawed max ⟨sign, head, some (marker, rest)⟩ flaw
  | sides {sign : Option Sign} {head rest : List Char} {marker : Marker} {flaw : Flaw}
      (back : ¬ Text.AllBlank rest)
      (front : ¬ Text.AllBlank head →
        ∀ other, ¬ Parse.NumeralFlaw .count max (Text.trim head) other)
      (wrong : Parse.NumeralFlaw .sides max (Text.trim rest) flaw) :
      Flawed max ⟨sign, head, some (marker, rest)⟩ flaw
  | modifier {sign : Option Sign} {head : List Char} {flaw : Flaw}
      (front : ¬ Text.AllBlank head)
      (wrong : Parse.NumeralFlaw .modifier max (Text.trim head) flaw) :
      Flawed max ⟨sign, head, none⟩ flaw

/-- The dice of a piece: as many as the value of its head says, however large. -/
def diceCount (piece : Piece) : Nat :=
  match piece.sides with
  | none => 0
  | some _ => if Text.AllBlank piece.head then 1 else Decimal.value (Text.trim piece.head)

/-- The piece as an error shows it when it stands behind `front`. -/
def excerpt (front : List Char) (piece : Piece) : Excerpt :=
  ⟨Text.trim piece.chars, ⟨Text.byteSize front, Text.byteSize (front ++ piece.chars)⟩⟩

section

variable {max : UInt16} {piece : Piece} {meaning : Meaning} {flaw : Flaw}

theorem Means.readPiece_eq (means : piece.Means max meaning) :
    Parse.readPiece max piece = .ok meaning := by
  cases means with
  | counted front back =>
    have count := Parse.readNumber_of_numeral .count front
    have sides := Parse.readNumber_of_numeral .sides back
    simp only [Parse.readPiece, Parse.readCount, if_neg front.ne_nil, if_neg back.ne_nil, count,
      sides, bind, Except.bind, pure, Except.pure]
    rfl
  | single front back =>
    have sides := Parse.readNumber_of_numeral .sides back
    simp only [Parse.readPiece, Parse.readCount, if_pos (Text.trim_eq_nil_iff.mpr front),
      if_neg back.ne_nil, sides, bind, Except.bind, pure, Except.pure]
    rfl
  | constant front =>
    have value := Parse.readNumber_of_numeral .modifier front
    simp only [Parse.readPiece, if_neg front.ne_nil, value, bind, Except.bind, pure, Except.pure]
    rfl

private theorem trim_ne_nil {text : List Char} (other : ¬ Text.AllBlank text) :
    Text.trim text ≠ [] :=
  fun empty => other (Text.trim_eq_nil_iff.mp empty)

private theorem readCount_ok {head : List Char} (front : ¬ Text.AllBlank head →
    ∀ other, ¬ Parse.NumeralFlaw .count max (Text.trim head) other) :
    ∃ count, Parse.readCount max (Text.trim head) = .ok count := by
  by_cases blank : Text.AllBlank head
  · exact ⟨.one, if_pos (Text.trim_eq_nil_iff.mpr blank)⟩
  · rcases Parse.numeral_or_flaw .count max (Text.trim head) with ⟨count, numeral⟩ | ⟨other, wrong⟩
    · refine ⟨count, ?_⟩
      rw [Parse.readCount, if_neg (trim_ne_nil blank), Parse.readNumber_of_numeral .count numeral]
    · exact absurd wrong (front blank other)

theorem Flawed.readPiece_eq (flawed : piece.Flawed max flaw) :
    Parse.readPiece max piece = .error flaw := by
  cases flawed with
  | noSides back =>
    simp only [Parse.readPiece, if_pos (Text.trim_eq_nil_iff.mpr back)]
  | noBody front =>
    simp only [Parse.readPiece, if_pos (Text.trim_eq_nil_iff.mpr front)]
  | count back front wrong =>
    have count := Parse.readNumber_of_flaw wrong
    simp only [Parse.readPiece, Parse.readCount, if_neg (trim_ne_nil back),
      if_neg (trim_ne_nil front), count, bind, Except.bind]
  | sides back front wrong =>
    obtain ⟨count, read⟩ := readCount_ok front
    have sides := Parse.readNumber_of_flaw wrong
    simp only [Parse.readPiece, if_neg (trim_ne_nil back), read, sides, bind, Except.bind]
  | modifier front wrong =>
    have value := Parse.readNumber_of_flaw wrong
    simp only [Parse.readPiece, if_neg (trim_ne_nil front), value, bind, Except.bind]

theorem means_or_flawed (max : UInt16) (piece : Piece) :
    (∃ meaning, piece.Means max meaning) ∨ ∃ flaw, piece.Flawed max flaw := by
  obtain ⟨sign, head, sides⟩ := piece
  cases sides with
  | none =>
    by_cases blank : Text.AllBlank head
    · exact .inr ⟨_, .noBody blank⟩
    · rcases Parse.numeral_or_flaw .modifier max (Text.trim head) with ⟨_, front⟩ | ⟨_, wrong⟩
      · exact .inl ⟨_, .constant front⟩
      · exact .inr ⟨_, .modifier blank wrong⟩
  | some part =>
    by_cases missing : Text.AllBlank part.2
    · exact .inr ⟨_, .noSides missing⟩
    · rcases Parse.numeral_or_flaw .sides max (Text.trim part.2) with ⟨_, back⟩ | ⟨_, wrong⟩
      · by_cases blank : Text.AllBlank head
        · exact .inl ⟨_, .single blank back⟩
        · rcases Parse.numeral_or_flaw .count max (Text.trim head) with ⟨_, front⟩ | ⟨_, wrong⟩
          · exact .inl ⟨_, .counted front back⟩
          · exact .inr ⟨_, .count missing blank wrong⟩
      · by_cases counted : ¬ Text.AllBlank head →
            ∀ other, ¬ Parse.NumeralFlaw .count max (Text.trim head) other
        · exact .inr ⟨_, .sides missing counted wrong⟩
        · simp only [Classical.not_imp, not_forall, not_not] at counted
          obtain ⟨written, other, first⟩ := counted
          exact .inr ⟨_, .count missing written first⟩

theorem readPiece_eq_ok_iff : Parse.readPiece max piece = .ok meaning ↔ piece.Means max meaning :=
  (except_decided (fun _ => Means.readPiece_eq) (fun _ => Flawed.readPiece_eq)
    (means_or_flawed max piece)).1 meaning

theorem readPiece_eq_error_iff : Parse.readPiece max piece = .error flaw ↔ piece.Flawed max flaw :=
  (except_decided (fun _ => Means.readPiece_eq) (fun _ => Flawed.readPiece_eq)
    (means_or_flawed max piece)).2 flaw

/-- A piece with a meaning rolls as many dice as the value of its head says. -/
theorem Means.diceCount_eq (means : piece.Means max meaning) :
    piece.diceCount = (meaning.term?.map fun term => term.count.val).getD 0 := by
  cases means with
  | @counted sign head rest marker count sides front back =>
    simp only [diceCount, if_neg front.not_allBlank]
    exact front.value_eq
  | single front back =>
    simp only [diceCount, if_pos front]
    rfl
  | constant front => rfl

end

theorem exists_means_of_mem {max : UInt16} {pieces : List Piece} {meanings : List Meaning}
    (means : List.Forall₂ (Means max) pieces meanings) :
    ∀ piece ∈ pieces, ∃ meaning, piece.Means max meaning := by
  induction means with
  | nil => nofun
  | cons first others ih => exact List.forall_mem_cons.mpr ⟨⟨_, first⟩, ih⟩

/-- Either all pieces of a list mean something, or there is a first flawed one. -/
theorem means_or_first_flawed (max : UInt16) (pieces : List Piece) :
    (∃ meanings, List.Forall₂ (Means max) pieces meanings) ∨
      ∃ sound piece rest flaw, pieces = sound ++ piece :: rest ∧
        (∀ earlier ∈ sound, ∃ meaning, earlier.Means max meaning) ∧ piece.Flawed max flaw := by
  induction pieces with
  | nil => exact .inl ⟨[], .nil⟩
  | cons piece others ih =>
    rcases piece.means_or_flawed max with ⟨meaning, means⟩ | ⟨flaw, flawed⟩
    · rcases ih with ⟨meanings, all⟩ | ⟨sound, bad, rest, flaw, rfl, earlier, flawed⟩
      · exact .inl ⟨_, .cons means all⟩
      · refine .inr ⟨piece :: sound, bad, rest, flaw, rfl, ?_, flawed⟩
        exact List.forall_mem_cons.mpr ⟨⟨meaning, means⟩, earlier⟩
    · exact .inr ⟨[], piece, others, flaw, rfl, List.forall_mem_nil _, flawed⟩

end Piece

namespace Located

variable {max : UInt16}

theorem mapM_read_of_means {pieces : List Piece} {meanings : List Meaning}
    (means : List.Forall₂ (Piece.Means max) pieces meanings) (start : Nat) :
    (place start pieces).mapM (read max) = .ok meanings := by
  induction means generalizing start with
  | nil => rfl
  | cons first others ih =>
    simp only [place, List.mapM_cons, read, first.readPiece_eq, ih, Except.mapError, bind,
      Except.bind, pure, Except.pure]

/-- The first flawed piece ends the reading, and is shown behind all that was read before it. -/
theorem mapM_read_of_flawed {sound rest : List Piece} {piece : Piece} {flaw : Flaw}
    (means : ∀ earlier ∈ sound, ∃ meaning, earlier.Means max meaning)
    (flawed : piece.Flawed max flaw) (front : List Char) :
    (place (Text.byteSize front) (sound ++ piece :: rest)).mapM (read max) =
      .error (.flawed (piece.excerpt (front ++ sound.flatMap Piece.chars)) flaw) := by
  induction sound generalizing front with
  | nil =>
    simp only [List.nil_append, place, List.mapM_cons, read, flawed.readPiece_eq, Except.mapError,
      bind, Except.bind, excerpt, Piece.excerpt, List.flatMap_nil, List.append_nil,
      Text.byteSize_append]
  | cons first sound ih =>
    obtain ⟨meaning, firstMeans⟩ := means first List.mem_cons_self
    have others := ih (fun earlier member => means earlier (.tail _ member)) (front ++ first.chars)
    rw [Text.byteSize_append, List.append_assoc] at others
    simp only [List.cons_append, place, List.mapM_cons, read, firstMeans.readPiece_eq,
      Except.mapError, others, bind, Except.bind, List.flatMap_cons]

end Located

/-- Pieces have no two lists of meanings. -/
theorem Piece.meanings_unique {max : UInt16} {pieces : List Piece} {meanings others : List Meaning}
    (means : List.Forall₂ (Means max) pieces meanings)
    (also : List.Forall₂ (Means max) pieces others) : others = meanings := by
  have read := Located.mapM_read_of_means means 0
  rw [Located.mapM_read_of_means also 0] at read
  exact Except.ok.inj read

/-- The number of dice that the terms among the meanings roll. -/
def Meaning.diceCount (meanings : List Meaning) : Nat :=
  Term.diceCount (meanings.filterMap Meaning.term?)

theorem Meaning.diceCount_eq {max : UInt16} {pieces : List Piece} {meanings : List Meaning}
    (means : List.Forall₂ (Piece.Means max) pieces meanings) :
    Meaning.diceCount meanings = (pieces.map Piece.diceCount).sum := by
  induction means with
  | nil => rfl
  | @cons piece meaning pieces meanings first others ih =>
    rw [List.map_cons, List.sum_cons, ← ih, first.diceCount_eq]
    cases meaning with
    | dice term => rfl
    | constant value =>
      rw [Meaning.diceCount, List.filterMap_cons_none rfl]
      exact (Nat.zero_add _).symm

namespace Expression

section

variable {maxDice : Option UInt32} {source : String} {meanings : List Meaning}

theorem ofMeanings_of_many {most : UInt32} (cap : maxDice = some most)
    (many : most.toNat < Meaning.diceCount meanings) :
    ofMeanings maxDice source meanings =
      .error (.tooManyDice (Meaning.diceCount meanings) most) := by
  have above : maxDice.filter (fun max => max.toNat < Meaning.diceCount meanings) = some most := by
    rw [cap, Option.filter_some, if_pos (decide_eq_true many)]
  unfold Meaning.diceCount at above
  simp only [ofMeanings, above, Meaning.diceCount]

private theorem filter_eq_none
    (within : ∀ most, maxDice = some most → Meaning.diceCount meanings ≤ most.toNat) :
    maxDice.filter (fun max => max.toNat < Meaning.diceCount meanings) = none := by
  rw [Option.filter_eq_none_iff]
  intro most cap
  simpa using within most cap

theorem ofMeanings_of_none (none : meanings.filterMap Meaning.term? = []) :
    ofMeanings maxDice source meanings = .error .noDice := by
  have zero : Meaning.diceCount meanings = 0 := by
    rw [Meaning.diceCount, none]
    rfl
  have within : ∀ most, maxDice = some most → Meaning.diceCount meanings ≤ most.toNat :=
    fun most _ => zero.le.trans (Nat.zero_le most.toNat)
  have under := filter_eq_none within
  unfold Meaning.diceCount at under
  simp only [ofMeanings, under, Formula.ofTerms?_eq_none_iff.mpr none]

theorem ofMeanings_of_dice
    (within : ∀ most, maxDice = some most → Meaning.diceCount meanings ≤ most.toNat)
    (dice : meanings.filterMap Meaning.term? ≠ []) (source : String) :
    ∃ expression, ofMeanings maxDice source meanings = .ok expression ∧
      expression.terms = meanings.filterMap Meaning.term? ∧
      expression.modifier = Saturating.sum 0 (meanings.filterMap Meaning.constant?) ∧
      expression.source = some source := by
  have under := filter_eq_none within
  unfold Meaning.diceCount at under
  refine ⟨⟨⟨_, dice, Saturating.sum 0 (meanings.filterMap Meaning.constant?)⟩, some source⟩,
    ?_, rfl, rfl, rfl⟩
  simp only [ofMeanings, under, Formula.ofTerms?, dif_pos dice]

theorem ofMeanings_eq_ok_iff {expression : Expression} :
    ofMeanings maxDice source meanings = .ok expression ↔
      meanings.filterMap Meaning.term? ≠ [] ∧
        (∀ most, maxDice = some most → Meaning.diceCount meanings ≤ most.toNat) ∧
        expression.terms = meanings.filterMap Meaning.term? ∧
        expression.modifier = Saturating.sum 0 (meanings.filterMap Meaning.constant?) ∧
        expression.source = some source := by
  constructor
  · intro built
    have dice : meanings.filterMap Meaning.term? ≠ [] := by
      intro none
      rw [ofMeanings_of_none none] at built
      cases built
    have within : ∀ most, maxDice = some most → Meaning.diceCount meanings ≤ most.toNat := by
      intro most cap
      apply Nat.not_lt.mp
      intro many
      rw [ofMeanings_of_many cap many] at built
      cases built
    obtain ⟨other, same, parts⟩ := ofMeanings_of_dice within dice source
    cases same.symm.trans built
    exact ⟨dice, within, parts⟩
  · rintro ⟨dice, within, terms, modifier, origin⟩
    obtain ⟨other, built, otherTerms, otherModifier, otherOrigin⟩ :=
      ofMeanings_of_dice within dice source
    rw [built]
    congr 1
    exact Expression.ext (otherTerms.trans terms.symm) (otherModifier.trans modifier.symm)
      (otherOrigin.trans origin.symm)

end

section

variable {limits : Limits} {text : String}

theorem parseWith_of_blank (blank : Text.AllBlank text.toList) :
    parseWith limits text = .error .empty :=
  if_pos (Text.trim_eq_nil_iff.mpr blank)

private theorem parseWith_of_not_blank (written : ¬ Text.AllBlank text.toList) :
    parseWith limits text =
      ((piecesOf text.toList).mapM (Located.read limits.maxValue)).bind
        (ofMeanings limits.maxDice text) :=
  if_neg fun empty => written (Text.trim_eq_nil_iff.mp empty)

private theorem not_allBlank_of_means {max : UInt16} {text : List Char} {meanings : List Meaning}
    (means : List.Forall₂ (Piece.Means max) (Piece.ofChars (Text.trim text)) meanings) :
    ¬ Text.AllBlank text := by
  intro blank
  rw [Text.trim_eq_nil_iff.mpr blank] at means
  cases means with
  | cons first _ =>
    cases first with
    | constant front => exact front.ne_nil rfl

theorem parseWith_of_means {meanings : List Meaning}
    (means : List.Forall₂ (Piece.Means limits.maxValue)
      (Piece.ofChars (Text.trim text.toList)) meanings) :
    parseWith limits text = ofMeanings limits.maxDice text meanings := by
  rw [parseWith_of_not_blank (not_allBlank_of_means means), piecesOf, Located.ofChars,
    Located.mapM_read_of_means means]
  rfl

theorem parseWith_of_flawed {sound rest : List Piece} {piece : Piece} {flaw : Flaw}
    (written : ¬ Text.AllBlank text.toList)
    (cut : Piece.ofChars (Text.trim text.toList) = sound ++ piece :: rest)
    (means : ∀ earlier ∈ sound, ∃ meaning, earlier.Means limits.maxValue meaning)
    (flawed : piece.Flawed limits.maxValue flaw) :
    parseWith limits text = .error (.flawed
      (piece.excerpt (Text.leadingBlanks text.toList ++ sound.flatMap Piece.chars)) flaw) := by
  rw [parseWith_of_not_blank written, piecesOf, Located.ofChars, cut,
    Located.mapM_read_of_flawed means flawed]
  rfl

/-- A text is accepted if all its pieces mean something and the meanings make up an expression. -/
theorem parseWith_eq_ok_iff {expression : Expression} :
    parseWith limits text = .ok expression ↔ ∃ meanings,
      List.Forall₂ (Piece.Means limits.maxValue) (Piece.ofChars (Text.trim text.toList)) meanings ∧
        ofMeanings limits.maxDice text meanings = .ok expression := by
  constructor
  · intro accepted
    by_cases blank : Text.AllBlank text.toList
    · rw [parseWith_of_blank blank] at accepted
      cases accepted
    · rcases Piece.means_or_first_flawed limits.maxValue
          (Piece.ofChars (Text.trim text.toList)) with
        ⟨meanings, means⟩ | ⟨sound, piece, rest, flaw, cut, earlier, flawed⟩
      · exact ⟨meanings, means, (parseWith_of_means means).symm.trans accepted⟩
      · rw [parseWith_of_flawed blank cut earlier flawed] at accepted
        cases accepted
  · rintro ⟨meanings, means, built⟩
    exact (parseWith_of_means means).trans built

end

end Expression

end Dice
