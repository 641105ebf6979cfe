import Mathlib
import Dice.Proofs.Parse.Reading
import Dice.Proofs.Saturating

/-!
The grammar of expressions, as relations between a text and the meanings of its pieces in order.

Blanks may stand around signs and markers and at both ends of the text, but not inside numbers. A
text has a derivation exactly if each of its pieces has a meaning, and so what is accepted, and as
which expression, can be read off the derivations.
-/

namespace Dice.Grammar

open Text (AllBlank EndsInDigit)
open Parse (Numeral)

/-- A piece without the blanks around it, behind a sign or the lack of one. -/
inductive Body (max : UInt16) (sign : Sign) : List Char → Meaning → Prop where
  | counted {front before after back : List Char} {marker : Marker} {count sides : Number}
      (counted : Numeral max front count) (left : AllBlank before) (right : AllBlank after)
      (sided : Numeral max back sides) :
      Body max sign (front ++ before ++ marker.toChar :: after ++ back)
        (.dice ⟨count, sides, sign⟩)
  | single {before after back : List Char} {marker : Marker} {sides : Number}
      (left : AllBlank before) (right : AllBlank after) (sided : Numeral max back sides) :
      Body max sign (before ++ marker.toChar :: after ++ back) (.dice ⟨.one, sides, sign⟩)
  | constant {digits : List Char} {number : Number} (valued : Numeral max digits number) :
      Body max sign digits (.constant (sign.apply number.val))

/-- The pieces behind the first one, each with its sign. -/
inductive Tail (max : UInt16) : List Char → List Meaning → Prop where
  | nil : Tail max [] []
  | cons {before after piece text : List Char} {sign : Sign} {meaning : Meaning}
      {meanings : List Meaning} (left : AllBlank before) (right : AllBlank after)
      (body : Body max sign piece meaning) (others : Tail max text meanings) :
      Tail max (before ++ sign.toChar :: after ++ piece ++ text) (meaning :: meanings)

/-- A whole text. Its first piece is positive unless a sign says otherwise. -/
inductive Sentence (max : UInt16) : List Char → List Meaning → Prop where
  | mk {front between piece text back : List Char} {sign : Option Sign} {meaning : Meaning}
      {meanings : List Meaning} (left : AllBlank front) (inner : AllBlank between)
      (body : Body max (sign.getD .positive) piece meaning) (others : Tail max text meanings)
      (right : AllBlank back) :
      Sentence max (front ++ (sign.map Sign.toChar).toList ++ between ++ piece ++ text ++ back)
        (meaning :: meanings)

variable {max : UInt16} {sign : Sign} {text : List Char} {meaning : Meaning}
  {meanings : List Meaning}

private theorem inert_of_numeral {number : Number} {front back : List Char}
    (left : AllBlank front) (numeral : Numeral max text number) (right : AllBlank back) :
    ∀ c ∈ front ++ text ++ back, Piece.Inert c := by
  have digits : ∀ c ∈ text, Piece.Inert c :=
    fun c member => Piece.inert_of_isDigit (numeral.digits c member)
  simp only [List.forall_mem_append]
  exact ⟨⟨Piece.inert_of_allBlank left, digits⟩, Piece.inert_of_allBlank right⟩

/-- A body between blanks is the body of a clean piece with the same meaning. -/
theorem Body.exists_piece (sign : Option Sign) {front back : List Char}
    (body : Body max (sign.getD .positive) text meaning) (left : AllBlank front)
    (right : AllBlank back) : ∃ piece : Piece, piece.sign = sign ∧
      piece.body = front ++ text ++ back ∧ piece.Clean ∧ piece.Means max meaning := by
  cases body with
  | @counted count before after sides marker _ _ counted blank blank' sided =>
    refine ⟨⟨sign, front ++ count ++ before, some (marker, after ++ sides ++ back)⟩, rfl,
      by simp [Piece.body], ?_, ?_⟩
    · apply Piece.clean_marked
      · exact inert_of_numeral left counted blank
      · exact inert_of_numeral blank' sided right
    · apply Piece.Means.counted
      · rwa [counted.trimmed.trim_surrounded left blank]
      · rwa [sided.trimmed.trim_surrounded blank' right]
  | @single before after sides marker _ blank blank' sided =>
    refine ⟨⟨sign, front ++ before, some (marker, after ++ sides ++ back)⟩, rfl,
      by simp [Piece.body], ?_, ?_⟩
    · apply Piece.clean_marked
      · simp only [List.forall_mem_append]
        exact ⟨Piece.inert_of_allBlank left, Piece.inert_of_allBlank blank⟩
      · exact inert_of_numeral blank' sided right
    · apply Piece.Means.single
      · exact Text.allBlank_append.mpr ⟨left, blank⟩
      · rwa [sided.trimmed.trim_surrounded blank' right]
  | @constant _ number valued =>
    have inert := inert_of_numeral left valued right
    refine ⟨⟨sign, front ++ text ++ back, none⟩, rfl, by simp [Piece.body], ?_, ?_⟩
    · exact Piece.clean_unmarked inert
    · apply Piece.Means.constant
      rwa [valued.trimmed.trim_surrounded left right]

/-- The body of a piece with a meaning is a body of the grammar between blanks. -/
theorem exists_body {piece : Piece} (means : piece.Means max meaning) :
    ∃ front text back, piece.body = front ++ text ++ back ∧ AllBlank front ∧ AllBlank back ∧
      Body max (piece.sign.getD .positive) text meaning := by
  cases means with
  | @counted sign head rest marker count sides front back =>
    obtain ⟨a, b, headSplit, left, blank⟩ := Text.exists_surrounded_trim head
    obtain ⟨c, d, restSplit, blank', right⟩ := Text.exists_surrounded_trim rest
    refine ⟨a, Text.trim head ++ b ++ marker.toChar :: c ++ Text.trim rest, d, ?_, left, right,
      .counted front blank blank' back⟩
    conv_lhs => rw [Piece.body, ← headSplit, ← restSplit]
    simp
  | @single sign head rest marker sides front back =>
    obtain ⟨c, d, restSplit, blank', right⟩ := Text.exists_surrounded_trim rest
    refine ⟨[], head ++ marker.toChar :: c ++ Text.trim rest, d, ?_, Text.allBlank_nil, right,
      .single front blank' back⟩
    conv_lhs => rw [Piece.body, ← restSplit]
    simp
  | @constant sign head number front =>
    obtain ⟨a, b, headSplit, left, right⟩ := Text.exists_surrounded_trim head
    refine ⟨a, Text.trim head, b, ?_, left, right, .constant front⟩
    rw [headSplit, Piece.body, List.append_nil]

/-- Behind the blanks that it starts with, a tail is a row of clean signed pieces. -/
theorem Tail.exists_pieces (tail : Tail max text meanings) :
    ∃ gap pieces, text = gap ++ pieces.flatMap Piece.chars ∧ AllBlank gap ∧
      (∀ piece ∈ pieces, piece.Clean) ∧ (∀ piece ∈ pieces, piece.sign ≠ none) ∧
      List.Forall₂ (Piece.Means max) pieces meanings := by
  induction tail with
  | nil => exact ⟨[], [], rfl, Text.allBlank_nil, nofun, nofun, .nil⟩
  | @cons before after body text sign meaning meanings left right derived others ih =>
    obtain ⟨gap, pieces, rfl, blank, clean, signed, means⟩ := ih
    obtain ⟨piece, pieceSign, pieceBody, pieceClean, pieceMeans⟩ :=
      derived.exists_piece (some sign) right blank
    refine ⟨before, piece :: pieces, ?_, left, List.forall_mem_cons.mpr ⟨pieceClean, clean⟩,
      List.forall_mem_cons.mpr ⟨?_, signed⟩, .cons pieceMeans means⟩
    · rw [List.flatMap_cons, Piece.chars_eq, pieceSign, pieceBody]
      simp
    · rw [pieceSign]
      exact Option.some_ne_none sign

/-- A row of signed pieces with meanings is a tail of the grammar, apart from the blanks at its
end. -/
theorem exists_tail {pieces : List Piece}
    (means : List.Forall₂ (Piece.Means max) pieces meanings)
    (signed : ∀ piece ∈ pieces, piece.sign ≠ none) {gap : List Char} (blank : AllBlank gap) :
    ∃ text back, gap ++ pieces.flatMap Piece.chars = text ++ back ∧ Tail max text meanings ∧
      AllBlank back := by
  induction means generalizing gap with
  | nil => exact ⟨[], gap, List.append_nil gap, .nil, blank⟩
  | @cons piece meaning pieces meanings first others ih =>
    obtain ⟨sign, marked⟩ := Option.ne_none_iff_exists'.mp (signed piece List.mem_cons_self)
    obtain ⟨front, text, behind, split, left, right, body⟩ := exists_body first
    obtain ⟨rest, back, joined, tail, last⟩ :=
      ih (fun other member => signed other (.tail _ member)) right
    rw [marked] at body
    refine ⟨gap ++ sign.toChar :: front ++ text ++ rest, back, ?_, .cons blank left body tail, last⟩
    rw [List.flatMap_cons, Piece.chars_eq, marked, split]
    simp [← joined]

private theorem endsInDigit_of_numeral {number : Number} (numeral : Numeral max text number) :
    EndsInDigit text :=
  Text.endsInDigit_of_digits numeral.ne_nil numeral.digits

private theorem Body.ends (body : Body max sign text meaning) : EndsInDigit text := by
  cases body with
  | counted counted left right sided => exact (endsInDigit_of_numeral sided).append _
  | single left right sided => exact (endsInDigit_of_numeral sided).append _
  | constant valued => exact endsInDigit_of_numeral valued

private theorem Tail.ends (tail : Tail max text meanings) (front : List Char)
    (ends : EndsInDigit front) : EndsInDigit (front ++ text) := by
  induction tail generalizing front with
  | nil => rwa [List.append_nil]
  | @cons before after piece text sign meaning meanings left right body others ih =>
    rw [← List.append_assoc]
    apply ih
    rw [← List.append_assoc]
    exact body.ends.append _

/-- The blanks in front of a marker can be taken for blanks in front of the piece. -/
private theorem Body.exists_start (body : Body max sign text meaning) :
    ∃ blanks rest, text = blanks ++ rest ∧ AllBlank blanks ∧ Body max sign rest meaning ∧
      ∀ c ∈ rest.head?, Text.isBlank c = false := by
  have digitStart {run : List Char} {number : Number} (numeral : Numeral max run number)
      (more : List Char) : ∀ c ∈ (run ++ more).head?, Text.isBlank c = false := by
    rw [List.head?_append_of_ne_nil _ numeral.ne_nil]
    exact numeral.trimmed.head
  cases body with
  | @counted front before after back marker count sides counted left right sided =>
    refine ⟨[], _, rfl, Text.allBlank_nil, .counted counted left right sided, ?_⟩
    simpa using digitStart counted (before ++ marker.toChar :: (after ++ back))
  | @single before after back marker sides left right sided =>
    refine ⟨before, [] ++ marker.toChar :: after ++ back, by simp, left,
      .single Text.allBlank_nil right sided, ?_⟩
    rintro c ⟨⟩
    exact marker.isBlank_toChar
  | constant valued =>
    refine ⟨[], _, rfl, Text.allBlank_nil, .constant valued, ?_⟩
    simpa using digitStart valued []

/-- Without the blanks around it, a sentence is cut into pieces with its meanings. -/
private theorem means_of_derivation (sign : Option Sign) {between piece : List Char}
    (inner : AllBlank between) (body : Body max (sign.getD .positive) piece meaning)
    (others : Tail max text meanings) : List.Forall₂ (Piece.Means max)
      (Piece.ofChars ((sign.map Sign.toChar).toList ++ between ++ piece ++ text))
      (meaning :: meanings) := by
  obtain ⟨gap, pieces, rfl, blank, clean, signed, means⟩ := others.exists_pieces
  obtain ⟨first, firstSign, firstBody, firstClean, firstMeans⟩ := body.exists_piece sign inner blank
  have written : first.body ≠ [] := by
    rw [firstBody]
    exact List.append_ne_nil_of_left_ne_nil (body.ends.append between).ne_nil gap
  have cut := Piece.cut_of_clean firstClean clean signed written
  have joined : (first :: pieces).flatMap Piece.chars = (sign.map Sign.toChar).toList ++ between ++
      piece ++ (gap ++ pieces.flatMap Piece.chars) := by
    rw [List.flatMap_cons, Piece.chars_eq, firstSign, firstBody]
    simp
  rw [← joined, ← cut.eq_ofChars]
  exact .cons firstMeans means

theorem Sentence.means (sentence : Sentence max text meanings) :
    List.Forall₂ (Piece.Means max) (Piece.ofChars (Text.trim text)) meanings := by
  obtain @⟨front, between, piece, text, back, sign, meaning, meanings, left, inner, body, others,
    right⟩ := sentence
  cases sign with
  | some sign =>
    have ends := others.ends (sign.toChar :: between ++ piece) (body.ends.append _)
    have trimmed : Text.Trimmed (sign.toChar :: between ++ piece ++ text) := by
      refine ends.trimmed ?_
      rintro c ⟨⟩
      exact sign.isBlank_toChar
    have core := trimmed.trim_surrounded left right
    have means := means_of_derivation (some sign) inner body others
    simp only [Option.map_some, Option.toList_some, List.append_assoc, List.cons_append,
      List.nil_append] at core means ⊢
    rwa [core]
  | none =>
    obtain ⟨blanks, rest, rfl, blank, start, first⟩ := body.exists_start
    have trimmed : Text.Trimmed (rest ++ text) := by
      refine (others.ends rest start.ends).trimmed ?_
      rwa [List.head?_append_of_ne_nil _ start.ends.ne_nil]
    have core := trimmed.trim_surrounded
      (Text.allBlank_append.mpr ⟨Text.allBlank_append.mpr ⟨left, inner⟩, blank⟩) right
    have means := means_of_derivation none Text.allBlank_nil start others
    simp only [Option.map_none, Option.toList_none, List.append_assoc, List.nil_append]
      at core means ⊢
    rwa [core]

/-- A text has a derivation exactly if each of its pieces has a meaning. -/
theorem sentence_iff : Sentence max text meanings ↔
    List.Forall₂ (Piece.Means max) (Piece.ofChars (Text.trim text)) meanings := by
  refine ⟨Sentence.means, fun means => ?_⟩
  obtain ⟨front, back, whole, left, right⟩ := Text.exists_surrounded_trim text
  have cut := Piece.cut_ofChars (Text.trim text)
  obtain ⟨first, others, pieces⟩ := List.exists_cons_of_ne_nil cut.ne_nil
  have joined := cut.joined
  have signed := cut.signed
  rw [pieces] at means joined signed
  cases means with
  | @cons _ meaning _ meanings firstMeans otherMeans =>
    obtain ⟨inner, piece, behind, split, blank, blank', body⟩ := exists_body firstMeans
    obtain ⟨rest, last, tailSplit, tail, blank''⟩ := exists_tail otherMeans signed blank'
    have sentence := Sentence.mk left blank body tail (Text.allBlank_append.mpr ⟨blank'', right⟩)
    have regrouped : behind ++ (others.flatMap Piece.chars ++ back) = rest ++ (last ++ back) := by
      rw [← List.append_assoc, tailSplit, List.append_assoc]
    rw [List.flatMap_cons, Piece.chars_eq, split] at joined
    rw [← whole, ← joined]
    simpa [regrouped] using sentence

private theorem Body.byteSize_pos (body : Body max sign text meaning) : 0 < Text.byteSize text := by
  obtain ⟨c, last, _⟩ := body.ends
  apply Text.byteSize_pos
  rintro rfl
  cases last

private theorem length_constants_cons (meaning : Meaning) (meanings : List Meaning) :
    ((meaning :: meanings).filterMap Meaning.constant?).length ≤
      1 + (meanings.filterMap Meaning.constant?).length := by
  cases meaning with
  | dice term => exact Nat.le_add_left ..
  | constant value => exact (Nat.add_comm ..).le

/-- Every constant of a tail takes two bytes at least, as it has a sign. -/
private theorem Tail.length_constants_le (tail : Tail max text meanings) :
    2 * (meanings.filterMap Meaning.constant?).length ≤ Text.byteSize text := by
  induction tail with
  | nil => exact Nat.le_refl 0
  | @cons before after piece text sign meaning meanings left right body others ih =>
    have one := length_constants_cons meaning meanings
    have signSize := sign.toChar.utf8Size_pos
    have pieceSize := body.byteSize_pos
    simp only [Text.byteSize_append, Text.byteSize_cons]
    omega

theorem Sentence.length_constants_le (sentence : Sentence max text meanings) :
    2 * (meanings.filterMap Meaning.constant?).length ≤ Text.byteSize text + 1 := by
  cases sentence with
  | @mk front between piece text back sign meaning meanings left inner body others right =>
    have one := length_constants_cons meaning meanings
    have pieceSize := body.byteSize_pos
    have rest := others.length_constants_le
    simp only [Text.byteSize_append]
    omega

private theorem natAbs_constant_le {pieces : List Piece}
    (means : List.Forall₂ (Piece.Means max) pieces meanings) :
    ∀ value ∈ meanings.filterMap Meaning.constant?, value.natAbs ≤ 65535 := by
  induction means with
  | nil => nofun
  | @cons piece meaning pieces meanings first others ih =>
    cases first with
    | counted front back => exact ih
    | single front back => exact ih
    | @constant sign head number front =>
      refine List.forall_mem_cons.mpr ⟨?_, ih⟩
      have small := number.lt_size
      rw [Sign.natAbs_apply, Int.natAbs_natCast]
      omega

/-- The constants of a text that fits into any memory add up without saturating. -/
theorem Sentence.toInt_sum_constants (sentence : Sentence max text meanings)
    (short : Text.byteSize text < 2 ^ 48) :
    (Saturating.sum 0 (meanings.filterMap Meaning.constant?)).toInt =
      (meanings.filterMap Meaning.constant?).sum := by
  have few := sentence.length_constants_le
  have bound : ((meanings.filterMap Meaning.constant?).map Int.natAbs).sum ≤
      ((meanings.filterMap Meaning.constant?).map Int.natAbs).length • 65535 := by
    apply List.sum_le_card_nsmul
    intro size member
    obtain ⟨value, present, rfl⟩ := List.mem_map.mp member
    exact natAbs_constant_le sentence.means value present
  rw [List.length_map, smul_eq_mul] at bound
  have zero : (0 : Int64).toInt = 0 := rfl
  rw [Saturating.toInt_sum (by rw [zero, Int.natAbs_zero]; omega), zero, Int.zero_add]

end Dice.Grammar

namespace Dice.Expression

/-- What is accepted are the sentences with a die, up to the cap on dice; and the expression is the
one that the derivation spells out. -/
theorem parseWith_accepts_sentences (limits : Limits) (text : String)
    (short : Text.byteSize text.toList < 2 ^ 48) :
    ((∃ expression, parseWith limits text = .ok expression) ↔
      ∃ meanings, Grammar.Sentence limits.maxValue text.toList meanings ∧
        meanings.filterMap Meaning.term? ≠ [] ∧
        ∀ most, limits.maxDice = some most → Meaning.diceCount meanings ≤ most.toNat) ∧
    ∀ expression meanings, parseWith limits text = .ok expression →
      Grammar.Sentence limits.maxValue text.toList meanings →
      expression.terms = meanings.filterMap Meaning.term? ∧
        expression.modifier.toInt = (meanings.filterMap Meaning.constant?).sum ∧
        expression.source = some text := by
  constructor
  · constructor
    · rintro ⟨expression, accepted⟩
      obtain ⟨meanings, means, built⟩ := parseWith_eq_ok_iff.mp accepted
      obtain ⟨dice, within, _⟩ := ofMeanings_eq_ok_iff.mp built
      exact ⟨meanings, Grammar.sentence_iff.mpr means, dice, within⟩
    · rintro ⟨meanings, sentence, dice, within⟩
      obtain ⟨expression, built, _⟩ := ofMeanings_of_dice within dice text
      exact ⟨expression, parseWith_eq_ok_iff.mpr ⟨meanings, sentence.means, built⟩⟩
  · intro expression meanings accepted sentence
    rw [parseWith_of_means sentence.means] at accepted
    obtain ⟨_, _, terms, modifier, source⟩ := ofMeanings_eq_ok_iff.mp accepted
    refine ⟨terms, ?_, source⟩
    rw [modifier, sentence.toInt_sum_constants short]

theorem parseWith_accepts_mixed : Text.byteSize " d6 -02D 8+3 ".toList < 2 ^ 48 ∧
    (∃ meanings, Grammar.Sentence 10000 " d6 -02D 8+3 ".toList meanings ∧
      meanings.filterMap Meaning.term? =
        [⟨.one, ⟨6, by decide, by decide⟩, .positive⟩,
          ⟨⟨2, by decide, by decide⟩, ⟨8, by decide, by decide⟩, .negative⟩] ∧
      (meanings.filterMap Meaning.constant?).sum = 3) ∧
    ∃ expression, parseWith { maxDice := some 3 } " d6 -02D 8+3 " = .ok expression ∧
      expression.terms =
        [⟨.one, ⟨6, by decide, by decide⟩, .positive⟩,
          ⟨⟨2, by decide, by decide⟩, ⟨8, by decide, by decide⟩, .negative⟩] ∧
      expression.modifier.toInt = 3 ∧ expression.source = some " d6 -02D 8+3 " := by
  have short : Text.byteSize " d6 -02D 8+3 ".toList < 2 ^ 48 := by decide
  obtain ⟨accepted, spelled⟩ :=
    parseWith_accepts_sentences { maxDice := some 3 } " d6 -02D 8+3 " short
  have read : parseWith { maxDice := some 3 } " d6 -02D 8+3 " = .ok _ := rfl
  obtain ⟨meanings, sentence, -, -⟩ := accepted.mp ⟨_, read⟩
  obtain ⟨terms, modifier, source⟩ := spelled _ meanings read sentence
  exact ⟨short, ⟨meanings, sentence, terms.symm, modifier.symm⟩, _, read, rfl, rfl, source⟩

end Dice.Expression
