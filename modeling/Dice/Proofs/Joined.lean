import Dice.Proofs.Excerpt
import Dice.Proofs.Grammar

/-!
Texts that are joined at a sign.

A sign opens a piece of its own, so the pieces in front of it stay as they are, whatever it opens.
An error about one of them is therefore the same with every continuation; and two accepted texts
make up an accepted text, with the terms of both in order and the sum of their constants.
-/

namespace Dice

/-- A text that opens with a sign. -/
def Text.OpensSigned (text : List Char) : Prop :=
  ∃ sign : Sign, ∃ rest, text = sign.toChar :: rest

namespace Text.OpensSigned

variable {text : List Char}

theorem not_allBlank (opens : OpensSigned text) : ¬ AllBlank text := by
  obtain ⟨sign, rest, rfl⟩ := opens
  intro blank
  have space := blank sign.toChar List.mem_cons_self
  rw [sign.isBlank_toChar] at space
  cases space

theorem trimRight (opens : OpensSigned text) : OpensSigned (trimRight text) := by
  obtain ⟨sign, rest, rfl⟩ := opens
  exact ⟨sign, Text.trimRight rest, trimRight_append_cons sign.isBlank_toChar [] rest⟩

theorem leadingBlanks_append (opens : OpensSigned text) (front : List Char) :
    leadingBlanks (front ++ text) = leadingBlanks front := by
  obtain ⟨sign, rest, rfl⟩ := opens
  exact leadingBlanks_append_cons sign.isBlank_toChar front rest

theorem trim_append (opens : OpensSigned text) (front : List Char) :
    trim (front ++ text) = trimLeft front ++ Text.trimRight text := by
  obtain ⟨sign, rest, rfl⟩ := opens
  rw [trim_append_cons sign.isBlank_toChar]
  exact congrArg _ (trimRight_append_cons sign.isBlank_toChar [] rest).symm

end Text.OpensSigned

namespace Piece

variable {text back : List Char} {pieces others : List Piece}

theorem Cut.signed_of_opens (cut : Cut text pieces) (opens : Text.OpensSigned text) :
    ∀ piece ∈ pieces, piece.sign ≠ none := by
  obtain ⟨sign, rest, rfl⟩ := opens
  have lead := cut.lead
  obtain ⟨first, others, rfl⟩ := List.exists_cons_of_ne_nil cut.ne_nil
  rw [List.head?_cons, List.head?_cons, Option.bind_some, Option.bind_some,
    Sign.ofChar?_toChar] at lead
  refine List.forall_mem_cons.mpr ⟨?_, cut.signed⟩
  rw [lead]
  exact Option.some_ne_none sign

theorem Cut.append (cut : Cut text pieces) (behind : Cut back others) (written : text ≠ [])
    (opens : Text.OpensSigned back) : Cut (text ++ back) (pieces ++ others) where
  joined := by rw [List.flatMap_append, cut.joined, behind.joined]
  ne_nil := List.append_ne_nil_of_left_ne_nil cut.ne_nil others
  clean := List.forall_mem_append.mpr ⟨cut.clean, behind.clean⟩
  signed := by
    rw [List.tail_append_of_ne_nil cut.ne_nil, List.forall_mem_append]
    exact ⟨cut.signed, behind.signed_of_opens opens⟩
  lead := by
    rw [List.head?_append_of_ne_nil _ cut.ne_nil, List.head?_append_of_ne_nil _ written, cut.lead]

/-- The pieces of a text in front of a sign, whatever the sign opens. -/
theorem exists_pieces_before_sign (text : List Char) : ∃ pieces : List Piece,
    pieces.flatMap chars = text ∧
      ∀ back, Text.OpensSigned back → Cut (text ++ back) (pieces ++ ofChars back) := by
  by_cases empty : text = []
  · exact ⟨[], empty.symm, fun back _ => empty ▸ cut_ofChars back⟩
  · have cut := cut_ofChars text
    exact ⟨_, cut.joined, fun back opens => cut.append (cut_ofChars back) empty opens⟩

theorem exists_split_before_sign {sound rest : List Piece} {piece : Piece}
    (cut : Cut text others) (opens : Text.OpensSigned text)
    (split : sound ++ piece :: rest = pieces ++ others)
    (within : Text.byteSize (sound.flatMap chars ++ piece.chars) ≤
      Text.byteSize (pieces.flatMap chars)) : ∃ more, pieces = sound ++ piece :: more := by
  -- Otherwise the piece has a sign, and ends behind all that stands in front of it.
  have behind : ∀ more, sound = pieces ++ more → piece ∉ others := by
    rintro more rfl member
    obtain ⟨c, found, _⟩ := head_of_sign (cut.signed_of_opens opens piece member)
    have size := Text.byteSize_pos (List.ne_nil_of_mem (List.mem_of_mem_head? found))
    rw [Text.byteSize_append, List.flatMap_append, Text.byteSize_append] at within
    omega
  rcases List.append_eq_append_iff.mp split with ⟨front, whole, back⟩ | ⟨more, whole, back⟩
  · cases front with
    | nil =>
      rw [List.append_nil] at whole
      rw [List.nil_append] at back
      exact absurd (back ▸ List.mem_cons_self) (behind [] (by rw [whole, List.append_nil]))
    | cons first more =>
      obtain ⟨rfl, _⟩ := List.cons.inj back
      exact ⟨more, whole⟩
  · exact absurd (back ▸ List.mem_append_right more List.mem_cons_self) (behind more whole)

end Piece

namespace Expression

variable {limits : Limits} {front first second : String} {error : ParseError} {excerpt : Excerpt}

private theorem exists_pieces_of_front (front : List Char) : ∃ pieces : List Piece,
    Text.leadingBlanks front ++ pieces.flatMap Piece.chars = front ∧
      ∀ back, Text.OpensSigned back →
        Piece.Cut (Text.trim (front ++ back)) (pieces ++ Piece.ofChars (Text.trimRight back)) := by
  obtain ⟨pieces, joined, cut⟩ := Piece.exists_pieces_before_sign (Text.trimLeft front)
  refine ⟨pieces, ?_, fun back opens => ?_⟩
  · rw [joined, Text.leadingBlanks_append_trimLeft]
  · rw [opens.trim_append]
    exact cut _ opens.trimRight

/-- An error about a piece that ends in front of a sign does not depend on what the sign opens. -/
theorem error_blind_to_continuation (opens : Text.OpensSigned first.toList)
    (reopens : Text.OpensSigned second.toList)
    (rejected : parseWith limits (front ++ first) = .error error)
    (blamed : error.excerpt? = some excerpt) (within : excerpt.span.stop ≤ front.utf8ByteSize) :
    parseWith limits (front ++ second) = .error error := by
  obtain ⟨pieces, joined, cuts⟩ := exists_pieces_of_front front.toList
  have size := congrArg Text.byteSize joined
  have cut := cuts _ opens
  have cut' := cuts _ reopens
  rw [parseWith_eq_error_iff, String.toList_append] at rejected ⊢
  cases rejected with
  | empty => cases blamed
  | tooManyDice => cases blamed
  | noDice => cases blamed
  | @flawed sound rest piece flaw written found sounds flawed =>
    cases blamed
    have ends : Text.byteSize (sound.flatMap Piece.chars ++ piece.chars) ≤
        Text.byteSize (pieces.flatMap Piece.chars) := by
      simp only [Piece.excerpt, opens.leadingBlanks_append, Text.byteSize_append,
        ← Text.byteSize_toList] at within size ⊢
      omega
    obtain ⟨more, rfl⟩ := Piece.exists_split_before_sign (Piece.cut_ofChars _) opens.trimRight
      (found.eq_ofChars.trans cut.eq_ofChars.symm) ends
    rw [List.append_assoc, List.cons_append] at cut'
    rw [opens.leadingBlanks_append, ← reopens.leadingBlanks_append]
    refine .flawed (fun blank => ?_) cut' sounds flawed
    exact reopens.not_allBlank (Text.allBlank_append.mp blank).2

/-- A flaw behind a blank of several bytes, continued by a good piece and by worse ones. -/
theorem error_blind_to_bad_continuation : ∃ front first second error excerpt,
    front = "\u00a02d6 + 3x " ∧ first = "- 1" ∧ second = "-- 4d + d99999" ∧
    Text.OpensSigned first.toList ∧ Text.OpensSigned second.toList ∧
    parseWith {} (front ++ first) = .error error ∧ error.excerpt? = some excerpt ∧
    excerpt.span.stop ≤ front.utf8ByteSize ∧ parseWith {} (front ++ second) = .error error := by
  have opens : Text.OpensSigned "- 1".toList := ⟨.negative, _, rfl⟩
  have reopens : Text.OpensSigned "-- 4d + d99999".toList := ⟨.negative, _, rfl⟩
  have rejected : parseWith {} ("\u00a02d6 + 3x " ++ "- 1") =
      .error (.flawed ⟨"+ 3x".toList, ⟨6, 11⟩⟩ (.notNumeric .modifier)) := by rfl
  have within : 11 ≤ "\u00a02d6 + 3x ".utf8ByteSize := by decide
  exact ⟨_, _, _, _, _, rfl, rfl, rfl, opens, reopens, rejected, rfl, within,
    error_blind_to_continuation opens reopens rejected rfl within⟩

end Expression

namespace Grammar

variable {max : UInt16} {text back : List Char} {meanings others : List Meaning}

theorem Tail.append (tail : Tail max text meanings) (behind : Tail max back others) :
    Tail max (text ++ back) (meanings ++ others) := by
  induction tail with
  | nil => exact behind
  | cons left right body tail ih => simpa using Tail.cons left right body ih

/-- A sentence that starts with a sign continues any other one. The blanks between them stand in
front of its sign. -/
theorem Sentence.append (sentence : Sentence max text meanings)
    (behind : Sentence max back others) (opens : Text.OpensSigned (Text.trimLeft back)) :
    Sentence max (text ++ back) (meanings ++ others) := by
  obtain @⟨front, between, piece, tail, gap, sign, meaning, meanings, left, inner, body, rest,
    blank⟩ := sentence
  obtain ⟨start, last, joined, blank', right⟩ := Text.exists_surrounded_trim back
  have cut := Piece.cut_ofChars (Text.trim back)
  obtain ⟨more, ends, split, continued, blank''⟩ :=
    exists_tail behind.means (cut.signed_of_opens opens.trimRight)
      (Text.allBlank_append.mpr ⟨blank, blank'⟩)
  rw [cut.joined] at split
  have whole := Sentence.mk left inner body (rest.append continued)
    (Text.allBlank_append.mpr ⟨blank'', right⟩)
  have regrouped : gap ++ back = more ++ (ends ++ last) := by
    calc gap ++ back = gap ++ (start ++ Text.trim back ++ last) := by rw [joined]
      _ = gap ++ start ++ Text.trim back ++ last := by simp only [List.append_assoc]
      _ = more ++ (ends ++ last) := by rw [split, List.append_assoc]
  simpa [regrouped] using whole

end Grammar

namespace Expression

variable {limits : Limits} {front back : String} {first second : Expression}

/-- Without a cap on dice, two accepted texts are accepted together if the second one starts with a
sign. -/
theorem parseWith_append (uncapped : limits.maxDice = none)
    (short : Text.byteSize (front ++ back).toList < 2 ^ 48)
    (opens : Text.OpensSigned (Text.trimLeft back.toList))
    (accepted : parseWith limits front = .ok first)
    (continued : parseWith limits back = .ok second) :
    ∃ expression, parseWith limits (front ++ back) = .ok expression ∧
      expression.terms = first.terms ++ second.terms ∧
      expression.modifier.toInt = first.modifier.toInt + second.modifier.toInt ∧
      expression.source = some (front ++ back) := by
  obtain ⟨meanings, means, built⟩ := parseWith_eq_ok_iff.mp accepted
  obtain ⟨others, also, built'⟩ := parseWith_eq_ok_iff.mp continued
  obtain ⟨dice, _, terms, modifier, _⟩ := ofMeanings_eq_ok_iff.mp built
  obtain ⟨_, _, terms', modifier', _⟩ := ofMeanings_eq_ok_iff.mp built'
  have sentence := Grammar.sentence_iff.mpr means
  have behind := Grammar.sentence_iff.mpr also
  have whole := sentence.append behind opens
  rw [← String.toList_append] at whole
  have within : ∀ most, limits.maxDice = some most →
      Meaning.diceCount (meanings ++ others) ≤ most.toNat := by simp [uncapped]
  have diced : (meanings ++ others).filterMap Meaning.term? ≠ [] := by simp [dice]
  obtain ⟨expression, joined, allTerms, sum, source⟩ :=
    ofMeanings_of_dice within diced (front ++ back)
  have size := short
  rw [String.toList_append, Text.byteSize_append] at size
  refine ⟨expression, (parseWith_of_means whole.means).trans joined, ?_, ?_, source⟩
  · rw [allTerms, List.filterMap_append, terms, terms']
  · rw [sum, modifier, modifier', whole.toInt_sum_constants short,
      sentence.toInt_sum_constants (by omega), behind.toInt_sum_constants (by omega),
      List.filterMap_append, List.sum_append]

/-- Blanks at the joint, constants of both signs, and a count that is left out. -/
theorem parseWith_append_of_blanks : ∃ front back first second,
    front = " 2d6 + 3 " ∧ back = "\t- D4-10" ∧ Text.byteSize (front ++ back).toList < 2 ^ 48 ∧
    Text.OpensSigned (Text.trimLeft back.toList) ∧ parseWith {} front = .ok first ∧
    parseWith {} back = .ok second ∧
    ∃ expression, parseWith {} (front ++ back) = .ok expression ∧
      expression.terms = first.terms ++ second.terms ∧
      expression.modifier.toInt = first.modifier.toInt + second.modifier.toInt ∧
      expression.source = some (front ++ back) := by
  have short : Text.byteSize (" 2d6 + 3 " ++ "\t- D4-10").toList < 2 ^ 48 := by decide
  have opens : Text.OpensSigned (Text.trimLeft "\t- D4-10".toList) := ⟨.negative, _, rfl⟩
  have frontRead : (parseWith {} " 2d6 + 3 ").isOk = true := by decide +kernel
  have backRead : (parseWith {} "\t- D4-10").isOk = true := by decide +kernel
  cases accepted : parseWith {} " 2d6 + 3 " with
  | error error =>
    rw [accepted] at frontRead
    cases frontRead
  | ok first =>
    cases continued : parseWith {} "\t- D4-10" with
    | error error =>
      rw [continued] at backRead
      cases backRead
    | ok second =>
      exact ⟨_, _, first, second, rfl, rfl, short, opens, accepted, continued,
        parseWith_append rfl short opens accepted continued⟩

end Expression

end Dice
