import Dice.Proofs.Piece.Placed
import Dice.Proofs.Rejection

/-!
The place that an error points at.

An error about a piece shows it up to the blanks at its end; its span holds these blanks as well. So
the span starts at the sign of the piece, or at the first character of the text that is no blank,
and it ends at the next sign, or at the blanks that the text ends with.

What an error shows can also be cut out of the text byte by byte. No piece starts or ends within a
character, so it does not matter what such a cut would give.
-/

namespace Dice

namespace Text

/-- Cuts a text at a byte, unless that is within a character or behind the end. -/
def cutAt? (byte : Nat) : List Char → Option (List Char × List Char)
  | [] => if byte = 0 then some ([], []) else none
  | c :: rest =>
    if byte = 0 then some ([], c :: rest)
    else if byte < c.utf8Size then none
    else (cutAt? (byte - c.utf8Size) rest).map fun parts => (c :: parts.1, parts.2)

theorem cutAt?_byteSize (front back : List Char) :
    cutAt? (byteSize front) (front ++ back) = some (front, back) := by
  induction front with
  | nil => cases back <;> rfl
  | cons c front ih =>
    have positive : c.utf8Size + byteSize front ≠ 0 := by
      have written := c.utf8Size_pos
      omega
    rw [List.cons_append, byteSize_cons, cutAt?, if_neg positive, if_neg (by omega),
      Nat.add_sub_cancel_left, ih]
    rfl

theorem byteSize_toList (text : String) : byteSize text.toList = text.utf8ByteSize := by
  have size (chars : List Char) : byteSize chars = String.utf8Len chars := by
    induction chars with
    | nil => rfl
    | cons c chars ih => rw [byteSize_cons, String.utf8Len_cons, ih, Nat.add_comm]
  rw [size, ← String.utf8ByteSize_ofList, String.ofList_toList]

end Text

namespace Span

/-- The characters whose bytes make up a span, if it starts and ends between characters. -/
def slice? (span : Span) (text : List Char) : Option (List Char) :=
  if span.stop < span.start then none
  else do
    let behind ← Text.cutAt? span.start text
    let part ← Text.cutAt? (span.stop - span.start) behind.2
    return part.1

theorem Holds.slice?_eq {span : Span} {text part : List Char} (holds : span.Holds text part) :
    span.slice? text = some part := by
  obtain ⟨front, back, rfl, start, stop⟩ := holds
  rw [Text.byteSize_append] at stop
  have size : span.stop - span.start = Text.byteSize part := by omega
  rw [slice?, if_neg (by omega), ← start, List.append_assoc, Text.cutAt?_byteSize, start, size,
    Option.bind_eq_bind, Option.bind_some, Text.cutAt?_byteSize]
  rfl

/-- The span of the same bytes in a text with so many more in front. -/
def shift (offset : Nat) (span : Span) : Span :=
  ⟨offset + span.start, offset + span.stop⟩

end Span

/-- What an excerpt points at in a text: a part between what stands in front and what stands behind.
It opens with a sign, or with the first character of the text that is no blank. There is no other
sign in it, and it is closed by the next one, or by the blanks that the text ends with. -/
structure Excerpt.PointsAt (excerpt : Excerpt) (text front part back : List Char) : Prop where
  joined : front ++ part ++ back = text
  start : Text.byteSize front = excerpt.span.start
  stop : Text.byteSize (front ++ part) = excerpt.span.stop
  written : excerpt.text ≠ []
  trimmed : excerpt.text = Text.trim part
  blanks : ∃ blanks, Text.AllBlank blanks ∧ part = excerpt.text ++ blanks
  opens : (∃ c ∈ part.head?, c ∈ ['+', '-']) ∨
    Text.AllBlank front ∧ ∃ c ∈ part.head?, Text.isBlank c = false
  single : ∀ c ∈ part.tail, c ∉ ['+', '-']
  closes : Text.AllBlank back ∨ ∃ c ∈ back.head?, c ∈ ['+', '-']

namespace Excerpt.PointsAt

variable {excerpt : Excerpt} {text front part back : List Char}

theorem slice?_eq (points : excerpt.PointsAt text front part back) :
    excerpt.span.slice? text = some part :=
  Span.Holds.slice?_eq ⟨front, back, points.joined.symm, points.start, points.stop⟩

theorem start_lt_stop (points : excerpt.PointsAt text front part back) :
    excerpt.span.start < excerpt.span.stop := by
  obtain ⟨blanks, _, split⟩ := points.blanks
  have written := Text.byteSize_pos points.written
  rw [← points.start, ← points.stop, Text.byteSize_append, split, Text.byteSize_append]
  omega

theorem stop_le_byteSize (points : excerpt.PointsAt text front part back) :
    excerpt.span.stop ≤ Text.byteSize text := by
  rw [← points.stop, ← points.joined, Text.byteSize_append (front ++ part)]
  exact Nat.le_add_right _ _

end Excerpt.PointsAt

namespace Piece

variable {text : List Char} {piece : Piece} {sound rest : List Piece}

theorem head_of_sign (signed : piece.sign ≠ none) : ∃ c ∈ piece.chars.head?, c ∈ ['+', '-'] := by
  obtain ⟨sign, found⟩ := Option.ne_none_iff_exists'.mp signed
  refine ⟨sign.toChar, ?_, ?_⟩
  · rw [chars_eq, found]
    rfl
  · cases sign <;> simp [Sign.toChar]

theorem Clean.single (clean : piece.Clean) : ∀ c ∈ piece.chars.tail, c ∉ ['+', '-'] := by
  intro c member
  apply Sign.ofChar?_eq_none_iff.mp
  apply clean.body_sign
  rw [chars_eq] at member
  cases sign : piece.sign with
  | none =>
    rw [sign] at member
    exact List.mem_of_mem_tail member
  | some sign' =>
    rw [sign] at member
    exact member

/-- Only the first piece can lack a sign. -/
theorem Cut.signed_behind (cut : Cut text (sound ++ piece :: rest)) :
    (sound ≠ [] → piece.sign ≠ none) ∧ ∀ other ∈ rest, other.sign ≠ none := by
  have signed := cut.signed
  cases sound with
  | nil => exact ⟨absurd rfl, signed⟩
  | cons first sound =>
    rw [List.cons_append, List.tail_cons, List.forall_mem_append, List.forall_mem_cons] at signed
    exact ⟨fun _ => signed.2.1, signed.2.2⟩

theorem Cut.head?_eq (cut : Cut text (piece :: rest)) : piece.chars.head? = text.head? := by
  have joined := cut.joined
  rw [List.flatMap_cons] at joined
  by_cases empty : piece.chars = []
  · have unsigned : piece.sign = none := by
      cases sign : piece.sign with
      | none => rfl
      | some sign' => simp [chars_eq, sign] at empty
    rw [empty, List.nil_append] at joined
    cases rest with
    | nil => rw [empty, ← joined, List.flatMap_nil]
    | cons next rest =>
      -- The text would start with the sign of the next piece, which the first one has not taken.
      have signed := cut.signed next List.mem_cons_self
      obtain ⟨c, first, sign⟩ := head_of_sign signed
      have lead := cut.lead
      rw [← joined, List.flatMap_cons, List.head?_append, Option.mem_def.mp first, Option.some_or,
        List.head?_cons, Option.bind_some, Option.bind_some, unsigned] at lead
      exact absurd sign (Sign.ofChar?_eq_none_iff.mp lead.symm)
  · rw [← joined, List.head?_append_of_ne_nil _ empty]

/-- The excerpt of a piece points at the piece, in a text with blanks around what was cut. -/
theorem Cut.pointsAt {before behind : List Char} (cut : Cut text (sound ++ piece :: rest))
    (trimmed : Text.Trimmed text) (written : text ≠ []) (front : Text.AllBlank before)
    (back : Text.AllBlank behind) :
    (piece.excerpt (before ++ sound.flatMap chars)).PointsAt (before ++ text ++ behind)
      (before ++ sound.flatMap chars) piece.chars (rest.flatMap chars ++ behind) := by
  obtain ⟨signed, others⟩ := cut.signed_behind
  have opens : (∃ c ∈ piece.chars.head?, c ∈ ['+', '-']) ∨
      sound = [] ∧ ∃ c ∈ piece.chars.head?, Text.isBlank c = false := by
    by_cases first : sound = []
    · subst first
      obtain ⟨c, others, split⟩ := List.exists_cons_of_ne_nil written
      have head : text.head? = some c := congrArg List.head? split
      exact .inr ⟨rfl, c, cut.head?_eq.trans head, trimmed.head c head⟩
    · exact .inl (head_of_sign (signed first))
  have visible : ∃ c ∈ piece.chars.head?, Text.isBlank c = false := by
    rcases opens with ⟨c, head, sign⟩ | ⟨_, head⟩
    · refine ⟨c, head, ?_⟩
      fin_cases sign <;> rfl
    · exact head
  obtain ⟨c, head, visible⟩ := visible
  have whole : Text.trimLeft piece.chars = piece.chars :=
    Text.trimLeft_eq_self fun d first => by rwa [Option.mem_unique first head]
  obtain ⟨blanks, shown, blank⟩ := Text.exists_trim_append piece.chars
  refine
    { joined := ?_
      start := rfl
      stop := rfl
      written := ?_
      trimmed := rfl
      blanks := ⟨blanks, blank, (shown.trans whole).symm⟩
      opens := ?_
      single := (cut.clean piece (List.mem_append_right _ List.mem_cons_self)).single
      closes := ?_ }
  · rw [← cut.joined, List.flatMap_append, List.flatMap_cons]
    simp only [List.append_assoc]
  · intro empty
    have other := Text.trim_eq_nil_iff.mp empty c (List.mem_of_mem_head? head)
    rw [visible] at other
    cases other
  · refine opens.imp_right fun ⟨first, head⟩ => ⟨?_, head⟩
    rw [first, List.flatMap_nil, List.append_nil]
    exact front
  · cases rest with
    | nil => exact .inl back
    | cons next rest =>
      obtain ⟨c, first, sign⟩ := head_of_sign (others next List.mem_cons_self)
      refine .inr ⟨c, ?_, sign⟩
      rw [List.flatMap_cons, List.append_assoc, List.head?_append, Option.mem_def.mp first]
      rfl

end Piece

namespace Located

/-- The excerpt of a piece, cut out of the text that the piece was found in. There are so many bytes
in front of that text, and `missing` stands for what is no slice of it. -/
def cutOut (missing : List Char) (offset : Nat) (text : List Char) (located : Located) : Excerpt :=
  ⟨Text.trim ((located.span.slice? text).getD missing), located.span.shift offset⟩

theorem place_shift (offset start : Nat) (pieces : List Piece) :
    place (offset + start) pieces =
      (place start pieces).map fun located => ⟨located.piece, located.span.shift offset⟩ := by
  induction pieces generalizing start with
  | nil => rfl
  | cons piece others ih =>
    rw [place, place, List.map_cons, Nat.add_assoc, ih]
    rfl

theorem slice?_of_mem {text : List Char} {located : Located} (member : located ∈ ofChars 0 text) :
    located.span.slice? text = some located.piece.chars :=
  ((cut_ofChars text).holds located member).slice?_eq

theorem map_cutOut (missing : List Char) (offset : Nat) (text : List Char) :
    (ofChars 0 text).map (fun located => (located.piece, located.cutOut missing offset text)) =
      (ofChars offset text).map fun located => (located.piece, located.excerpt) := by
  have places : ofChars offset text = _ := place_shift offset 0 (Piece.ofChars text)
  rw [places, List.map_map]
  apply List.map_congr_left
  intro located member
  rw [cutOut, slice?_of_mem member]
  rfl

end Located

namespace Expression

/-- Reads an expression, and cuts what an error shows out of the text. -/
def parseBySlices (missing : List Char) (limits : Limits) (text : String) :
    Except ParseError Expression :=
  if Text.trim text.toList = [] then .error .empty else do
    let trimmed := Text.trim text.toList
    let offset := Text.byteSize (Text.leadingBlanks text.toList)
    let pieces := (Located.ofChars 0 trimmed).map fun located =>
      (located.piece, located.cutOut missing offset trimmed)
    let meanings ← pieces.mapM fun shown =>
      (Parse.readPiece limits.maxValue shown.1).mapError (.flawed shown.2)
    ofMeanings limits.maxDice text meanings

/-- Nothing that is shown depends on what stands for a missing slice. -/
theorem parseBySlices_eq (missing : List Char) (limits : Limits) (text : String) :
    parseBySlices missing limits text = parseWith limits text := by
  simp only [parseBySlices, Located.map_cutOut, List.mapM_map]
  rfl

/-- An error about a piece points at the bytes of that piece and at no others. What it shows can be
sliced out of the text, as can every other piece. -/
theorem excerpt_of_error {limits : Limits} {text : String} {error : ParseError} {excerpt : Excerpt}
    (rejected : parseWith limits text = .error error) (blamed : error.excerpt? = some excerpt) :
    (∃ front part back, excerpt.PointsAt text.toList front part back ∧
      excerpt.span.slice? text.toList = some part) ∧
    (excerpt.span.start < excerpt.span.stop ∧ excerpt.span.stop ≤ text.utf8ByteSize) ∧
    (∀ located ∈ Located.ofChars 0 (Text.trim text.toList),
      located.span.slice? (Text.trim text.toList) ≠ none) ∧
    ∀ missing, parseBySlices missing limits text = parseWith limits text := by
  have points : ∃ front part back, excerpt.PointsAt text.toList front part back := by
    cases parseWith_eq_error_iff.mp rejected with
    | flawed written cut first flawed =>
      cases blamed
      obtain ⟨behind, joined, blank⟩ := Text.exists_trim_append text.toList
      have points := cut.pointsAt (Text.trimmed_trim _)
        (fun empty => written (Text.trim_eq_nil_iff.mp empty))
        (Text.allBlank_leadingBlanks text.toList) blank
      rw [List.append_assoc, joined, Text.leadingBlanks_append_trimLeft] at points
      exact ⟨_, _, _, points⟩
    | empty => cases blamed
    | tooManyDice => cases blamed
    | noDice => cases blamed
  obtain ⟨front, part, back, points⟩ := points
  refine ⟨⟨front, part, back, points, points.slice?_eq⟩, ⟨points.start_lt_stop, ?_⟩,
    fun located member => ?_, fun missing => parseBySlices_eq missing limits text⟩
  · rw [← Text.byteSize_toList]
    exact points.stop_le_byteSize
  · rw [Located.slice?_of_mem member]
    exact Option.some_ne_none _

/-- A piece between others, behind characters of several bytes. -/
theorem excerpt_of_middle_piece : ∃ error excerpt,
    parseWith {} "\u00a02d6 - é5 + 1" = .error error ∧ error.excerpt? = some excerpt ∧
    excerpt = ⟨"- é5".toList, ⟨6, 12⟩⟩ ∧
    ∃ front part back, excerpt.PointsAt "\u00a02d6 - é5 + 1".toList front part back ∧
      excerpt.span.slice? "\u00a02d6 - é5 + 1".toList = some part := by
  have rejected : parseWith {} "\u00a02d6 - é5 + 1" =
      .error (.flawed ⟨"- é5".toList, ⟨6, 12⟩⟩ (.notNumeric .modifier)) := by rfl
  exact ⟨_, _, rejected, rfl, rfl, (excerpt_of_error rejected rfl).1⟩

end Expression

end Dice
