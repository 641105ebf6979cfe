import Dice.Piece
import Dice.Proofs.Text.Trim

namespace Dice

theorem Sign.isBlank_toChar (sign : Sign) : Text.isBlank sign.toChar = false := by
  cases sign <;> rfl

theorem Marker.isBlank_toChar (marker : Marker) : Text.isBlank marker.toChar = false := by
  cases marker <;> rfl

namespace Piece

/-- No sign or marker stands in the head, and no sign behind the marker. -/
structure Clean (piece : Piece) : Prop where
  head_sign : ∀ c ∈ piece.head, Sign.ofChar? c = none
  head_marker : ∀ c ∈ piece.head, Marker.ofChar? c = none
  sides_sign : ∀ part ∈ piece.sides, ∀ c ∈ part.2, Sign.ofChar? c = none

/-- The pieces that a text is cut into. Every piece but the first has a sign, and the first has the
one that the text starts with, if any. -/
structure Cut (text : List Char) (pieces : List Piece) : Prop where
  joined : pieces.flatMap chars = text
  ne_nil : pieces ≠ []
  clean : ∀ piece ∈ pieces, piece.Clean
  signed : ∀ piece ∈ pieces.tail, piece.sign ≠ none
  lead : pieces.head?.bind sign = text.head?.bind Sign.ofChar?

/-- The characters of a piece without its sign. -/
def body (piece : Piece) : List Char :=
  piece.head ++ match piece.sides with
    | none => []
    | some (marker, sides) => marker.toChar :: sides

theorem chars_eq (piece : Piece) :
    piece.chars = (piece.sign.map Sign.toChar).toList ++ piece.body :=
  List.append_assoc ..

/-- The characters that are no place to cut. -/
def Inert (c : Char) : Prop :=
  Sign.ofChar? c = none ∧ Marker.ofChar? c = none

theorem inert_of_isDigit {c : Char} (digit : c.isDigit = true) : Inert c := by
  constructor
  · cases found : Sign.ofChar? c with
    | none => rfl
    | some sign =>
      rw [Sign.ofChar?_eq_some_iff.mp found] at digit
      cases sign <;> cases digit
  · cases found : Marker.ofChar? c with
    | none => rfl
    | some marker =>
      rw [Marker.ofChar?_eq_some_iff.mp found] at digit
      cases marker <;> cases digit

theorem inert_of_isBlank {c : Char} (blank : Text.isBlank c = true) : Inert c := by
  constructor
  · cases found : Sign.ofChar? c with
    | none => rfl
    | some sign =>
      rw [Sign.ofChar?_eq_some_iff.mp found, sign.isBlank_toChar] at blank
      cases blank
  · cases found : Marker.ofChar? c with
    | none => rfl
    | some marker =>
      rw [Marker.ofChar?_eq_some_iff.mp found, marker.isBlank_toChar] at blank
      cases blank

theorem inert_of_allBlank {text : List Char} (blank : Text.AllBlank text) :
    ∀ c ∈ text, Inert c :=
  fun c member => inert_of_isBlank (blank c member)

theorem clean_marked {sign : Option Sign} {head rest : List Char} {marker : Marker}
    (front : ∀ c ∈ head, Inert c) (back : ∀ c ∈ rest, Inert c) :
    Clean ⟨sign, head, some (marker, rest)⟩ where
  head_sign c member := (front c member).1
  head_marker c member := (front c member).2
  sides_sign part found c member := by
    cases found
    exact (back c member).1

theorem clean_unmarked {sign : Option Sign} {head : List Char} (front : ∀ c ∈ head, Inert c) :
    Clean ⟨sign, head, none⟩ where
  head_sign c member := (front c member).1
  head_marker c member := (front c member).2
  sides_sign := nofun

@[simp] theorem ofChar?_marker (marker : Marker) : Sign.ofChar? marker.toChar = none := by
  cases marker <;> rfl

theorem cutAtMarker_append {head : List Char} (unmarked : ∀ c ∈ head, Marker.ofChar? c = none)
    (rest : List Char) :
    cutAtMarker (head ++ rest) = (head ++ (cutAtMarker rest).1, (cutAtMarker rest).2) := by
  induction head with
  | nil => rfl
  | cons c head ih =>
    have first := unmarked c List.mem_cons_self
    have others := ih fun d member => unmarked d (.tail c member)
    simp only [List.cons_append, cutAtMarker, first, others]

theorem signedRuns_append {lead : List Char} (unsigned : ∀ c ∈ lead, Sign.ofChar? c = none)
    (rest : List Char) :
    signedRuns (lead ++ rest) = (lead ++ (signedRuns rest).1, (signedRuns rest).2) := by
  induction lead with
  | nil => rfl
  | cons c lead ih =>
    have first := unsigned c List.mem_cons_self
    have others := ih fun d member => unsigned d (.tail c member)
    simp only [List.cons_append, signedRuns, first, others]

theorem signedRuns_sign (sign : Sign) (rest : List Char) :
    signedRuns (sign.toChar :: rest) =
      ([], (sign, (signedRuns rest).1) :: (signedRuns rest).2) := by
  simp only [signedRuns, Sign.ofChar?_toChar]

theorem Clean.body_sign {piece : Piece} (clean : piece.Clean) :
    ∀ c ∈ piece.body, Sign.ofChar? c = none := by
  intro c member
  rcases List.mem_append.mp member with inHead | inSides
  · exact clean.head_sign c inHead
  · cases cut : piece.sides with
    | none => simp [cut] at inSides
    | some part =>
      rw [cut] at inSides
      rcases List.mem_cons.mp inSides with rfl | behind
      · exact ofChar?_marker part.1
      · exact clean.sides_sign part cut c behind

theorem Clean.ofBody_body {piece : Piece} (clean : piece.Clean) :
    ofBody piece.sign piece.body = piece := by
  obtain ⟨sign, head, sides⟩ := piece
  have unmarked : ∀ c ∈ head, Marker.ofChar? c = none := clean.head_marker
  cases sides with
  | none =>
    have whole : cutAtMarker head = (head, none) := by
      simpa [cutAtMarker] using cutAtMarker_append unmarked []
    simp only [ofBody, body, List.append_nil, whole]
  | some part =>
    simp only [ofBody, body, cutAtMarker_append unmarked, cutAtMarker, Marker.ofChar?_toChar,
      List.append_nil]

private theorem cutAtMarker_unmarked (text : List Char) :
    ∀ c ∈ (cutAtMarker text).1, Marker.ofChar? c = none := by
  induction text with
  | nil => exact List.forall_mem_nil _
  | cons c rest ih =>
    cases found : Marker.ofChar? c with
    | some marker => simp [cutAtMarker, found]
    | none => simpa [cutAtMarker, found] using ih

theorem clean_ofBody {text : List Char} (unsigned : ∀ c ∈ text, Sign.ofChar? c = none)
    (sign : Option Sign) : (ofBody sign text).Clean := by
  have joined : (ofBody none text).chars = text := by simp
  have inside : ∀ c ∈ (ofBody sign text).body, Sign.ofChar? c = none := by
    intro c member
    apply unsigned c
    rw [← joined, chars_eq]
    exact List.mem_append_right _ member
  refine ⟨fun c member => ?_, cutAtMarker_unmarked text, fun part cut c member => ?_⟩
  · exact inside c (List.mem_append_left _ member)
  · apply inside c
    rw [body, Option.mem_def.mp cut]
    exact List.mem_append_right _ (.tail _ member)

private theorem signedRuns_unsigned (text : List Char) :
    (∀ c ∈ (signedRuns text).1, Sign.ofChar? c = none) ∧
      ∀ run ∈ (signedRuns text).2, ∀ c ∈ run.2, Sign.ofChar? c = none := by
  induction text with
  | nil => simp [signedRuns]
  | cons c rest ih =>
    cases found : Sign.ofChar? c with
    | some sign => simpa [signedRuns, found] using ih
    | none => simpa [signedRuns, found] using ih

private theorem clean_ofChars (text : List Char) : ∀ piece ∈ ofChars text, piece.Clean := by
  obtain ⟨leadUnsigned, runsUnsigned⟩ := signedRuns_unsigned text
  have runClean : ∀ run ∈ (signedRuns text).2, (ofBody (some run.1) run.2).Clean :=
    fun run member => clean_ofBody (runsUnsigned run member) _
  intro piece member
  unfold ofChars at member
  split at member
  · rename_i first others cut
    rw [cut] at runClean
    obtain ⟨run, inRuns, rfl⟩ := List.mem_map.mp member
    exact runClean run inRuns
  · rename_i lead runs other cut
    rw [cut] at runClean leadUnsigned
    rcases List.mem_cons.mp member with rfl | behind
    · exact clean_ofBody leadUnsigned none
    · obtain ⟨run, inRuns, rfl⟩ := List.mem_map.mp behind
      exact runClean run inRuns

private theorem signed_tail_ofChars (text : List Char) :
    ∀ piece ∈ (ofChars text).tail, piece.sign ≠ none := by
  intro piece member
  unfold ofChars at member
  split at member
  · rename_i first others cut
    obtain ⟨run, _, rfl⟩ := List.mem_map.mp (List.mem_of_mem_tail member)
    exact Option.some_ne_none _
  · obtain ⟨run, _, rfl⟩ := List.mem_map.mp member
    exact Option.some_ne_none _

private theorem lead_ofChars (text : List Char) :
    (ofChars text).head?.bind sign = text.head?.bind Sign.ofChar? := by
  cases text with
  | nil => rfl
  | cons c rest =>
    cases found : Sign.ofChar? c with
    | some sign => simp [ofChars, signedRuns, found, ofBody]
    | none => simp [ofChars, signedRuns, found, ofBody]

theorem cut_ofChars (text : List Char) : Cut text (ofChars text) where
  joined := flatMap_chars_ofChars text
  ne_nil := by
    unfold ofChars
    split <;> simp
  clean := clean_ofChars text
  signed := signed_tail_ofChars text
  lead := lead_ofChars text

private theorem signedRuns_pieces {pieces : List Piece} (clean : ∀ piece ∈ pieces, piece.Clean)
    (signed : ∀ piece ∈ pieces, piece.sign ≠ none) :
    ∃ runs, signedRuns (pieces.flatMap chars) = ([], runs) ∧
      (runs.map fun run => ofBody (some run.1) run.2) = pieces := by
  induction pieces with
  | nil => exact ⟨[], rfl, rfl⟩
  | cons piece others ih =>
    obtain ⟨runs, found, same⟩ := ih (fun other member => clean other (.tail _ member))
      (fun other member => signed other (.tail _ member))
    have pieceClean := clean piece List.mem_cons_self
    obtain ⟨sign, marked⟩ := Option.ne_none_iff_exists'.mp (signed piece List.mem_cons_self)
    have start : piece.chars = sign.toChar :: piece.body := by
      rw [chars_eq, marked]
      rfl
    refine ⟨(sign, piece.body) :: runs, ?_, ?_⟩
    · rw [List.flatMap_cons, start, List.cons_append, signedRuns_sign,
        signedRuns_append pieceClean.body_sign, found, List.append_nil]
    · rw [List.map_cons, same, ← marked, pieceClean.ofBody_body]

/-- There is no other cut than the one that is made. -/
theorem Cut.eq_ofChars {text : List Char} {pieces : List Piece} (cut : Cut text pieces) :
    pieces = ofChars text := by
  obtain ⟨first, others, rfl⟩ := List.exists_cons_of_ne_nil cut.ne_nil
  have firstClean := cut.clean first List.mem_cons_self
  cases start : first.sign with
  | some sign =>
    have signed : ∀ piece ∈ first :: others, piece.sign ≠ none := by
      intro piece member
      rcases List.mem_cons.mp member with rfl | behind
      · simp [start]
      · exact cut.signed piece behind
    obtain ⟨runs, found, same⟩ := signedRuns_pieces cut.clean signed
    rw [cut.joined] at found
    cases runs with
    | nil => cases same
    | cons run runs =>
      rw [ofChars, found]
      exact same.symm
  | none =>
    obtain ⟨runs, found, same⟩ := signedRuns_pieces
      (fun piece member => cut.clean piece (.tail _ member)) cut.signed
    have whole : signedRuns text = (first.body, runs) := by
      rw [← cut.joined, List.flatMap_cons, chars_eq, start]
      change signedRuns (first.body ++ others.flatMap chars) = _
      rw [signedRuns_append firstClean.body_sign, found, List.append_nil]
    have firstSame : ofBody none first.body = first := start ▸ firstClean.ofBody_body
    -- A text that starts with a sign would have given it to the first piece.
    have unled : ∀ run more, (first.body, runs) ≠ ([], run :: more) := by
      intro run more same'
      have lead := lead_ofChars text
      rw [← cut.lead, ofChars, whole, same'] at lead
      simp [ofBody, start] at lead
    unfold ofChars
    split
    · rename_i run more found'
      exact absurd (whole.symm.trans found') (unled run more)
    · rename_i lead runs' other found'
      have both := whole.symm.trans found'
      obtain ⟨rfl, rfl⟩ := Prod.mk.inj both
      rw [firstSame, same]

/-- Clean pieces are the cut of the text that they make up, if all but the first have signs and the
first is not empty. -/
theorem cut_of_clean {first : Piece} {others : List Piece} (clean : first.Clean)
    (cleanOthers : ∀ piece ∈ others, piece.Clean) (signed : ∀ piece ∈ others, piece.sign ≠ none)
    (written : first.body ≠ []) : Cut ((first :: others).flatMap chars) (first :: others) where
  joined := rfl
  ne_nil := List.cons_ne_nil _ _
  clean := List.forall_mem_cons.mpr ⟨clean, cleanOthers⟩
  signed := signed
  lead := by
    rw [List.flatMap_cons, chars_eq]
    cases start : first.sign with
    | some sign => simp [start]
    | none =>
      obtain ⟨c, rest, split⟩ := List.exists_cons_of_ne_nil written
      have unsigned := clean.body_sign c (split ▸ List.mem_cons_self)
      simp [start, split, unsigned]

end Piece

end Dice
