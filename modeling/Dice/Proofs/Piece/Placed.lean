import Dice.Proofs.Piece.Cut

namespace Dice

/-- Spans that lie end to end, from one byte to another. -/
def Span.Tiles (start : Nat) : List Span → Nat → Prop
  | [], last => start = last
  | span :: spans, last => span.start = start ∧ Tiles span.stop spans last

/-- A span that starts and ends between two characters of the text, and what stands there. -/
def Span.Holds (span : Span) (text part : List Char) : Prop :=
  ∃ front back, text = front ++ part ++ back ∧ Text.byteSize front = span.start ∧
    Text.byteSize (front ++ part) = span.stop

namespace Located

/-- The places that a text is cut into. No part of a piece holds a character that would have ended
it, and a sign can be missing only where the text starts without one. -/
structure Cut (text : List Char) (located : List Located) : Prop where
  ne_nil : located ≠ []
  tiles : Span.Tiles 0 (located.map span) (Text.byteSize text)
  holds : ∀ each ∈ located, each.span.Holds text each.piece.chars
  heads : ∀ each ∈ located, ∀ c ∈ each.piece.head, c ∉ ['+', '-', 'd', 'D']
  sides : ∀ each ∈ located, ∀ part ∈ each.piece.sides, ∀ c ∈ part.2, c ∉ ['+', '-']
  signed : ∀ each ∈ located.tail, each.piece.sign ≠ none
  lead : ∀ first ∈ located.head?,
    first.piece.sign ≠ none ↔ ∃ c ∈ text.head?, c ∈ ['+', '-']

@[simp] theorem map_piece_place (start : Nat) (pieces : List Piece) :
    (place start pieces).map piece = pieces := by
  induction pieces generalizing start with
  | nil => rfl
  | cons piece others ih => rw [place, List.map_cons, ih]

theorem tiles_place (start : Nat) (pieces : List Piece) :
    Span.Tiles start ((place start pieces).map span)
      (start + Text.byteSize (pieces.flatMap Piece.chars)) := by
  induction pieces generalizing start with
  | nil => rfl
  | cons piece others ih =>
    rw [List.flatMap_cons, Text.byteSize_append, ← Nat.add_assoc]
    exact ⟨rfl, ih _⟩

theorem holds_place (front : List Char) (pieces : List Piece) :
    ∀ each ∈ place (Text.byteSize front) pieces,
      each.span.Holds (front ++ pieces.flatMap Piece.chars) each.piece.chars := by
  induction pieces generalizing front with
  | nil => exact List.forall_mem_nil _
  | cons piece others ih =>
    rw [List.flatMap_cons, place, List.forall_mem_cons]
    constructor
    · exact ⟨front, _, (List.append_assoc ..).symm, rfl, Text.byteSize_append ..⟩
    · have rest := ih (front ++ piece.chars)
      rwa [Text.byteSize_append, List.append_assoc] at rest

/-- Places that hold their pieces end to end are the places of these pieces, and the pieces make up
what the places cover. -/
theorem eq_place_of_tiles {front text : List Char} {located : List Located}
    (tiles : Span.Tiles (Text.byteSize front) (located.map span) (Text.byteSize (front ++ text)))
    (holds : ∀ each ∈ located, each.span.Holds (front ++ text) each.piece.chars) :
    located = place (Text.byteSize front) (located.map piece) ∧
      text = (located.map piece).flatMap Piece.chars := by
  induction located generalizing front text with
  | nil =>
    have size : Text.byteSize front = Text.byteSize (front ++ text) := tiles
    rw [Text.byteSize_append] at size
    cases text with
    | nil => exact ⟨rfl, rfl⟩
    | cons c rest =>
      have more := Text.byteSize_pos (List.cons_ne_nil c rest)
      omega
  | cons each others ih =>
    obtain ⟨⟨before, back, split, start, stop⟩, rest⟩ := List.forall_mem_cons.mp holds
    obtain ⟨first, tiles⟩ := tiles
    rw [List.append_assoc] at split
    obtain ⟨rfl, rfl⟩ := Text.append_inj_of_byteSize split (first.symm.trans start.symm)
    rw [← stop, ← List.append_assoc] at tiles
    rw [← List.append_assoc] at rest
    obtain ⟨places, joined⟩ := ih tiles rest
    rw [List.map_cons, place, ← Text.byteSize_append, ← places, List.flatMap_cons, ← joined]
    refine ⟨?_, rfl⟩
    rw [stop, start]

theorem clean_iff {piece : Piece} : piece.Clean ↔
    (∀ c ∈ piece.head, c ∉ ['+', '-', 'd', 'D']) ∧
      ∀ part ∈ piece.sides, ∀ c ∈ part.2, c ∉ ['+', '-'] := by
  constructor
  · intro clean
    constructor
    · intro c member
      have sign := Sign.ofChar?_eq_none_iff.mp (clean.head_sign c member)
      have marker := Marker.ofChar?_eq_none_iff.mp (clean.head_marker c member)
      simp_all
    · intro part found c member
      exact Sign.ofChar?_eq_none_iff.mp (clean.sides_sign part found c member)
  · intro free
    obtain ⟨heads, sides⟩ := free
    refine ⟨fun c member => Sign.ofChar?_eq_none_iff.mpr ?_,
      fun c member => Marker.ofChar?_eq_none_iff.mpr ?_,
      fun part found c member => Sign.ofChar?_eq_none_iff.mpr (sides part found c member)⟩ <;>
    · have free := heads c member
      simp_all

theorem starts_with_sign_iff {text : List Char} :
    text.head?.bind Sign.ofChar? ≠ none ↔ ∃ c ∈ text.head?, c ∈ ['+', '-'] := by
  cases text with
  | nil => simp
  | cons c rest =>
    rw [List.head?_cons, Option.bind_some, Ne, Sign.ofChar?_eq_none_iff, Decidable.not_not]
    exact ⟨fun member => ⟨c, rfl, member⟩, fun ⟨_, same, member⟩ => Option.some.inj same ▸ member⟩

theorem cut_ofChars (text : List Char) : Cut text (ofChars 0 text) := by
  have cut := Piece.cut_ofChars text
  have pieces : (ofChars 0 text).map piece = Piece.ofChars text := map_piece_place 0 _
  have clean : ∀ each ∈ ofChars 0 text, each.piece.Clean := fun each member =>
    cut.clean each.piece (pieces ▸ List.mem_map_of_mem member)
  refine ⟨?_, ?_, ?_, fun each member => (clean_iff.mp (clean each member)).1,
    fun each member => (clean_iff.mp (clean each member)).2, ?_, ?_⟩
  · intro empty
    rw [empty] at pieces
    exact cut.ne_nil pieces.symm
  · have tiles := tiles_place 0 (Piece.ofChars text)
    rwa [cut.joined, Nat.zero_add] at tiles
  · have holds := holds_place [] (Piece.ofChars text)
    rwa [cut.joined] at holds
  · intro each member
    apply cut.signed each.piece
    rw [← pieces, ← List.map_tail]
    exact List.mem_map_of_mem member
  · intro first found
    have lead := cut.lead
    rw [← pieces, List.head?_map, Option.mem_def.mp found] at lead
    rw [← starts_with_sign_iff, ← lead]
    rfl

theorem Cut.pieces {text : List Char} {located : List Located} (cut : Cut text located)
    (joined : text = (located.map piece).flatMap Piece.chars) :
    Piece.Cut text (located.map piece) where
  joined := joined.symm
  ne_nil := fun empty => cut.ne_nil (List.map_eq_nil_iff.mp empty)
  clean := by
    intro each member
    obtain ⟨each, present, rfl⟩ := List.mem_map.mp member
    exact clean_iff.mpr ⟨cut.heads each present, cut.sides each present⟩
  signed := by
    intro each member
    rw [← List.map_tail] at member
    obtain ⟨each, present, rfl⟩ := List.mem_map.mp member
    exact cut.signed each present
  lead := by
    obtain ⟨first, others, rfl⟩ := List.exists_cons_of_ne_nil cut.ne_nil
    have lead := cut.lead first rfl
    cases start : first.piece.sign with
    | some sign =>
      rw [joined, List.map_cons, List.flatMap_cons, Piece.chars_eq, start]
      simp [start]
    | none =>
      rw [start, ← starts_with_sign_iff] at lead
      have unsigned : text.head?.bind Sign.ofChar? = none := by simpa using lead
      rw [unsigned]
      exact start

/-- No other pieces at no other places have these properties. -/
theorem cut_iff {text : List Char} {located : List Located} :
    Cut text located ↔ located = ofChars 0 text := by
  constructor
  · intro cut
    obtain ⟨places, joined⟩ := @eq_place_of_tiles [] text located cut.tiles cut.holds
    rw [places, (cut.pieces joined).eq_ofChars]
    rfl
  · rintro rfl
    exact cut_ofChars text

end Located

end Dice
