import Dice.Sign
import Dice.Span

/-!
Pieces: the cut of a text into signed parts, before any digit is looked at.

A text is cut in front of every sign, and each part once more at its first die marker. Every text
can be cut, nothing of it is lost, and the cut is at no other place.
-/

namespace Dice

/-- The letter between the count and the sides of a term, in either case. -/
inductive Marker where
  | lower
  | upper
deriving DecidableEq, Repr

namespace Marker

def ofChar? (c : Char) : Option Marker :=
  if c = 'd' then some lower else if c = 'D' then some upper else none

def toChar : Marker → Char
  | lower => 'd'
  | upper => 'D'

@[simp] theorem ofChar?_toChar (marker : Marker) : ofChar? marker.toChar = some marker := by
  cases marker <;> rfl

theorem ofChar?_eq_some_iff {c : Char} {marker : Marker} :
    ofChar? c = some marker ↔ c = marker.toChar := by
  constructor
  · intro found
    unfold ofChar? at found
    split at found
    · cases found; assumption
    · split at found
      · cases found; assumption
      · cases found
  · rintro rfl
    exact ofChar?_toChar marker

theorem ofChar?_eq_none_iff {c : Char} : ofChar? c = none ↔ c ∉ ['d', 'D'] := by
  unfold ofChar?
  split
  · simp_all
  · split <;> simp_all

end Marker

/-- A part of a text: the sign it starts with, the characters up to its first marker, and the
marker with all that follows it. -/
structure Piece where
  sign : Option Sign
  head : List Char
  sides : Option (Marker × List Char)
deriving DecidableEq, Repr

namespace Piece

def chars (piece : Piece) : List Char :=
  (piece.sign.map Sign.toChar).toList ++ piece.head ++
    match piece.sides with
    | none => []
    | some (marker, sides) => marker.toChar :: sides

/-- Cuts a text at its first marker. -/
def cutAtMarker : List Char → List Char × Option (Marker × List Char)
  | [] => ([], none)
  | c :: rest =>
    match Marker.ofChar? c with
    | some marker => ([], some (marker, rest))
    | none =>
      let cut := cutAtMarker rest
      (c :: cut.1, cut.2)

/-- The piece with this sign and this text behind it. -/
def ofBody (sign : Option Sign) (body : List Char) : Piece :=
  let cut := cutAtMarker body
  ⟨sign, cut.1, cut.2⟩

/-- Cuts a text in front of every sign: what stands before the first sign, and then each sign with
the text up to the next one. -/
def signedRuns : List Char → List Char × List (Sign × List Char)
  | [] => ([], [])
  | c :: rest =>
    let cut := signedRuns rest
    match Sign.ofChar? c with
    | some sign => ([], (sign, cut.1) :: cut.2)
    | none => (c :: cut.1, cut.2)

/-- The pieces of a text. Only the first one can lack a sign, and it does unless the text starts
with one. -/
def ofChars (text : List Char) : List Piece :=
  match signedRuns text with
  | ([], first :: others) => (first :: others).map fun run => ofBody (some run.1) run.2
  | (lead, runs) => ofBody none lead :: runs.map fun run => ofBody (some run.1) run.2

end Piece

structure Located where
  piece : Piece
  span : Span
deriving DecidableEq, Repr

namespace Located

/-- Places pieces one behind the other, from the given byte on. -/
def place (start : Nat) : List Piece → List Located
  | [] => []
  | piece :: others =>
    let stop := start + Text.byteSize piece.chars
    ⟨piece, ⟨start, stop⟩⟩ :: place stop others

def ofChars (start : Nat) (text : List Char) : List Located :=
  place start (Piece.ofChars text)

end Located

namespace Piece

private theorem cutAtMarker_join (body : List Char) :
    (cutAtMarker body).1 ++ (match (cutAtMarker body).2 with
      | none => []
      | some (marker, sides) => marker.toChar :: sides) = body := by
  induction body with
  | nil => rfl
  | cons c rest ih =>
    cases found : Marker.ofChar? c with
    | some marker => simp [cutAtMarker, Marker.ofChar?_eq_some_iff.mp found]
    | none => simpa [cutAtMarker, found] using ih

@[simp] theorem chars_ofBody (sign : Option Sign) (body : List Char) :
    (ofBody sign body).chars = (sign.map Sign.toChar).toList ++ body := by
  simp only [chars, ofBody, List.append_assoc]
  exact congrArg _ (cutAtMarker_join body)

private theorem signedRuns_join (text : List Char) :
    (signedRuns text).1 ++ (signedRuns text).2.flatMap (fun run => run.1.toChar :: run.2) =
      text := by
  induction text with
  | nil => rfl
  | cons c rest ih =>
    cases found : Sign.ofChar? c with
    | some sign => simp [signedRuns, Sign.ofChar?_eq_some_iff.mp found, ih]
    | none => simpa [signedRuns, found] using ih

theorem flatMap_chars_ofChars (text : List Char) : (ofChars text).flatMap chars = text := by
  have joined := signedRuns_join text
  unfold ofChars
  split
  · rename_i first others cut
    rw [cut] at joined
    simpa [List.flatMap_map] using joined
  · rename_i lead runs other cut
    rw [cut] at joined
    simpa [List.flatMap_map] using joined

end Piece

end Dice
