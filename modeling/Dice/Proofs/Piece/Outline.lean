import Dice.Proofs.Parse.Reading

/-!
The outline of a text: its pieces without the blanks that do not matter, and with markers in one
case.

Blanks do not matter at the ends of a text, and around what a piece holds in front of its marker and
behind it. The outline tells how a text is read, apart from where its pieces stand.
-/

namespace Dice

namespace Piece

/-- The piece without the blanks that do not matter, and with a small marker. -/
def bare (piece : Piece) : Piece :=
  ⟨piece.sign, Text.trim piece.head, piece.sides.map fun part => (.lower, Text.trim part.2)⟩

section

variable {max : UInt16} {piece : Piece} {blanks body : List Char}

theorem readPiece_bare (max : UInt16) (piece : Piece) :
    Parse.readPiece max piece.bare = Parse.readPiece max piece := by
  have twice (text : List Char) : Text.trim (Text.trim text) = Text.trim text :=
    (Text.trimmed_trim text).trim_eq
  obtain ⟨sign, head, _ | ⟨marker, rest⟩⟩ := piece
  · simp only [Parse.readPiece, bare, twice, Option.map_none]
  · simp only [Parse.readPiece, bare, twice, Option.map_some]

theorem means_bare_iff {meaning : Meaning} :
    piece.bare.Means max meaning ↔ piece.Means max meaning := by
  rw [← readPiece_eq_ok_iff, readPiece_bare, readPiece_eq_ok_iff]

theorem flawed_bare_iff {flaw : Flaw} : piece.bare.Flawed max flaw ↔ piece.Flawed max flaw := by
  rw [← readPiece_eq_error_iff, readPiece_bare, readPiece_eq_error_iff]

theorem allBlank_of_bare_eq_empty (empty : piece.bare = ⟨none, [], none⟩) :
    Text.AllBlank piece.chars := by
  obtain ⟨sign, head, sides⟩ := piece
  simp only [bare, Piece.mk.injEq, Option.map_eq_none_iff] at empty
  obtain ⟨rfl, trimmed, rfl⟩ := empty
  simpa [chars] using Text.trim_eq_nil_iff.mp trimmed

/-- The first marker divides a body. -/
theorem ofBody_of_marker (sign : Option Sign) {head : List Char} (inert : ∀ c ∈ head, Inert c)
    (marker : Marker) (rest : List Char) :
    ofBody sign (head ++ marker.toChar :: rest) = ⟨sign, head, some (marker, rest)⟩ := by
  have cut := cutAtMarker_append (fun c member => (inert c member).2) (marker.toChar :: rest)
  simp only [cutAtMarker, Marker.ofChar?_toChar, List.append_nil] at cut
  simp only [ofBody, cut]

private theorem unmarked_of_allBlank (blank : Text.AllBlank blanks) :
    ∀ c ∈ blanks, Marker.ofChar? c = none :=
  fun c member => (inert_of_allBlank blank c member).2

theorem bare_ofBody_prepend (blank : Text.AllBlank blanks) (sign : Option Sign)
    (body : List Char) : (ofBody sign (blanks ++ body)).bare = (ofBody sign body).bare := by
  have cut := cutAtMarker_append (unmarked_of_allBlank blank) body
  simp only [ofBody, bare, cut, Text.trim_append_left blank]

private theorem cutAtMarker_append_unmarked (unmarked : ∀ c ∈ blanks, Marker.ofChar? c = none)
    (body : List Char) : cutAtMarker (body ++ blanks) =
      match (cutAtMarker body).2 with
      | none => ((cutAtMarker body).1 ++ blanks, none)
      | some (marker, rest) => ((cutAtMarker body).1, some (marker, rest ++ blanks)) := by
  induction body with
  | nil => simpa [cutAtMarker] using cutAtMarker_append unmarked []
  | cons c body ih =>
    cases found : Marker.ofChar? c with
    | some marker => simp only [List.cons_append, cutAtMarker, found]
    | none =>
      simp only [List.cons_append, cutAtMarker, found, ih]
      split <;> rfl

theorem bare_ofBody_append (blank : Text.AllBlank blanks) (sign : Option Sign)
    (body : List Char) : (ofBody sign (body ++ blanks)).bare = (ofBody sign body).bare := by
  have cut := cutAtMarker_append_unmarked (unmarked_of_allBlank blank) body
  cases sides : (cutAtMarker body).2 with
  | none =>
    simp only [sides] at cut
    simp only [ofBody, bare, cut, sides, Text.trim_append_right blank]
  | some part =>
    simp only [sides] at cut
    simp only [ofBody, bare, cut, sides, Option.map_some, Text.trim_append_right blank]

end

/-- The piece of a sign and what follows it up to the next one, without what does not matter. -/
def bareRun (run : Sign × List Char) : Piece :=
  (ofBody (some run.1) run.2).bare

/-- The pieces of a text without what does not matter. Blanks in front of the first sign make no
piece of their own. -/
def outline (text : List Char) : List Piece :=
  let cut := signedRuns text
  let lead := (ofBody none cut.1).bare
  let runs := cut.2.map bareRun
  if lead = ⟨none, [], none⟩ ∧ runs ≠ [] then runs else lead :: runs

section

variable {first second text blanks : List Char}

theorem outline_congr
    (lead : (ofBody none (signedRuns second).1).bare = (ofBody none (signedRuns first).1).bare)
    (runs : (signedRuns second).2.map bareRun = (signedRuns first).2.map bareRun) :
    outline second = outline first := by
  simp only [outline, lead, runs]

/-- The second text is cut at the same signs into the same runs, apart from what does not matter,
and at most has blanks more in front of the first sign. -/
structure Spaced (first second : List Char) : Prop where
  lead : ∃ blanks, Text.AllBlank blanks ∧ (signedRuns second).1 = (signedRuns first).1 ++ blanks
  runs : (signedRuns second).2.map bareRun = (signedRuns first).2.map bareRun

theorem Spaced.outline_eq (spaced : Spaced first second) : outline second = outline first := by
  obtain ⟨⟨blanks, blank, lead⟩, runs⟩ := spaced
  refine outline_congr ?_ runs
  rw [lead, bare_ofBody_append blank]

theorem Spaced.cons (spaced : Spaced first second) (c : Char) :
    Spaced (c :: first) (c :: second) := by
  obtain ⟨⟨blanks, blank, lead⟩, runs⟩ := spaced
  cases found : Sign.ofChar? c with
  | some sign =>
    refine ⟨⟨[], Text.allBlank_nil, by simp only [signedRuns, found, List.append_nil]⟩, ?_⟩
    simp only [signedRuns, found, lead, List.map_cons, runs, bareRun, bare_ofBody_append blank]
  | none =>
    refine ⟨⟨blanks, blank, by simp only [signedRuns, found, lead, List.cons_append]⟩, ?_⟩
    simp only [signedRuns, found, runs]

theorem Spaced.append (spaced : Spaced first second) (front : List Char) :
    Spaced (front ++ first) (front ++ second) := by
  induction front with
  | nil => exact spaced
  | cons c front ih => exact ih.cons c

theorem spaced_sign (sign : Sign)
    (lead : ∀ sign, (ofBody sign (signedRuns second).1).bare =
      (ofBody sign (signedRuns first).1).bare)
    (runs : (signedRuns second).2.map bareRun = (signedRuns first).2.map bareRun) :
    Spaced (sign.toChar :: first) (sign.toChar :: second) where
  lead := ⟨[], Text.allBlank_nil, by simp only [signedRuns_sign, List.append_nil]⟩
  runs := by simp only [signedRuns_sign, List.map_cons, bareRun, lead, runs]

theorem signedRuns_blank (blank : Text.AllBlank blanks) (text : List Char) :
    signedRuns (blanks ++ text) = (blanks ++ (signedRuns text).1, (signedRuns text).2) :=
  signedRuns_append (fun c member => (inert_of_allBlank blank c member).1) text

theorem outline_prepend (blank : Text.AllBlank blanks) (text : List Char) :
    outline (blanks ++ text) = outline text := by
  have cut := signedRuns_blank blank text
  refine outline_congr ?_ ?_
  · rw [cut, bare_ofBody_prepend blank]
  · rw [cut]

theorem outline_append (blank : Text.AllBlank blanks) (text : List Char) :
    outline (text ++ blanks) = outline text := by
  have cut := signedRuns_blank blank []
  rw [List.append_nil] at cut
  have spaced : Spaced [] blanks := by
    refine ⟨⟨blanks, blank, ?_⟩, ?_⟩
    · rw [cut]
      exact List.append_nil blanks
    · rw [cut]
  have whole := (spaced.append text).outline_eq
  rwa [List.append_nil] at whole

private theorem outline_of_trimmed (trimmed : Text.Trimmed text) :
    outline text = (ofChars text).map bare := by
  cases text with
  | nil => rfl
  | cons c rest =>
    cases found : Sign.ofChar? c with
    | some sign =>
      have empty : (ofBody none []).bare = ⟨none, [], none⟩ := rfl
      simp [outline, ofChars, signedRuns, found, empty, bareRun, Function.comp_def]
    | none =>
      have visible : (ofBody none (c :: (signedRuns rest).1)).bare ≠ ⟨none, [], none⟩ := by
        intro empty
        have blank := allBlank_of_bare_eq_empty empty
        rw [chars_ofBody] at blank
        have first := blank c List.mem_cons_self
        rw [trimmed.head c rfl] at first
        cases first
      simp [outline, ofChars, signedRuns, found, visible, bareRun, Function.comp_def]

/-- The outline is that of the pieces that the text is cut into within the blanks around it. -/
theorem outline_eq_map (text : List Char) :
    outline text = (ofChars (Text.trim text)).map bare := by
  obtain ⟨front, back, whole, left, right⟩ := Text.exists_surrounded_trim text
  rw [← outline_of_trimmed (Text.trimmed_trim text)]
  conv_lhs => rw [← whole]
  rw [outline_append right, outline_prepend left]

theorem outline_eq_empty_iff : outline text = [⟨none, [], none⟩] ↔ Text.AllBlank text := by
  constructor
  · intro empty
    rw [outline_eq_map] at empty
    obtain ⟨piece, single, bare⟩ := List.map_eq_singleton_iff.mp empty
    have joined := flatMap_chars_ofChars (Text.trim text)
    rw [single, List.flatMap_singleton] at joined
    have blank := allBlank_of_bare_eq_empty bare
    rw [joined, ← Text.trim_eq_nil_iff, (Text.trimmed_trim text).trim_eq] at blank
    exact Text.trim_eq_nil_iff.mp blank
  · intro blank
    rw [outline_eq_map, Text.trim_eq_nil_iff.mpr blank]
    rfl

end

end Piece

namespace Expression

variable {limits : Limits} {text : String}

theorem parseWith_of_means_outline {meanings : List Meaning}
    (means : List.Forall₂ (Piece.Means limits.maxValue) (Piece.outline text.toList) meanings) :
    parseWith limits text = ofMeanings limits.maxDice text meanings := by
  rw [Piece.outline_eq_map, List.forall₂_map_left_iff] at means
  exact parseWith_of_means (means.imp fun _ _ => Piece.means_bare_iff.mp)

theorem parseWith_of_flawed_outline {sound rest : List Piece} {piece : Piece} {flaw : Flaw}
    (written : ¬ Text.AllBlank text.toList)
    (split : Piece.outline text.toList = sound ++ piece :: rest)
    (means : ∀ earlier ∈ sound, ∃ meaning, earlier.Means limits.maxValue meaning)
    (flawed : piece.Flawed limits.maxValue flaw) :
    ∃ excerpt, parseWith limits text = .error (.flawed excerpt flaw) := by
  rw [Piece.outline_eq_map] at split
  obtain ⟨before, behind, cut, rfl, others⟩ := List.map_eq_append_iff.mp split
  obtain ⟨bad, last, rfl, rfl, _⟩ := List.map_eq_cons_iff.mp others
  have earlierMeans : ∀ earlier ∈ before, ∃ meaning, earlier.Means limits.maxValue meaning := by
    intro earlier member
    obtain ⟨meaning, bareMeans⟩ := means earlier.bare (List.mem_map_of_mem member)
    exact ⟨meaning, Piece.means_bare_iff.mp bareMeans⟩
  exact ⟨_, parseWith_of_flawed written cut earlierMeans (Piece.flawed_bare_iff.mp flawed)⟩

end Expression

end Dice
