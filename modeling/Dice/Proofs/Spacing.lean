import Dice.Proofs.Piece.Outline

/-!
What the notation does not tell apart: blanks at the ends of a text, around its signs and around the
first marker of each piece, and the case of these markers.

A single edit of this kind leaves the outline of a text as it is, and so do any number of them, done
or undone. Texts with one outline are read alike.
-/

namespace Dice

namespace Text

/-- What stands in front of the first marker of a piece: neither signs nor markers, back to a sign
or to the start of the text. -/
def LeadsToMarker (front : List Char) : Prop :=
  ∃ before head, front = before ++ head ∧
    (before = [] ∨ ∃ earlier, ∃ sign : Sign, before = earlier ++ [sign.toChar]) ∧
    ∀ c ∈ head, Piece.Inert c

/-- A blank is put where the notation ignores it, or a marker changes its case. -/
inductive Edit : List Char → List Char → Prop where
  | start {blank : Char} {text : List Char} (space : isBlank blank = true) :
      Edit text (blank :: text)
  | stop {blank : Char} {text : List Char} (space : isBlank blank = true) :
      Edit text (text ++ [blank])
  | beforeSign {blank : Char} {front back : List Char} {sign : Sign}
      (space : isBlank blank = true) :
      Edit (front ++ sign.toChar :: back) (front ++ blank :: sign.toChar :: back)
  | behindSign {blank : Char} {front back : List Char} {sign : Sign}
      (space : isBlank blank = true) :
      Edit (front ++ sign.toChar :: back) (front ++ sign.toChar :: blank :: back)
  | beforeMarker {blank : Char} {front back : List Char} {marker : Marker}
      (leads : LeadsToMarker front) (space : isBlank blank = true) :
      Edit (front ++ marker.toChar :: back) (front ++ blank :: marker.toChar :: back)
  | behindMarker {blank : Char} {front back : List Char} {marker : Marker}
      (leads : LeadsToMarker front) (space : isBlank blank = true) :
      Edit (front ++ marker.toChar :: back) (front ++ marker.toChar :: blank :: back)
  | markerCase {front back : List Char} {marker other : Marker} (leads : LeadsToMarker front) :
      Edit (front ++ marker.toChar :: back) (front ++ other.toChar :: back)

end Text

namespace Piece

variable {front first second : List Char}

theorem signedRuns_cons_blank {blank : Char} (space : Text.isBlank blank = true)
    (text : List Char) :
    signedRuns (blank :: text) = (blank :: (signedRuns text).1, (signedRuns text).2) :=
  signedRuns_blank (Text.allBlank_singleton.mpr space) text

theorem signedRuns_marker (marker : Marker) (text : List Char) :
    signedRuns (marker.toChar :: text) =
      (marker.toChar :: (signedRuns text).1, (signedRuns text).2) :=
  signedRuns_append (List.forall_mem_singleton.mpr (ofChar?_marker marker)) text

theorem outline_of_leadsToMarker (leads : Text.LeadsToMarker front)
    (body : ∀ sign head, (∀ c ∈ head, Inert c) →
      (ofBody sign (head ++ (signedRuns second).1)).bare =
        (ofBody sign (head ++ (signedRuns first).1)).bare)
    (runs : (signedRuns second).2 = (signedRuns first).2) :
    outline (front ++ second) = outline (front ++ first) := by
  obtain ⟨before, head, rfl, opens, inert⟩ := leads
  have unsigned : ∀ c ∈ head, Sign.ofChar? c = none := fun c member => (inert c member).1
  have cut := signedRuns_append unsigned first
  have cut' := signedRuns_append unsigned second
  rcases opens with rfl | ⟨earlier, sign, rfl⟩
  · refine outline_congr ?_ ?_
    · rw [List.nil_append, cut, cut', body none head inert]
    · rw [List.nil_append, cut, cut', runs]
  · have spaced : Spaced (sign.toChar :: (head ++ first)) (sign.toChar :: (head ++ second)) := by
      refine spaced_sign sign (fun sign => ?_) ?_
      · rw [cut, cut', body sign head inert]
      · rw [cut, cut', runs]
    simpa using (spaced.append earlier).outline_eq

end Piece

namespace Text

open Piece

variable {first second : List Char}

theorem Edit.outline_eq (edit : Edit first second) : outline second = outline first := by
  cases edit with
  | start space => exact outline_prepend (allBlank_singleton.mpr space) first
  | stop space => exact outline_append (allBlank_singleton.mpr space) first
  | @beforeSign blank front back sign space =>
    have spaced : Spaced (sign.toChar :: back) (blank :: sign.toChar :: back) := by
      refine ⟨⟨[blank], allBlank_singleton.mpr space, ?_⟩, ?_⟩
      · rw [signedRuns_cons_blank space, signedRuns_sign, List.nil_append]
      · rw [signedRuns_cons_blank space]
    exact (spaced.append front).outline_eq
  | @behindSign blank front back sign space =>
    have spaced : Spaced (sign.toChar :: back) (sign.toChar :: blank :: back) := by
      refine spaced_sign sign (fun sign => ?_) ?_
      · rw [signedRuns_cons_blank space]
        exact bare_ofBody_prepend (allBlank_singleton.mpr space) sign _
      · rw [signedRuns_cons_blank space]
    exact (spaced.append front).outline_eq
  | @beforeMarker blank front back marker leads space =>
    refine outline_of_leadsToMarker leads (fun sign head inert => ?_) ?_
    · have blankInert : ∀ c ∈ head ++ [blank], Inert c :=
        List.forall_mem_append.mpr
          ⟨inert, List.forall_mem_singleton.mpr (inert_of_isBlank space)⟩
      have joined (rest : List Char) : head ++ blank :: rest = head ++ [blank] ++ rest := by simp
      rw [signedRuns_cons_blank space, signedRuns_marker, joined,
        ofBody_of_marker sign blankInert, ofBody_of_marker sign inert]
      simp only [bare, trim_append_right (allBlank_singleton.mpr space)]
    · rw [signedRuns_cons_blank space]
  | @behindMarker blank front back marker leads space =>
    refine outline_of_leadsToMarker leads (fun sign head inert => ?_) ?_
    · have same : trim (blank :: (signedRuns back).1) = trim (signedRuns back).1 :=
        trim_append_left (allBlank_singleton.mpr space) _
      rw [signedRuns_marker, signedRuns_marker, signedRuns_cons_blank space,
        ofBody_of_marker sign inert, ofBody_of_marker sign inert]
      simp only [bare, Option.map_some, same]
    · rw [signedRuns_marker, signedRuns_marker, signedRuns_cons_blank space]
  | @markerCase front back marker other leads =>
    refine outline_of_leadsToMarker leads (fun sign head inert => ?_) ?_
    · rw [signedRuns_marker, signedRuns_marker, ofBody_of_marker sign inert,
        ofBody_of_marker sign inert]
      rfl
    · rw [signedRuns_marker, signedRuns_marker]

theorem outline_eq_of_edits (edits : Relation.EqvGen Edit first second) :
    outline second = outline first := by
  induction edits with
  | rel first second edit => exact edit.outline_eq
  | refl text => rfl
  | symm first second _ ih => exact ih.symm
  | trans first second third _ _ ih ih' => exact ih'.trans ih

end Text

/-- Errors of one kind, with one flaw or the same numbers, wherever the flaw is. -/
inductive ParseError.Alike : ParseError → ParseError → Prop where
  | empty : Alike .empty .empty
  | flawed {here there : Excerpt} {flaw : Flaw} : Alike (.flawed here flaw) (.flawed there flaw)
  | noDice : Alike .noDice .noDice
  | tooManyDice {count : Nat} {max : UInt32} :
      Alike (.tooManyDice count max) (.tooManyDice count max)

namespace Expression

/-- Texts that are read alike: as equal expressions, or with errors that are alike. -/
inductive ReadAlike : Except ParseError Expression → Except ParseError Expression → Prop where
  | accepted {first second : Expression} (equal : (first == second) = true) :
      ReadAlike (.ok first) (.ok second)
  | rejected {first second : ParseError} (alike : first.Alike second) :
      ReadAlike (.error first) (.error second)

theorem readAlike_ofMeanings (maxDice : Option UInt32) (source other : String)
    (meanings : List Meaning) :
    ReadAlike (ofMeanings maxDice source meanings) (ofMeanings maxDice other meanings) := by
  unfold ofMeanings
  dsimp only
  split
  · exact .rejected .tooManyDice
  · split
    · exact .rejected .noDice
    · exact .accepted (beq_iff.mpr rfl)

section

variable {limits : Limits} {first second : String}

theorem readAlike_of_outline
    (same : Piece.outline second.toList = Piece.outline first.toList) :
    ReadAlike (parseWith limits first) (parseWith limits second) := by
  have blank_iff : Text.AllBlank second.toList ↔ Text.AllBlank first.toList := by
    rw [← Piece.outline_eq_empty_iff, same, Piece.outline_eq_empty_iff]
  by_cases blank : Text.AllBlank first.toList
  · rw [parseWith_of_blank blank, parseWith_of_blank (blank_iff.mpr blank)]
    exact .rejected .empty
  · rcases Piece.means_or_first_flawed limits.maxValue (Piece.outline first.toList) with
      ⟨meanings, means⟩ | ⟨sound, piece, rest, flaw, split, earlier, flawed⟩
    · rw [parseWith_of_means_outline means]
      rw [← same] at means
      rw [parseWith_of_means_outline means]
      exact readAlike_ofMeanings limits.maxDice first second meanings
    · obtain ⟨_, rejected⟩ := parseWith_of_flawed_outline blank split earlier flawed
      obtain ⟨_, rejected'⟩ := parseWith_of_flawed_outline (blank_iff.not.mpr blank)
        (same.trans split) earlier flawed
      rw [rejected, rejected']
      exact .rejected .flawed

/-- Texts are read alike if they differ by blanks at their ends and around signs and first markers,
and by the case of these markers. -/
theorem readAlike_of_edits (limits : Limits)
    (edits : Relation.EqvGen Text.Edit first.toList second.toList) :
    ReadAlike (parseWith limits first) (parseWith limits second) :=
  readAlike_of_outline (Text.outline_eq_of_edits edits)

/-- A blank goes at the end, and others come in front of the marker, now a capital, and of the
sign. -/
theorem readAlike_of_moved_blanks : ∃ first second, first = "2d6-1 " ∧ second = "2 D6 -1" ∧
    Relation.EqvGen Text.Edit first.toList second.toList ∧
    ReadAlike (parseWith {} first) (parseWith {} second) := by
  have two : Piece.Inert '2' := Piece.inert_of_isDigit rfl
  have blank : Piece.Inert ' ' := Piece.inert_of_isBlank rfl
  have tight : Text.LeadsToMarker ['2'] := ⟨[], ['2'], rfl, .inl rfl, by simp [two]⟩
  have loose : Text.LeadsToMarker ['2', ' '] :=
    ⟨[], ['2', ' '], rfl, .inl rfl, by simp [two, blank]⟩
  have stop : Text.Edit "2d6-1".toList "2d6-1 ".toList := @Text.Edit.stop ' ' _ rfl
  have marker : Text.Edit "2d6-1".toList "2 d6-1".toList :=
    @Text.Edit.beforeMarker ' ' ['2'] "6-1".toList .lower tight rfl
  have capital : Text.Edit "2 d6-1".toList "2 D6-1".toList :=
    @Text.Edit.markerCase ['2', ' '] "6-1".toList .lower .upper loose
  have sign : Text.Edit "2 D6-1".toList "2 D6 -1".toList :=
    @Text.Edit.beforeSign ' ' "2 D6".toList ['1'] .negative rfl
  have edits : Relation.EqvGen Text.Edit "2d6-1 ".toList "2 D6 -1".toList :=
    .trans _ _ _ (.symm _ _ (.rel _ _ stop)) (.trans _ _ _ (.rel _ _ marker)
      (.trans _ _ _ (.rel _ _ capital) (.rel _ _ sign)))
  exact ⟨_, _, rfl, rfl, edits, readAlike_of_edits {} edits⟩

end

end Expression

end Dice
