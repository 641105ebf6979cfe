import Dice.Proofs.Parse.Reading

namespace Dice

/-- The error that a text is rejected with. The text is cut within the blanks around it; its first
flawed piece is to blame, whatever stands behind, and only a text without flaws is held against the
cap on dice and searched for a die. -/
inductive Rejection (limits : Limits) (text : List Char) : ParseError → Prop where
  | empty (blank : Text.AllBlank text) : Rejection limits text .empty
  | flawed {sound rest : List Piece} {piece : Piece} {flaw : Flaw}
      (written : ¬ Text.AllBlank text)
      (cut : Piece.Cut (Text.trim text) (sound ++ piece :: rest))
      (first : ∀ earlier ∈ sound, ∀ other, ¬ earlier.Flawed limits.maxValue other)
      (flawed : piece.Flawed limits.maxValue flaw) :
      Rejection limits text (.flawed
        (piece.excerpt (Text.leadingBlanks text ++ sound.flatMap Piece.chars)) flaw)
  | tooManyDice {pieces : List Piece} {most : UInt32} (written : ¬ Text.AllBlank text)
      (cut : Piece.Cut (Text.trim text) pieces)
      (sound : ∀ piece ∈ pieces, ∀ flaw, ¬ piece.Flawed limits.maxValue flaw)
      (cap : limits.maxDice = some most) (many : most.toNat < (pieces.map Piece.diceCount).sum) :
      Rejection limits text (.tooManyDice (pieces.map Piece.diceCount).sum most)
  | noDice {pieces : List Piece} (written : ¬ Text.AllBlank text)
      (cut : Piece.Cut (Text.trim text) pieces)
      (sound : ∀ piece ∈ pieces, ∀ flaw, ¬ piece.Flawed limits.maxValue flaw)
      (unmarked : ∀ piece ∈ pieces, piece.sides = none) : Rejection limits text .noDice

namespace Piece

variable {max : UInt16} {pieces : List Piece} {meanings : List Meaning}

theorem Means.not_flawed {piece : Piece} {meaning : Meaning} (means : piece.Means max meaning)
    (flaw : Flaw) : ¬ piece.Flawed max flaw := by
  intro flawed
  cases means.readPiece_eq.symm.trans flawed.readPiece_eq

theorem exists_means {piece : Piece} (sound : ∀ flaw, ¬ piece.Flawed max flaw) :
    ∃ meaning, piece.Means max meaning := by
  rcases piece.means_or_flawed max with means | ⟨flaw, flawed⟩
  · exact means
  · exact absurd flawed (sound flaw)

theorem exists_all_means (sound : ∀ piece ∈ pieces, ∀ flaw, ¬ piece.Flawed max flaw) :
    ∃ meanings, List.Forall₂ (Means max) pieces meanings := by
  rcases means_or_first_flawed max pieces with means | ⟨_, piece, _, flaw, rfl, _, flawed⟩
  · exact means
  · exact absurd flawed (sound piece (List.mem_append_right _ List.mem_cons_self) flaw)

theorem sound_of_means (means : List.Forall₂ (Means max) pieces meanings) :
    ∀ piece ∈ pieces, ∀ flaw, ¬ piece.Flawed max flaw := by
  intro piece member
  obtain ⟨meaning, found⟩ := exists_means_of_mem means piece member
  exact found.not_flawed

theorem terms_eq_nil_iff (means : List.Forall₂ (Means max) pieces meanings) :
    meanings.filterMap Meaning.term? = [] ↔ ∀ piece ∈ pieces, piece.sides = none := by
  induction means with
  | nil => simp
  | @cons piece meaning pieces meanings first others ih =>
    cases first with
    | counted front back => simp [Meaning.term?]
    | single front back => simp [Meaning.term?]
    | constant front => simpa [Meaning.term?] using ih

end Piece

namespace Expression

variable {limits : Limits} {text : String}

theorem parseWith_of_rejection {error : ParseError}
    (rejected : Rejection limits text.toList error) : parseWith limits text = .error error := by
  cases rejected with
  | empty blank => exact parseWith_of_blank blank
  | flawed written cut first flawed =>
    exact parseWith_of_flawed written cut.eq_ofChars.symm
      (fun earlier member => Piece.exists_means (first earlier member)) flawed
  | tooManyDice written cut sound cap many =>
    obtain ⟨meanings, means⟩ := Piece.exists_all_means sound
    rw [cut.eq_ofChars] at means
    rw [cut.eq_ofChars, ← Meaning.diceCount_eq means] at many ⊢
    rw [parseWith_of_means means, ofMeanings_of_many cap many]
  | noDice written cut sound unmarked =>
    obtain ⟨meanings, means⟩ := Piece.exists_all_means sound
    have none := (Piece.terms_eq_nil_iff means).mpr unmarked
    rw [cut.eq_ofChars] at means
    rw [parseWith_of_means means, ofMeanings_of_none none]

private theorem accepted_or_rejected_of_means {meanings : List Meaning}
    (written : ¬ Text.AllBlank text.toList)
    (means : List.Forall₂ (Piece.Means limits.maxValue)
      (Piece.ofChars (Text.trim text.toList)) meanings) :
    (∃ expression, ofMeanings limits.maxDice text meanings = .ok expression) ∨
      ∃ error, Rejection limits text.toList error := by
  have cut := Piece.cut_ofChars (Text.trim text.toList)
  have sound := Piece.sound_of_means means
  by_cases many : ∃ most, limits.maxDice = some most ∧
      most.toNat < ((Piece.ofChars (Text.trim text.toList)).map Piece.diceCount).sum
  · obtain ⟨most, cap, many⟩ := many
    exact .inr ⟨_, .tooManyDice written cut sound cap many⟩
  · by_cases none : meanings.filterMap Meaning.term? = []
    · exact .inr ⟨_, .noDice written cut sound ((Piece.terms_eq_nil_iff means).mp none)⟩
    · have within : ∀ most, limits.maxDice = some most →
          Meaning.diceCount meanings ≤ most.toNat := by
        intro most cap
        rw [Meaning.diceCount_eq means]
        exact Nat.not_lt.mp fun above => many ⟨most, cap, above⟩
      obtain ⟨expression, built, _⟩ := ofMeanings_of_dice within none text
      exact .inl ⟨expression, built⟩

private theorem accepted_or_rejected (limits : Limits) (text : String) :
    (∃ expression, parseWith limits text = .ok expression) ∨
      ∃ error, Rejection limits text.toList error := by
  by_cases blank : Text.AllBlank text.toList
  · exact .inr ⟨_, .empty blank⟩
  · have cut := Piece.cut_ofChars (Text.trim text.toList)
    rcases Piece.means_or_first_flawed limits.maxValue (Piece.ofChars (Text.trim text.toList)) with
      ⟨meanings, means⟩ | ⟨sound, piece, rest, flaw, split, earlier, flawed⟩
    · rw [parseWith_of_means means]
      exact accepted_or_rejected_of_means blank means
    · rw [split] at cut
      refine .inr ⟨_, .flawed blank cut (fun before member => ?_) flawed⟩
      obtain ⟨meaning, means⟩ := earlier before member
      exact means.not_flawed

/-- A text is rejected exactly with the error that its first problem calls for. -/
theorem parseWith_eq_error_iff {error : ParseError} :
    parseWith limits text = .error error ↔ Rejection limits text.toList error :=
  (except_decided (fun _ accepted => accepted) (fun _ => parseWith_of_rejection)
    (accepted_or_rejected limits text)).2 error

end Expression

end Dice
