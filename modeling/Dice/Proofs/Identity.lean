import Dice.Proofs.Canonical
import Dice.Proofs.Json.Text
import Dice.Record

/-!
What tells expressions apart: their formulas, their canonical texts and their records do so alike.

Canonical text is cut at signs and markers, whatever numbers it holds, so the formula can be found
in it without a reader that would refuse large numbers: every piece with a marker is one of the
terms, and the piece without a marker is the constant.
-/

namespace Dice

theorem Sign.record_inj {first second : Sign} : first.record = second.record ↔ first = second := by
  cases first <;> cases second <;> simp [record, name]

theorem Term.record_inj {first second : Term} : first.record = second.record ↔ first = second := by
  refine ⟨fun same => ?_, congrArg record⟩
  obtain ⟨count, sides, sign⟩ := first
  obtain ⟨count', sides', sign'⟩ := second
  simp only [record, Json.object.injEq, List.cons.injEq, Prod.mk.injEq, true_and, and_true,
    Json.number.injEq, Int.natCast_inj, Sign.record_inj] at same
  obtain ⟨counts, faces, rfl⟩ := same
  cases Number.ext counts
  cases Number.ext faces
  rfl

namespace Formula

theorem record_inj {first second : Formula} : first.record = second.record ↔ first = second := by
  refine ⟨fun same => ?_, congrArg record⟩
  simp only [record, Json.object.injEq, List.cons.injEq, Prod.mk.injEq, true_and, and_true,
    Json.array.injEq, Json.number.injEq, Int64.toInt_inj] at same
  obtain ⟨terms, modifier⟩ := same
  exact Formula.ext (List.map_injective_iff.mpr (fun _ _ => Term.record_inj.mp) terms) modifier

private theorem marked_termPieces (back : List Char) (leads : Bool) (terms : List Term) :
    ∀ piece ∈ termPieces back leads terms, piece.sides.isSome = true := by
  induction terms generalizing leads with
  | nil => exact List.forall_mem_nil _
  | cons term others ih => exact List.forall_mem_cons.mpr ⟨rfl, ih false⟩

private theorem unmarked_modifierPieces (modifier : Int) :
    ∀ piece ∈ modifierPieces modifier, piece.sides.isSome = false := by
  unfold modifierPieces
  split
  · exact List.forall_mem_nil _
  · exact List.forall_mem_singleton.mpr rfl

private theorem partition_pieces (formula : Formula) :
    formula.pieces.partition (fun piece => piece.sides.isSome) =
      (termPieces (modifierGap formula.modifier.toInt) true formula.terms,
        modifierPieces formula.modifier.toInt) := by
  have marked := marked_termPieces (modifierGap formula.modifier.toInt) true formula.terms
  have unmarked := unmarked_modifierPieces formula.modifier.toInt
  rw [List.partition_eq_filter_filter, pieces, List.filter_append, List.filter_append]
  congr 1
  · rw [List.filter_eq_self.mpr marked, List.filter_eq_nil_iff.mpr, List.append_nil]
    intro piece member
    simp [unmarked piece member]
  · rw [List.filter_eq_nil_iff.mpr, List.nil_append, List.filter_eq_self.mpr]
    · intro piece member
      simp [unmarked piece member]
    · intro piece member
      simp [marked piece member]

/-- The widest cap leaves every term as it is, so the pieces of terms mean them. -/
private theorem termPieces_inj {back back' : List Char} {terms others : List Term}
    (blank : Text.AllBlank back) (blank' : Text.AllBlank back')
    (same : termPieces back true terms = termPieces back' true others) : terms = others := by
  have fits (terms : List Term) : ∀ term ∈ terms, term.excess? 65535 = none := fun term _ =>
    Term.excess?_eq_none_iff.mpr
      ⟨Nat.le_of_lt_succ term.count.lt_size, Nat.le_of_lt_succ term.sides.lt_size⟩
  have first := means_termPieces (fits terms) true blank
  have second := means_termPieces (fits others) true blank'
  rw [same] at first
  have meanings := Piece.meanings_unique second first
  exact List.map_injective_iff.mpr (fun _ _ => Meaning.dice.inj) meanings

private theorem modifierPieces_inj {first second : Int}
    (same : modifierPieces first = modifierPieces second) : first = second := by
  unfold modifierPieces at same
  split at same
  · split at same
    · omega
    · cases same
  · split at same
    · cases same
    · simp only [List.cons.injEq, modifierPiece, Piece.mk.injEq, Option.some.injEq, true_and,
        and_true, Decimal.ofNat_inj] at same
      obtain ⟨signs, magnitudes⟩ := same
      rw [← Sign.apply_ofInt_natAbs first, ← Sign.apply_ofInt_natAbs second, signs, magnitudes]

theorem text_inj {first second : Formula} : first.text = second.text ↔ first = second := by
  refine ⟨fun same => ?_, congrArg text⟩
  have chars : first.chars = second.chars := String.ofList_injective same
  have pieces : first.pieces = second.pieces := by
    rw [first.cut_pieces.eq_ofChars, chars, ← second.cut_pieces.eq_ofChars]
  have parts := congrArg (List.partition fun piece => piece.sides.isSome) pieces
  rw [partition_pieces, partition_pieces, Prod.mk.injEq] at parts
  obtain ⟨terms, modifiers⟩ := parts
  exact Formula.ext (termPieces_inj (allBlank_modifierGap _) (allBlank_modifierGap _) terms)
    (Int64.toInt_inj.mp (modifierPieces_inj modifiers))

end Formula

/-- Expressions are equal exactly if their canonical texts are the same, and exactly if the texts of
their records are, wherever they come from. -/
theorem Expression.told_apart_by_texts (first second : Expression) :
    ((first == second) = true ↔ first.text = second.text) ∧
      (first.text = second.text ↔ first.record.text = second.record.text) := by
  rw [beq_iff, Formula.text_inj, Json.text_inj, Formula.record_inj]
  exact ⟨Iff.rfl, Iff.rfl⟩

end Dice
