import Dice.Proofs.Rejection

namespace Dice

namespace Piece

/-- The numbers that a piece writes, by the part that they play in it. A count that is left out is
not written. -/
inductive Writes : Piece → Role → Nat → Prop where
  | count {sign : Option Sign} {head rest : List Char} {marker : Marker}
      (written : ¬ Text.AllBlank head) :
      Writes ⟨sign, head, some (marker, rest)⟩ .count (Decimal.value (Text.trim head))
  | sides {sign : Option Sign} {head rest : List Char} {marker : Marker} :
      Writes ⟨sign, head, some (marker, rest)⟩ .sides (Decimal.value (Text.trim rest))
  | modifier {sign : Option Sign} {head : List Char} :
      Writes ⟨sign, head, none⟩ .modifier (Decimal.value (Text.trim head))

end Piece

namespace Parse.Numeral

variable {low high : UInt16} {text : List Char} {number : Number}

theorem value_le (numeral : Numeral high text number) : Decimal.value text ≤ high.toNat :=
  numeral.value_eq ▸ numeral.le_max

theorem under (numeral : Numeral high text number) (within : Decimal.value text ≤ low.toNat) :
    Numeral low text number :=
  { numeral with le_max := numeral.value_eq ▸ within }

theorem not_flawed {role : Role} {flaw : Flaw} (numeral : Numeral low text number) :
    ¬ NumeralFlaw role low text flaw := by
  intro wrong
  cases (readNumber_of_numeral role numeral).symm.trans (readNumber_of_flaw wrong)

end Parse.Numeral

namespace Piece

variable {low high : UInt16} {piece : Piece} {meaning : Meaning} {role : Role} {number : Nat}

/-- A piece that means something under a cap writes no number above it. -/
theorem Means.le_of_writes (means : piece.Means low meaning) (writes : piece.Writes role number) :
    number ≤ low.toNat := by
  cases means with
  | counted front back =>
    cases writes with
    | count written => exact front.value_le
    | sides => exact back.value_le
  | single front back =>
    cases writes with
    | count written => exact absurd front written
    | sides => exact back.value_le
  | constant front =>
    cases writes with
    | modifier => exact front.value_le

/-- It means the same under every other cap that is above none of its numbers. -/
theorem Means.of_within (means : piece.Means high meaning)
    (within : ∀ role number, piece.Writes role number → number ≤ low.toNat) :
    piece.Means low meaning := by
  cases means with
  | counted front back =>
    exact .counted (front.under (within _ _ (.count front.not_allBlank)))
      (back.under (within _ _ .sides))
  | single front back => exact .single front (back.under (within _ _ .sides))
  | constant front => exact .constant (front.under (within _ _ .modifier))

theorem Means.mono (means : piece.Means low meaning) (le : low ≤ high) :
    piece.Means high meaning :=
  means.of_within fun _ _ writes =>
    (means.le_of_writes writes).trans (UInt16.le_iff_toNat_le.mp le)

/-- Under a cap that one of its numbers is above, it is flawed: the first such number is too
large. -/
theorem Means.of_beyond (means : piece.Means high meaning) (writes : piece.Writes role number)
    (beyond : low.toNat < number) : ∃ role, piece.Flawed low (.tooLarge role low) := by
  cases means with
  | @counted sign head rest marker count sides front back =>
    by_cases large : low.toNat < Decimal.value (Text.trim head)
    · exact ⟨.count, .count back.not_allBlank front.not_allBlank
        (Parse.numeralFlaw_of_beyond .count front.digits large)⟩
    · have counted := front.under (Nat.not_lt.mp large)
      cases writes with
      | count written => exact absurd beyond large
      | sides =>
        exact ⟨.sides, .sides back.not_allBlank (fun _ _ => counted.not_flawed)
          (Parse.numeralFlaw_of_beyond .sides back.digits beyond)⟩
  | single front back =>
    cases writes with
    | count written => exact absurd front written
    | sides =>
      exact ⟨.sides, .sides back.not_allBlank (absurd front)
        (Parse.numeralFlaw_of_beyond .sides back.digits beyond)⟩
  | constant front =>
    cases writes with
    | modifier =>
      exact ⟨.modifier, .modifier front.not_allBlank
        (Parse.numeralFlaw_of_beyond .modifier front.digits beyond)⟩

/-- Nothing else can be wrong with it under another cap. -/
theorem Means.flaw_eq {flaw : Flaw} (means : piece.Means high meaning)
    (flawed : piece.Flawed low flaw) : ∃ role, flaw = .tooLarge role low := by
  by_cases within : ∀ role number, piece.Writes role number → number ≤ low.toNat
  · exact absurd flawed ((means.of_within within).not_flawed flaw)
  · simp only [not_forall, Nat.not_le] at within
    obtain ⟨_, number, writes, beyond⟩ := within
    obtain ⟨role, large⟩ := means.of_beyond writes beyond
    cases flawed.readPiece_eq.symm.trans large.readPiece_eq
    exact ⟨role, rfl⟩

end Piece

namespace Expression

/-- Holds an expression against a cap on its dice. -/
def capDice (most : UInt32) (expression : Expression) : Except ParseError Expression :=
  if most.toNat < expression.diceCount then .error (.tooManyDice expression.diceCount most)
  else .ok expression

/-- The text writes a number above the cap in one of its pieces. -/
def WritesAbove (max : UInt16) (text : String) : Prop :=
  ∃ piece ∈ Piece.ofChars (Text.trim text.toList),
    ∃ role number, piece.Writes role number ∧ max.toNat < number

/-- The text is rejected for a number above the cap. -/
def RejectedAbove (max : UInt16) (text : String) : Prop :=
  ∃ excerpt role, parseWith ⟨max, none⟩ text = .error (.flawed excerpt (.tooLarge role max))

theorem ofMeanings_some (most : UInt32) (source : String) (meanings : List Meaning) :
    ofMeanings (some most) source meanings =
      (ofMeanings none source meanings).bind (capDice most) := by
  by_cases empty : meanings.filterMap Meaning.term? = []
  · rw [ofMeanings_of_none empty, ofMeanings_of_none empty]
    rfl
  · have uncapped : ∀ cap, none = some cap → Meaning.diceCount meanings ≤ UInt32.toNat cap := nofun
    obtain ⟨expression, built, terms, modifier, origin⟩ :=
      ofMeanings_of_dice uncapped empty source
    have count : expression.diceCount = Meaning.diceCount meanings := congrArg Term.diceCount terms
    rw [built, Except.bind, capDice, count]
    split
    · rename_i many
      exact ofMeanings_of_many rfl many
    · rename_i few
      refine ofMeanings_eq_ok_iff.mpr ⟨empty, ?_, terms, modifier, origin⟩
      rintro cap ⟨⟩
      exact Nat.not_lt.mp few

/-- The cap on dice filters what is accepted without it. -/
theorem parseWith_some (max : UInt16) (most : UInt32) (text : String) :
    parseWith ⟨max, some most⟩ text = (parseWith ⟨max, none⟩ text).bind (capDice most) := by
  by_cases blank : Text.AllBlank text.toList
  · rw [parseWith_of_blank blank, parseWith_of_blank blank]
    rfl
  · rcases Piece.means_or_first_flawed max (Piece.ofChars (Text.trim text.toList)) with
      ⟨meanings, means⟩ | ⟨sound, piece, rest, flaw, cut, earlier, flawed⟩
    · have capped := @parseWith_of_means ⟨max, some most⟩ text meanings means
      have uncapped := @parseWith_of_means ⟨max, none⟩ text meanings means
      rw [capped, uncapped, ofMeanings_some]
    · have capped := @parseWith_of_flawed ⟨max, some most⟩ text _ _ _ _ blank cut earlier flawed
      have uncapped := @parseWith_of_flawed ⟨max, none⟩ text _ _ _ _ blank cut earlier flawed
      rw [capped, uncapped]
      rfl

section

variable {low high : UInt16} {text : String} {expression : Expression}

theorem parseWith_mono (le : low ≤ high) (accepted : parseWith ⟨low, none⟩ text = .ok expression) :
    parseWith ⟨high, none⟩ text = .ok expression := by
  obtain ⟨meanings, means, built⟩ := parseWith_eq_ok_iff.mp accepted
  exact parseWith_eq_ok_iff.mpr ⟨meanings, means.imp fun _ _ means => means.mono le, built⟩

theorem parseWith_of_not_writesAbove (accepted : parseWith ⟨high, none⟩ text = .ok expression)
    (within : ¬ WritesAbove low text) : parseWith ⟨low, none⟩ text = .ok expression := by
  obtain ⟨meanings, means, built⟩ := parseWith_eq_ok_iff.mp accepted
  have under : ∀ piece ∈ Piece.ofChars (Text.trim text.toList),
      ∀ role number, piece.Writes role number → number ≤ low.toNat := by
    intro piece member role number writes
    exact Nat.not_lt.mp fun beyond => within ⟨piece, member, role, number, writes, beyond⟩
  have both := (List.forall₂_and_left _ _).mpr ⟨under, means⟩
  exact parseWith_eq_ok_iff.mpr
    ⟨meanings, both.imp fun _ _ each => each.2.of_within each.1, built⟩

theorem rejectedAbove_of_writesAbove (accepted : parseWith ⟨high, none⟩ text = .ok expression)
    (above : WritesAbove low text) : RejectedAbove low text := by
  obtain ⟨piece, member, _, number, writes, beyond⟩ := above
  obtain ⟨meanings, means, _⟩ := parseWith_eq_ok_iff.mp accepted
  have readable := Piece.exists_means_of_mem means
  have written : ¬ Text.AllBlank text.toList := by
    intro blank
    cases (parseWith_of_blank blank).symm.trans accepted
  rcases Piece.means_or_first_flawed low (Piece.ofChars (Text.trim text.toList)) with
    ⟨others, lowMeans⟩ | ⟨sound, bad, rest, flaw, cut, earlier, flawed⟩
  · obtain ⟨_, pieceMeans⟩ := Piece.exists_means_of_mem lowMeans piece member
    exact absurd beyond (Nat.not_lt.mpr (pieceMeans.le_of_writes writes))
  · obtain ⟨_, badMeans⟩ := readable bad (cut ▸ List.mem_append_right sound List.mem_cons_self)
    obtain ⟨role, rfl⟩ := badMeans.flaw_eq flawed
    exact ⟨_, role, parseWith_of_flawed written cut earlier flawed⟩

/-- A cap on dice changes nothing but that it refuses too many of them, and a lower cap on numbers
changes nothing but that it refuses those above it. -/
theorem parseWith_under_limits (text : String) :
    (∀ max most, parseWith ⟨max, some most⟩ text =
      (parseWith ⟨max, none⟩ text).bind (capDice most)) ∧
    ∀ low high, low ≤ high →
      (∀ expression, parseWith ⟨low, none⟩ text = .ok expression →
        parseWith ⟨high, none⟩ text = .ok expression) ∧
      ∀ expression, parseWith ⟨high, none⟩ text = .ok expression →
        (parseWith ⟨low, none⟩ text = .ok expression ∨ RejectedAbove low text) ∧
          (RejectedAbove low text ↔ WritesAbove low text) := by
  refine ⟨fun max most => parseWith_some max most text, fun low high le =>
    ⟨fun expression accepted => parseWith_mono le accepted, fun expression accepted => ?_⟩⟩
  by_cases beyond : WritesAbove low text
  · have rejected := rejectedAbove_of_writesAbove accepted beyond
    exact ⟨.inr rejected, fun _ => beyond, fun _ => rejected⟩
  · have same := parseWith_of_not_writesAbove accepted beyond
    refine ⟨.inl same, fun ⟨excerpt, role, rejected⟩ => ?_, fun above => absurd above beyond⟩
    cases same.symm.trans rejected

/-- A constant with a leading zero is refused under a cap that all other numbers keep to, and four
dice under a cap of three. -/
theorem rejected_under_lower_limit : (19 : UInt16) ≤ 20 ∧
    (∃ expression, parseWith ⟨20, none⟩ "3d6 - 020 + d19" = .ok expression ∧
      expression.diceCount = 4 ∧
      parseWith ⟨20, some 4⟩ "3d6 - 020 + d19" = .ok expression ∧
      parseWith ⟨20, some 3⟩ "3d6 - 020 + d19" = .error (.tooManyDice 4 3)) ∧
    WritesAbove 19 "3d6 - 020 + d19" ∧ RejectedAbove 19 "3d6 - 020 + d19" := by
  have le : (19 : UInt16) ≤ 20 := by decide
  have above : WritesAbove 19 "3d6 - 020 + d19" :=
    ⟨⟨some .negative, " 020 ".toList, none⟩, by decide +kernel, .modifier, 20, .modifier, by decide⟩
  have read : parseWith ⟨20, none⟩ "3d6 - 020 + d19" = .ok _ := rfl
  obtain ⟨capped, lower⟩ := parseWith_under_limits "3d6 - 020 + d19"
  obtain ⟨-, rejected⟩ := (lower 19 20 le).2 _ read
  have four := capped 20 4
  have three := capped 20 3
  rw [read] at four three
  exact ⟨le, ⟨_, read, rfl, four, three⟩, above, rejected.mpr above⟩

end

end Expression

end Dice
