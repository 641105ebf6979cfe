import Dice.Text.Blank
import Mathlib.Data.List.TakeWhile

namespace Dice.Text

def AllBlank (text : List Char) : Prop :=
  ∀ c ∈ text, isBlank c = true

instance (text : List Char) : Decidable (AllBlank text) :=
  inferInstanceAs (Decidable (∀ c ∈ text, isBlank c = true))

/-- A text that neither starts nor ends with a blank. -/
structure Trimmed (text : List Char) : Prop where
  head : ∀ c ∈ text.head?, isBlank c = false
  last : ∀ c ∈ text.getLast?, isBlank c = false

@[simp] theorem allBlank_nil : AllBlank [] :=
  List.forall_mem_nil _

@[simp] theorem allBlank_append {first second : List Char} :
    AllBlank (first ++ second) ↔ AllBlank first ∧ AllBlank second :=
  List.forall_mem_append

@[simp] theorem allBlank_singleton {c : Char} : AllBlank [c] ↔ isBlank c = true :=
  List.forall_mem_singleton

theorem allBlank_space : AllBlank [' '] :=
  allBlank_singleton.mpr rfl

theorem allBlank_leadingBlanks (text : List Char) : AllBlank (leadingBlanks text) :=
  fun _ member => List.mem_takeWhile_imp member

theorem isBlank_of_isDigit {c : Char} (digit : c.isDigit = true) : isBlank c = false := by
  have low : 48 ≤ c.toNat := (Char.isDigit_iff_toNat.mp digit).1
  have high : c.toNat ≤ 57 := (Char.isDigit_iff_toNat.mp digit).2
  simp only [isBlank, blankRanges, List.any_cons, List.any_nil, Bool.or_false,
    Bool.or_eq_false_iff, Bool.and_eq_false_iff, decide_eq_false_iff_not]
  omega

@[simp] theorem trimLeft_append_of_blank {front : List Char} (blank : AllBlank front)
    (text : List Char) : trimLeft (front ++ text) = trimLeft text :=
  List.dropWhile_append_of_pos blank

@[simp] theorem trimRight_append_of_blank {back : List Char} (blank : AllBlank back)
    (text : List Char) : trimRight (text ++ back) = trimRight text := by
  have reversed : ∀ c ∈ back.reverse, isBlank c = true :=
    fun c member => blank c (List.mem_reverse.mp member)
  rw [trimRight, List.reverse_append, List.dropWhile_append_of_pos reversed, trimRight]

theorem trimLeft_eq_nil_iff {text : List Char} : trimLeft text = [] ↔ AllBlank text :=
  List.dropWhile_eq_nil_iff

theorem trimRight_eq_nil_iff {text : List Char} : trimRight text = [] ↔ AllBlank text := by
  rw [trimRight, List.reverse_eq_nil_iff, List.dropWhile_eq_nil_iff]
  simp only [List.mem_reverse, AllBlank]

theorem trimLeft_append_of_not_blank {text : List Char} (other : ¬ AllBlank text)
    (back : List Char) : trimLeft (text ++ back) = trimLeft text ++ back := by
  have remains : ¬ (text.dropWhile isBlank).isEmpty = true :=
    fun empty => other (trimLeft_eq_nil_iff.mp (List.isEmpty_iff.mp empty))
  rw [trimLeft, List.dropWhile_append, if_neg remains, trimLeft]

theorem trim_append_left {front : List Char} (blank : AllBlank front) (text : List Char) :
    trim (front ++ text) = trim text := by
  rw [trim, trimLeft_append_of_blank blank, trim]

theorem trim_eq_nil_iff {text : List Char} : trim text = [] ↔ AllBlank text := by
  rw [trim, trimRight_eq_nil_iff]
  constructor
  · intro blank
    rw [← leadingBlanks_append_trimLeft text, allBlank_append]
    exact ⟨allBlank_leadingBlanks text, blank⟩
  · intro blank
    rw [trimLeft_eq_nil_iff.mpr blank]
    exact allBlank_nil

theorem trim_append_right {back : List Char} (blank : AllBlank back) (text : List Char) :
    trim (text ++ back) = trim text := by
  by_cases every : AllBlank text
  · rw [trim_eq_nil_iff.mpr every, trim_eq_nil_iff, allBlank_append]
    exact ⟨every, blank⟩
  · rw [trim, trimLeft_append_of_not_blank every, trimRight_append_of_blank blank, trim]

theorem trimLeft_eq_self {text : List Char} (head : ∀ c ∈ text.head?, isBlank c = false) :
    trimLeft text = text := by
  cases text with
  | nil => rfl
  | cons c rest =>
    rw [trimLeft, List.dropWhile_cons_of_neg]
    simp [head c rfl]

theorem leadingBlanks_append_cons {c : Char} (visible : isBlank c = false)
    (front back : List Char) : leadingBlanks (front ++ c :: back) = leadingBlanks front := by
  have stops : ¬ isBlank c = true := by simp [visible]
  rw [leadingBlanks, List.takeWhile_append, List.takeWhile_cons_of_neg stops]
  split
  · rename_i whole
    rw [List.append_nil]
    exact ((List.takeWhile_prefix isBlank).eq_of_length whole).symm
  · rfl

theorem trimLeft_append_cons {c : Char} (visible : isBlank c = false) (front back : List Char) :
    trimLeft (front ++ c :: back) = trimLeft front ++ c :: back := by
  by_cases blank : AllBlank front
  · have start : ∀ d ∈ (c :: back).head?, isBlank d = false := by simp [visible]
    rw [trimLeft_append_of_blank blank, trimLeft_eq_self start, trimLeft_eq_nil_iff.mpr blank,
      List.nil_append]
  · exact trimLeft_append_of_not_blank blank (c :: back)

theorem trimRight_append_cons {c : Char} (visible : isBlank c = false) (front back : List Char) :
    trimRight (front ++ c :: back) = front ++ c :: trimRight back := by
  have mirrored : (front ++ c :: back).reverse = back.reverse ++ c :: front.reverse := by simp
  have cut := trimLeft_append_cons visible back.reverse front.reverse
  rw [trimRight, mirrored]
  exact (congrArg List.reverse cut).trans (by simp [trimLeft, trimRight])

/-- Only the outer ends are trimmed around a character that is no blank. -/
theorem trim_append_cons {c : Char} (visible : isBlank c = false) (front back : List Char) :
    trim (front ++ c :: back) = trimLeft front ++ c :: trimRight back := by
  rw [trim, trimLeft_append_cons visible, trimRight_append_cons visible]

theorem Trimmed.trimLeft_eq {text : List Char} (trimmed : Trimmed text) : trimLeft text = text :=
  trimLeft_eq_self trimmed.head

theorem Trimmed.reverse {text : List Char} (trimmed : Trimmed text) : Trimmed text.reverse where
  head c member := trimmed.last c (by simpa using member)
  last c member := trimmed.head c (by simpa using member)

theorem Trimmed.trim_eq {text : List Char} (trimmed : Trimmed text) : trim text = text := by
  rw [trim, trimmed.trimLeft_eq]
  exact (congrArg List.reverse trimmed.reverse.trimLeft_eq).trans text.reverse_reverse

/-- Trimming takes away exactly the blanks around a trimmed text. -/
theorem Trimmed.trim_surrounded {front text back : List Char} (trimmed : Trimmed text)
    (before : AllBlank front) (behind : AllBlank back) : trim (front ++ text ++ back) = text := by
  rw [trim_append_right behind, trim_append_left before, trimmed.trim_eq]

private theorem head_dropWhile (text : List Char) :
    ∀ c ∈ (text.dropWhile isBlank).head?, isBlank c = false := by
  intro c member
  have found := List.head?_dropWhile_not isBlank text
  rw [Option.mem_def.mp member] at found
  simpa using found

theorem trimmed_trim (text : List Char) : Trimmed (trim text) where
  head c member := by
    obtain ⟨blanks, joined, _⟩ := exists_trim_append text
    apply head_dropWhile text c
    change (trimLeft text).head? = some c
    rw [← joined, List.head?_append, Option.mem_def.mp member, Option.some_or]
  last c member := by
    apply head_dropWhile (trimLeft text).reverse c
    rwa [trim, trimRight, List.getLast?_reverse] at member

theorem exists_surrounded_trim (text : List Char) : ∃ front back,
    front ++ trim text ++ back = text ∧ AllBlank front ∧ AllBlank back := by
  obtain ⟨back, joined, blank⟩ := exists_trim_append text
  refine ⟨leadingBlanks text, back, ?_, allBlank_leadingBlanks text, blank⟩
  rw [List.append_assoc, joined, leadingBlanks_append_trimLeft]

theorem Trimmed.leadingBlanks_eq {text : List Char} (trimmed : Trimmed text) :
    leadingBlanks text = [] := by
  cases text with
  | nil => rfl
  | cons c rest =>
    rw [leadingBlanks, List.takeWhile_cons_of_neg]
    simp [trimmed.head c rfl]

/-- A text whose last character is a digit. -/
def EndsInDigit (text : List Char) : Prop :=
  ∃ c, text.getLast? = some c ∧ c.isDigit = true

theorem endsInDigit_of_digits {text : List Char} (written : text ≠ [])
    (digits : ∀ c ∈ text, c.isDigit = true) : EndsInDigit text := by
  have last := List.getLast?_eq_some_getLast written
  exact ⟨_, last, digits _ (List.mem_of_mem_getLast? last)⟩

theorem EndsInDigit.append {text : List Char} (ends : EndsInDigit text) (front : List Char) :
    EndsInDigit (front ++ text) := by
  obtain ⟨c, last, digit⟩ := ends
  exact ⟨c, by rw [List.getLast?_append, last, Option.some_or], digit⟩

theorem EndsInDigit.ne_nil {text : List Char} (ends : EndsInDigit text) : text ≠ [] := by
  rintro rfl
  obtain ⟨c, last, _⟩ := ends
  cases last

theorem EndsInDigit.trimmed {text : List Char} (ends : EndsInDigit text)
    (starts : ∀ c ∈ text.head?, isBlank c = false) : Trimmed text where
  head := starts
  last c member := by
    obtain ⟨d, last, digit⟩ := ends
    cases member.symm.trans last
    exact isBlank_of_isDigit digit

end Dice.Text
