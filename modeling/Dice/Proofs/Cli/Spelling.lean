import Mathlib
import Dice.Proofs.Cli.Numeral
import Dice.Cli.Command

namespace Dice.Cli

/-- The name of a setting behind two hyphens. -/
def Setting.name : Setting → String
  | times => "times"
  | seed => "seed"
  | maxDice => "max-dice"
  | listLimit => "list-limit"

def Switch.name : Switch → String
  | json => "json"
  | debug => "debug"

namespace Flag

def name : Flag → String
  | setting named => named.name
  | switch named => named.name
  | version => "version"
  | help => "help"

def names : List String :=
  ["times", "seed", "max-dice", "list-limit", "json", "debug", "version", "help"]

/-- The letters that are options behind one hyphen. -/
def letters : List Char := ['n', 'd', 'V', 'h']

variable {flag : Flag} {text : String} {letter : Char}

theorem ofName?_eq_some_iff : ofName? text = some flag ↔ text = flag.name := by
  constructor
  · intro known
    unfold ofName? at known
    split_ifs at known <;> cases known <;> assumption
  · rintro rfl
    rcases flag with (_ | _ | _ | _) | (_ | _) | _ | _ <;> rfl

theorem mem_names_iff : text ∈ names ↔ ∃ flag : Flag, text = flag.name := by
  constructor
  · intro member
    simp only [names, List.mem_cons, List.not_mem_nil, or_false] at member
    rcases member with rfl | rfl | rfl | rfl | rfl | rfl | rfl | rfl
    exacts [⟨setting .times, rfl⟩, ⟨setting .seed, rfl⟩, ⟨setting .maxDice, rfl⟩,
      ⟨setting .listLimit, rfl⟩, ⟨switch .json, rfl⟩, ⟨switch .debug, rfl⟩, ⟨version, rfl⟩,
      ⟨help, rfl⟩]
  · rintro ⟨flag, rfl⟩
    rcases flag with (_ | _ | _ | _) | (_ | _) | _ | _ <;> decide

/-- No name has a blank or an equals sign in it. -/
theorem not_mem_name (flag : Flag) : ' ' ∉ flag.name.toList ∧ '=' ∉ flag.name.toList := by
  rcases flag with (_ | _ | _ | _) | (_ | _) | _ | _ <;> decide

theorem ne_equals (flag : Flag) : ∀ c ∈ flag.name.toList, decide (c ≠ '=') = true :=
  fun _ member => decide_eq_true fun same => flag.not_mem_name.2 (same ▸ member)

theorem name_ne_nil (flag : Flag) : flag.name.toList ≠ [] := by
  rcases flag with (_ | _ | _ | _) | (_ | _) | _ | _ <;> decide

theorem ofLetter?_eq_some_iff : ofLetter? letter = some flag ↔
    (letter, flag) ∈ [('n', .setting .times), ('d', .switch .debug), ('V', .version),
      ('h', .help)] := by
  unfold ofLetter?
  split <;> simp_all [eq_comm]

theorem mem_letters_iff : letter ∈ letters ↔ ∃ flag, ofLetter? letter = some flag := by
  unfold ofLetter?
  split <;> simp_all [letters]

theorem not_isDigit_of_mem_letters (member : letter ∈ letters) : letter.isDigit = false := by
  simp only [letters, List.mem_cons, List.not_mem_nil, or_false] at member
  rcases member with rfl | rfl | rfl | rfl <;> rfl

end Flag

namespace Argument

theorem ofLong_ne_word (flag : Flag) (value : Option String) : ofLong flag value ≠ word := by
  rcases flag with _ | _ | _ | _ <;> cases value <;> exact nofun

theorem ofLong_ne_endOfOptions (flag : Flag) (value : Option String) :
    ofLong flag value ≠ endOfOptions := by
  rcases flag with _ | _ | _ | _ <;> cases value <;> exact nofun

theorem ofName?_name (flag : Flag) : ofName? flag.name.toList = some (ofLong flag none) := by
  have name := List.takeWhile_eq_self_iff.mpr flag.ne_equals
  have rest := List.dropWhile_eq_nil_iff.mpr flag.ne_equals
  simp only [ofName?, name, rest, String.ofList_toList]
  rw [Flag.ofName?_eq_some_iff.mpr rfl]
  rfl

theorem ofName?_joined (flag : Flag) (value : List Char) :
    ofName? (flag.name.toList ++ '=' :: value) =
      some (ofLong flag (some (String.ofList value))) := by
  have name : (flag.name.toList ++ '=' :: value).takeWhile (· ≠ '=') = flag.name.toList := by
    rw [List.takeWhile_append_of_pos flag.ne_equals]
    simp
  have rest : (flag.name.toList ++ '=' :: value).dropWhile (· ≠ '=') = '=' :: value := by
    rw [List.dropWhile_append_of_pos flag.ne_equals]
    simp
  simp only [ofName?, name, rest, String.ofList_toList]
  rw [Flag.ofName?_eq_some_iff.mpr rfl]
  rfl

theorem ofName?_eq_some_iff {chars : List Char} {argument : Argument} :
    ofName? chars = some argument ↔ ∃ flag : Flag,
      (chars = flag.name.toList ∧ argument = ofLong flag none) ∨
        ∃ value, chars = flag.name.toList ++ '=' :: value ∧
          argument = ofLong flag (some (String.ofList value)) := by
  constructor
  · intro named
    simp only [ofName?, Option.map_eq_some_iff, Flag.ofName?_eq_some_iff] at named
    obtain ⟨flag, known, rfl⟩ := named
    have front : chars.takeWhile (· ≠ '=') = flag.name.toList := by
      rw [← known, String.toList_ofList]
    have split := List.takeWhile_append_dropWhile (p := (· ≠ '=')) (l := chars)
    rw [front] at split
    cases behind : chars.dropWhile (· ≠ '=') with
    | nil =>
      rw [behind, List.append_nil] at split
      exact ⟨flag, .inl ⟨split.symm, rfl⟩⟩
    | cons equals value =>
      have sign : equals = '=' := by
        have stops := List.head_dropWhile_not (· ≠ '=') (by rw [behind]; exact nofun)
        simp only [behind] at stops
        exact Decidable.not_not.mp (of_decide_eq_false stops)
      rw [behind, sign] at split
      exact ⟨flag, .inr ⟨value, split.symm, rfl⟩⟩
  · rintro ⟨flag, ⟨rfl, rfl⟩ | ⟨value, rfl, rfl⟩⟩
    · exact ofName?_name flag
    · exact ofName?_joined flag value

theorem mapM_letters_eq_some_iff {letters : List Char} {flags : List (Char × Flag)} :
    (letters.mapM fun letter => (Flag.ofLetter? letter).map (letter, ·)) = some flags ↔
      letters = flags.map Prod.fst ∧ ∀ pair ∈ flags, Flag.ofLetter? pair.1 = some pair.2 := by
  induction letters generalizing flags with
  | nil => cases flags <;> simp
  | cons letter letters ih =>
    cases flags with
    | nil => simp [List.mapM_cons, Option.bind_eq_some_iff]
    | cons pair flags =>
      obtain ⟨first, flag⟩ := pair
      simp only [List.mapM_cons, Option.bind_eq_bind, Option.bind_eq_some_iff, ih, pure,
        Option.map_eq_some_iff, Option.some.injEq, List.cons.injEq, List.map_cons,
        List.forall_mem_cons]
      constructor
      · rintro ⟨_, ⟨flag, known, rfl⟩, flags, ⟨rfl, others⟩, ⟨rfl, rfl⟩, rfl⟩
        exact ⟨⟨rfl, rfl⟩, known, others⟩
      · rintro ⟨⟨rfl, rfl⟩, known, others⟩
        exact ⟨_, ⟨flag, known, rfl⟩, flags, ⟨rfl, others⟩, rfl, rfl⟩

/-- How an argument is read that is no word. -/
inductive Reads : List Char → Argument → Prop where
  | endOfOptions : Reads ['-', '-'] endOfOptions
  | name (flag : Flag) : Reads ('-' :: '-' :: flag.name.toList) (ofLong flag none)
  | joined (flag : Flag) (value : List Char) :
      Reads ('-' :: '-' :: (flag.name.toList ++ '=' :: value))
        (ofLong flag (some (String.ofList value)))
  | letters {flags : List (Char × Flag)} (nonempty : flags ≠ [])
      (known : ∀ pair ∈ flags, Flag.ofLetter? pair.1 = some pair.2) :
      Reads ('-' :: flags.map Prod.fst) (options (ofLetters flags).1 (ofLetters flags).2)

variable {text : String} {argument : Argument}

theorem ofString_name {rest : List Char} (nonempty : rest ≠ [])
    (chars : text.toList = '-' :: '-' :: rest) : ofString text = (ofName? rest).getD word := by
  obtain ⟨c, rest, rfl⟩ := List.exists_cons_of_ne_nil nonempty
  unfold ofString
  rw [chars]
  rfl

theorem ofString_letters {letter : Char} {letters : List Char}
    (chars : text.toList = '-' :: letter :: letters) (other : letter ≠ '-') :
    ofString text = (ofLetters? (letter :: letters)).getD word := by
  unfold ofString
  rw [chars]
  split <;> simp_all

theorem ofString_eq_of_reads (reads : Reads text.toList argument) : ofString text = argument := by
  generalize chars : text.toList = all at reads
  cases reads with
  | endOfOptions =>
    unfold ofString
    rw [chars]
    rfl
  | name flag =>
    rw [ofString_name flag.name_ne_nil chars, ofName?_name]
    rfl
  | joined flag value =>
    rw [ofString_name (List.append_ne_nil_of_left_ne_nil flag.name_ne_nil _) chars,
      ofName?_joined]
    rfl
  | @letters flags nonempty known =>
    obtain ⟨⟨letter, flag⟩, others, rfl⟩ := List.exists_cons_of_ne_nil nonempty
    have first : Flag.ofLetter? letter = some flag := known _ List.mem_cons_self
    have other : letter ≠ '-' := by
      rintro rfl
      cases first
    rw [ofString_letters chars other, ofLetters?,
      mapM_letters_eq_some_iff.mpr ⟨List.map_cons.symm, known⟩]
    rfl

theorem ofString_flag (flag : Flag) : ofString ("--" ++ flag.name) = ofLong flag none :=
  ofString_eq_of_reads (by simpa using Reads.name flag)

theorem ofString_flag_value (flag : Flag) (value : String) :
    ofString ("--" ++ flag.name ++ "=" ++ value) = ofLong flag (some value) :=
  ofString_eq_of_reads (by simpa using Reads.joined flag value.toList)

theorem reads_of_ofString_eq (read : ofString text = argument) (other : argument ≠ word) :
    Reads text.toList argument := by
  unfold ofString at read
  split at read
  · rename_i chars
    rw [chars, ← read]
    exact .endOfOptions
  · rename_i rest _ chars
    cases named : ofName? rest with
    | none =>
      rw [named] at read
      exact absurd read.symm other
    | some found =>
      rw [named] at read
      cases read
      rw [chars]
      obtain ⟨flag, ⟨rfl, rfl⟩ | ⟨value, rfl, rfl⟩⟩ := ofName?_eq_some_iff.mp named
      · exact .name flag
      · exact .joined flag value
  · rename_i letter letters _ _ chars
    cases found : (letter :: letters).mapM fun letter =>
        (Flag.ofLetter? letter).map (letter, ·) with
    | none =>
      rw [ofLetters?, found] at read
      exact absurd read.symm other
    | some flags =>
      rw [ofLetters?, found] at read
      cases read
      obtain ⟨same, known⟩ := mapM_letters_eq_some_iff.mp found
      have nonempty : flags ≠ [] := by
        rintro rfl
        cases same
      rw [chars, same]
      exact .letters nonempty known
  · exact absurd read.symm other

theorem eq_of_ofString_eq_endOfOptions (ended : ofString text = endOfOptions) : text = "--" := by
  have reads := reads_of_ofString_eq ended nofun
  generalize chars : text.toList = all at reads
  generalize meaning : endOfOptions = found at reads
  cases reads with
  | endOfOptions => exact String.toList_inj.mp chars
  | name flag => exact absurd meaning.symm (ofLong_ne_endOfOptions flag none)
  | joined flag value => exact absurd meaning.symm (ofLong_ne_endOfOptions flag _)
  | letters nonempty known => cases meaning

/-- Arguments that are no words: the end of the options, and options by their names, with a value or
without one, or by their letters. -/
inductive Reserved (text : String) : Prop where
  | endOfOptions (same : text = "--")
  | name {name : String} (known : name ∈ Flag.names) (same : text = "--" ++ name)
  | joined {name value : String} (known : name ∈ Flag.names)
      (same : text = "--" ++ name ++ "=" ++ value)
  | letters {letters : List Char} (nonempty : letters ≠ [])
      (known : ∀ letter ∈ letters, letter ∈ Flag.letters) (chars : text.toList = '-' :: letters)

theorem Reserved.not_isDigit (reserved : Reserved text) :
    ∀ c ∈ text.toList.take 2, c.isDigit = false := by
  have hyphen : '-'.isDigit = false := rfl
  cases reserved with
  | endOfOptions same => simp [same, hyphen]
  | name known same => simp [same, hyphen]
  | joined known same => simp [same, hyphen]
  | @letters letters nonempty known chars =>
    obtain ⟨letter, others, rfl⟩ := List.exists_cons_of_ne_nil nonempty
    rw [chars]
    have first := Flag.not_isDigit_of_mem_letters (known letter List.mem_cons_self)
    simp [first, hyphen]

theorem Reads.ne_word {chars : List Char} (reads : Reads chars argument) : argument ≠ word := by
  cases reads with
  | endOfOptions => exact nofun
  | name flag => exact ofLong_ne_word flag none
  | joined flag value => exact ofLong_ne_word flag _
  | letters nonempty known => exact nofun

theorem Reads.reserved (reads : Reads text.toList argument) : Reserved text := by
  generalize chars : text.toList = all at reads
  cases reads with
  | endOfOptions => exact .endOfOptions (String.toList_inj.mp chars)
  | name flag =>
    refine .name (Flag.mem_names_iff.mpr ⟨flag, rfl⟩) (String.toList_inj.mp ?_)
    simp [chars]
  | joined flag value =>
    have known := Flag.mem_names_iff.mpr ⟨flag, rfl⟩
    have same : text = "--" ++ flag.name ++ "=" ++ String.ofList value :=
      String.toList_inj.mp (by simp [chars])
    exact .joined known same
  | @letters flags nonempty known =>
    refine .letters (mt List.map_eq_nil_iff.mp nonempty) (fun letter member => ?_) chars
    obtain ⟨pair, present, rfl⟩ := List.mem_map.mp member
    exact Flag.mem_letters_iff.mpr ⟨pair.2, known pair present⟩

theorem exists_flags {letters : List Char} (known : ∀ letter ∈ letters, letter ∈ Flag.letters) :
    ∃ flags : List (Char × Flag), letters = flags.map Prod.fst ∧
      ∀ pair ∈ flags, Flag.ofLetter? pair.1 = some pair.2 := by
  induction letters with
  | nil => exact ⟨[], rfl, nofun⟩
  | cons letter letters ih =>
    rw [List.forall_mem_cons] at known
    obtain ⟨flag, first⟩ := Flag.mem_letters_iff.mp known.1
    obtain ⟨flags, rfl, others⟩ := ih known.2
    exact ⟨(letter, flag) :: flags, rfl, List.forall_mem_cons.mpr ⟨first, others⟩⟩

theorem Reserved.exists_reads (reserved : Reserved text) :
    ∃ argument, Reads text.toList argument := by
  cases reserved with
  | endOfOptions same =>
    rw [same]
    exact ⟨_, Reads.endOfOptions⟩
  | name known same =>
    obtain ⟨flag, rfl⟩ := Flag.mem_names_iff.mp known
    have chars : text.toList = '-' :: '-' :: flag.name.toList := by simp [same]
    rw [chars]
    exact ⟨_, Reads.name flag⟩
  | @joined name value known same =>
    obtain ⟨flag, rfl⟩ := Flag.mem_names_iff.mp known
    have chars : text.toList = '-' :: '-' :: (flag.name.toList ++ '=' :: value.toList) := by
      simp [same]
    rw [chars]
    exact ⟨_, Reads.joined flag value.toList⟩
  | letters nonempty known chars =>
    obtain ⟨flags, rfl, read⟩ := exists_flags known
    rw [chars]
    exact ⟨_, Reads.letters (mt (congrArg (List.map Prod.fst)) nonempty) read⟩

/-- The arguments that are words are all others. -/
theorem ofString_eq_word_iff : ofString text = word ↔ ¬ Reserved text := by
  constructor
  · intro read reserved
    obtain ⟨argument, reads⟩ := reserved.exists_reads
    exact reads.ne_word ((ofString_eq_of_reads reads).symm.trans read)
  · intro free
    by_contra other
    exact free (reads_of_ofString_eq rfl other).reserved

end Argument

end Dice.Cli
