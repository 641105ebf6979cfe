import Dice.Proofs.Cli.Numeral
import Dice.Proofs.Cli.Options

/-!
Command lines as they are written.

An option that is spelled in one of the ways there are gives its own setting its value, or turns its
own switch on, and can do so once. The command lines that ask for a roll are those made of such
options and of words behind them.
-/

namespace Dice.Cli

/-- The ways to write an option with its value. -/
inductive Spelled (value : String) : Setting → List String → Prop where
  | letter : Spelled value .times ["-n", value]
  | apart (setting : Setting) : Spelled value setting ["--" ++ setting.name, value]
  | joined (setting : Setting) : Spelled value setting ["--" ++ setting.name ++ "=" ++ value]

namespace Settings

/-- The settings with one more value, for which a numeral stands. -/
inductive Given (settings : Settings) (value : String) : Setting → Settings → Prop where
  | times {count : Nat} (fresh : settings.times = none)
      (numeral : Numeral.Signed (UInt32.size - 1) value.toList count) :
      Given settings value .times { settings with times := some count }
  | seed {seed : UInt64} (fresh : settings.seed = none)
      (numeral : Numeral.Unsigned (UInt64.size - 1) value.toList seed.toNat) :
      Given settings value .seed { settings with seed := some seed }
  | maxDice {limit : UInt32} (fresh : settings.maxDice = none)
      (numeral : Numeral.Signed (UInt32.size - 1) value.toList limit.toNat) :
      Given settings value .maxDice { settings with maxDice := some limit }
  | listLimit {limit : Nat} (fresh : settings.listLimit = none)
      (numeral : Numeral.Unsigned (UInt64.size - 1) value.toList limit) :
      Given settings value .listLimit { settings with listLimit := some limit }

/-- The settings with one more option, and how it is written. -/
inductive Step : Settings → List String → Settings → Prop where
  | json {settings : Settings} (fresh : settings.json = false) :
      Step settings ["--json"] { settings with json := true }
  | debug {settings : Settings} {argument : String} (fresh : settings.debug = false)
      (spelled : argument ∈ ["-d", "--debug"]) :
      Step settings [argument] { settings with debug := true }
  | value {settings next : Settings} {setting : Setting} {value : String} {written : List String}
      (spelled : Spelled value setting written) (given : Given settings value setting next) :
      Step settings written next
  /-- Two letters behind one hyphen. -/
  | letters {settings next : Settings} {value : String} (fresh : settings.debug = false)
      (given : Given { settings with debug := true } value .times next) :
      Step settings ["-dn", value] next

/-- The settings with all the options that are written. -/
inductive Steps : Settings → List String → Settings → Prop where
  | nil {settings : Settings} : Steps settings [] settings
  | cons {settings next final : Settings} {written others : List String}
      (first : Step settings written next) (rest : Steps next others final) :
      Steps settings (written ++ others) final

end Settings

/-- What stands behind the options, and the words in it: the first of them is no option, or stands
behind a mark. -/
inductive Behind : List String → List String → Prop where
  | words {words : List String} (free : ∀ first ∈ words.head?, ¬ Argument.Reserved first) :
      Behind words words
  | marked (words : List String) : Behind ("--" :: words) words

/-- A command line that asks for a roll of the expression made of these words, and the settings that
its options give. -/
inductive CommandLine : List String → Settings → List String → Prop where
  | intro {options rest words : List String} {settings : Settings}
      (steps : Settings.Steps {} options settings) (behind : Behind rest words) :
      CommandLine (options ++ rest) settings words

/-- No numeral looks like an option, although it may start with a hyphen. -/
theorem Numeral.Signed.ofString_eq_word {max value : Nat} {text : String}
    (numeral : Signed max text.toList value) : Argument.ofString text = .word := by
  rw [Argument.ofString_eq_word_iff]
  intro reserved
  obtain ⟨c, member, digit⟩ := numeral.exists_digit
  rw [reserved.not_isDigit c member] at digit
  cases digit

namespace Settings

variable {settings next : Settings} {setting : Setting} {value : String}

private theorem map_eq_ok_iff {α β ε : Type} {found : Except ε α} {f : α → β} {result : β} :
    found.map f = .ok result ↔ ∃ a, found = .ok a ∧ f a = result := by
  cases found <;> simp [Except.map]

private theorem size_lt : UInt32.size - 1 < UInt64.size / 2 := by decide

theorem read_eq_ok_iff (fresh : settings.has setting ≠ true) :
    settings.read setting value.toList = .ok next ↔ settings.Given value setting next := by
  rw [has.eq_def] at fresh
  cases setting with
  | times =>
    rw [read, map_eq_ok_iff]
    simp only [Numeral.readRanged_eq_ok_iff size_lt]
    constructor
    · rintro ⟨count, numeral, rfl⟩
      exact .times (Option.not_isSome_iff_eq_none.mp fresh) numeral
    · intro given
      cases given with
      | times _ numeral => exact ⟨_, numeral, rfl⟩
  | seed =>
    rw [read, map_eq_ok_iff]
    simp only [Numeral.readNat_eq_ok_iff]
    constructor
    · rintro ⟨seed, numeral, rfl⟩
      have below : seed < UInt64.size := Nat.lt_of_le_pred (by decide) numeral.le_max
      refine .seed (Option.not_isSome_iff_eq_none.mp fresh) ?_
      rwa [Nat.toUInt64, UInt64.toNat_ofNat_of_lt' below]
    · intro given
      cases given with
      | @seed seed _ numeral => exact ⟨_, numeral, by simp⟩
  | maxDice =>
    rw [read, map_eq_ok_iff]
    simp only [Numeral.readRanged_eq_ok_iff size_lt]
    constructor
    · rintro ⟨limit, numeral, rfl⟩
      have below : limit < UInt32.size := Nat.lt_of_le_pred (by decide) numeral.le_max
      refine .maxDice (Option.not_isSome_iff_eq_none.mp fresh) ?_
      rwa [Nat.toUInt32, UInt32.toNat_ofNat_of_lt' below]
    · intro given
      cases given with
      | maxDice _ numeral => exact ⟨_, numeral, by simp⟩
  | listLimit =>
    rw [read, map_eq_ok_iff]
    simp only [Numeral.readNat_eq_ok_iff]
    constructor
    · rintro ⟨limit, numeral, rfl⟩
      exact .listLimit (Option.not_isSome_iff_eq_none.mp fresh) numeral
    · intro given
      cases given with
      | listLimit _ numeral => exact ⟨_, numeral, rfl⟩

theorem give_eq_ok_iff :
    settings.give setting value = .ok next ↔ settings.Given value setting next := by
  unfold give
  split_ifs with known
  · refine iff_of_false nofun fun given => ?_
    cases given <;> simp_all [has]
  · rw [← read_eq_ok_iff known]
    cases settings.read setting value.toList <;> simp [Except.mapError]

theorem turnOn_json_eq_ok_iff : settings.turnOn .json = .ok next ↔
    settings.json = false ∧ next = { settings with json := true } := by
  rw [turnOn]
  split_ifs with known <;> simp [known, eq_comm]

theorem turnOn_debug_eq_ok_iff : settings.turnOn .debug = .ok next ↔
    settings.debug = false ∧ next = { settings with debug := true } := by
  rw [turnOn]
  split_ifs with known <;> simp [known, eq_comm]

theorem Given.exists_numeral (given : settings.Given value setting next) :
    ∃ max n, Numeral.Signed max value.toList n := by
  cases given with
  | times _ numeral => exact ⟨_, _, numeral⟩
  | seed _ numeral => exact ⟨_, _, .unsigned numeral⟩
  | maxDice _ numeral => exact ⟨_, _, numeral⟩
  | listLimit _ numeral => exact ⟨_, _, .unsigned numeral⟩

theorem Given.ofString_eq_word (given : settings.Given value setting next) :
    Argument.ofString value = .word := by
  obtain ⟨max, n, numeral⟩ := given.exists_numeral
  exact numeral.ofString_eq_word

end Settings

namespace Command

open Request

/-- What the rest of a command line asks for, with a setting in front of it that is still to be
given, and these that have been. -/
def ofRest (awaiting : Option Awaiting) (settings : Settings) (arguments : List String) :
    Except UsageError Command :=
  let gathered := gather awaiting arguments
  ofRequests gathered.2 settings gathered.1

theorem ofRest_start (arguments : List String) : ofRest none {} arguments = ofArguments arguments :=
  rfl

variable {settings final : Settings} {words : List String} {argument value : String}
  {others rest : List String} {setting : Setting}

theorem exists_surplus_of_not_follows (unlike : ¬ Follows false rest) :
    ∃ argument others flag value, rest = argument :: others ∧
      Argument.ofString argument = .surplus flag value := by
  cases rest with
  | nil => exact absurd (fun _ absent => nomatch absent) unlike
  | cons argument others =>
    by_contra unrefused
    refine unlike fun first same => ?_
    cases same
    refine ⟨fun _ => rfl, fun flag value refused => ?_⟩
    exact unrefused ⟨argument, others, flag, value, rfl, refused⟩

theorem ofRequests_append_eq_ok_iff {front back : List Request} :
    ofRequests words settings (front ++ back) = .ok (roll final others) ↔
      ∃ next, ofRequests [] settings front = .ok (roll next []) ∧
        ofRequests words next back = .ok (roll final others) := by
  induction front generalizing settings with
  | nil => simp [ofRequests]
  | cons request front ih =>
    cases request with
    | version => simp [ofRequests]
    | help => simp [ofRequests]
    | lack setting => simp [ofRequests]
    | surplus flag value => simp [ofRequests]
    | assign setting value =>
      simp only [List.cons_append, ofRequests]
      cases settings.give setting value with
      | error error => simp
      | ok next => exact ih
    | turnOn switch =>
      simp only [List.cons_append, ofRequests]
      cases settings.turnOn switch with
      | error error => simp
      | ok next => exact ih

theorem ofRest_word (word : Argument.ofString argument = .word) :
    ofRest none settings (argument :: others) = .ok (roll settings (argument :: others)) := by
  rw [ofRest, gather_word word rfl]
  rfl

theorem ofRest_endOfOptions (ended : Argument.ofString argument = .endOfOptions) :
    ofRest none settings (argument :: others) = .ok (roll settings others) := by
  rw [ofRest, gather_endOfOptions ended]
  rfl

theorem ofRest_surplus {awaiting : Option Awaiting} {flag : Flag}
    (option : Argument.ofString argument = .surplus flag value) :
    ofRest awaiting settings (argument :: others) =
      .error (.surplusValue flag.label value) := by
  rw [ofRest, gather_surplus option]
  rfl

theorem ofRest_option_eq_ok_iff {requests : List Request} {next : Option Setting}
    (option : Argument.ofString argument = .options requests next) :
    ofRest none settings (argument :: others) = .ok (roll final words) ↔
      ∃ middle, ofRequests [] settings requests = .ok (roll middle []) ∧
        ofRest (next.map fun setting => { setting }) middle others = .ok (roll final words) := by
  rw [ofRest, gather_option option]
  exact ofRequests_append_eq_ok_iff

/-- A value is given before anything that follows it is met. -/
theorem ofRest_valued_eq_ok_iff :
    ofRest (some ⟨setting, some value⟩) settings rest = .ok (roll final words) ↔
      ∃ next, settings.give setting value = .ok next ∧
        ofRest none next rest = .ok (roll final words) := by
  by_cases follows : Follows false rest
  · rw [ofRest, gather_of_follows (some ⟨setting, some value⟩) follows]
    change ofRequests _ settings (.assign setting value :: _) = _ ↔ _
    rw [ofRequests]
    cases settings.give setting value with
    | error error => simp
    | ok next =>
      simp only [Except.ok.injEq, exists_eq_left']
      rfl
  · obtain ⟨argument, others, flag, surplus, rfl, refused⟩ := exists_surplus_of_not_follows follows
    simp [ofRest_surplus refused]

/-- A setting takes its value from the next argument, which must be a word. -/
theorem ofRest_waiting_eq_ok_iff :
    ofRest (some ⟨setting, none⟩) settings rest = .ok (roll final words) ↔
      ∃ value others, rest = value :: others ∧ Argument.ofString value = .word ∧
        ofRest (some ⟨setting, some value⟩) settings others = .ok (roll final words) := by
  cases rest with
  | nil => simp [ofRest, gather, Awaiting.request, ofRequests]
  | cons argument others =>
    cases meaning : Argument.ofString argument with
    | word => simp [ofRest, gather_value meaning, meaning]
    | endOfOptions =>
      rw [ofRest, gather_endOfOptions meaning]
      simp [Awaiting.request, ofRequests, meaning]
    | options requests next =>
      rw [ofRest, gather_option meaning]
      simp [Awaiting.request, ofRequests, meaning]
    | surplus flag surplus => simp [ofRest_surplus meaning, meaning]

theorem ofRest_apart_eq_ok_iff {requests : List Request}
    (option : Argument.ofString argument = .options requests (some setting))
    (word : Argument.ofString value = .word) :
    ofRest none settings (argument :: value :: rest) = .ok (roll final words) ↔
      ∃ middle, ofRequests [] settings requests = .ok (roll middle []) ∧
        ∃ next, middle.give setting value = .ok next ∧
          ofRest none next rest = .ok (roll final words) := by
  rw [ofRest_option_eq_ok_iff option]
  simp [ofRest_waiting_eq_ok_iff, ofRest_valued_eq_ok_iff, word]

theorem exists_value
    (asked : ofRest (some ⟨setting, none⟩) settings others = .ok (roll final words)) :
    ∃ value rest next, others = value :: rest ∧ settings.Given value setting next := by
  obtain ⟨value, rest, same, -, asked⟩ := ofRest_waiting_eq_ok_iff.mp asked
  obtain ⟨next, given, -⟩ := ofRest_valued_eq_ok_iff.mp asked
  exact ⟨value, rest, next, same, Settings.give_eq_ok_iff.mp given⟩

theorem ofRequests_assign_eq_ok_iff :
    ofRequests [] settings [.assign setting value] = .ok (roll final []) ↔
      settings.give setting value = .ok final := by
  rw [ofRequests]
  cases settings.give setting value <;> simp [ofRequests]

theorem ofRequests_turnOn_eq_ok_iff {switch : Switch} :
    ofRequests [] settings [.turnOn switch] = .ok (roll final []) ↔
      settings.turnOn switch = .ok final := by
  rw [ofRequests]
  cases settings.turnOn switch <;> simp [ofRequests]

end Command

open Command

variable {settings next final : Settings} {words written rest : List String} {value : String}
  {setting : Setting}

theorem Spelled.ofRest_eq_ok_iff (spelled : Spelled value setting written)
    (word : Argument.ofString value = .word) :
    ofRest none settings (written ++ rest) = .ok (.roll final words) ↔
      ∃ next, settings.give setting value = .ok next ∧
        ofRest none next rest = .ok (.roll final words) := by
  cases spelled with
  | letter =>
    have option : Argument.ofString "-n" = .options [] (some .times) := rfl
    exact (ofRest_apart_eq_ok_iff option word).trans (by simp [ofRequests])
  | apart setting =>
    have option : Argument.ofString ("--" ++ setting.name) = .options [] (some setting) :=
      Argument.ofString_flag (.setting setting)
    exact (ofRest_apart_eq_ok_iff option word).trans (by simp [ofRequests])
  | joined setting =>
    have option : Argument.ofString ("--" ++ setting.name ++ "=" ++ value) =
        .options [.assign setting value] none :=
      Argument.ofString_flag_value (.setting setting) value
    rw [List.singleton_append, ofRest_option_eq_ok_iff option]
    simp only [ofRequests_assign_eq_ok_iff, Option.map_none]

theorem Settings.Step.ofRest_eq_ok_iff (step : Step settings written next) :
    ofRest none settings (written ++ rest) = .ok (.roll final words) ↔
      ofRest none next rest = .ok (.roll final words) := by
  cases step with
  | json fresh =>
    have option : Argument.ofString "--json" = .options [.turnOn .json] none := rfl
    rw [List.singleton_append, ofRest_option_eq_ok_iff option]
    simp [ofRequests_turnOn_eq_ok_iff, turnOn_json_eq_ok_iff, fresh]
  | @debug argument fresh spelled =>
    have option : Argument.ofString argument = .options [.turnOn .debug] none := by
      simp only [List.mem_cons, List.not_mem_nil, or_false] at spelled
      rcases spelled with rfl | rfl <;> rfl
    rw [List.singleton_append, ofRest_option_eq_ok_iff option]
    simp [ofRequests_turnOn_eq_ok_iff, turnOn_debug_eq_ok_iff, fresh]
  | value spelled given =>
    rw [spelled.ofRest_eq_ok_iff given.ofString_eq_word]
    simp [give_eq_ok_iff.mpr given]
  | letters fresh given =>
    have option : Argument.ofString "-dn" = .options [.turnOn .debug] (some .times) := rfl
    refine (ofRest_apart_eq_ok_iff option given.ofString_eq_word).trans ?_
    simp [ofRequests_turnOn_eq_ok_iff, turnOn_debug_eq_ok_iff, fresh, give_eq_ok_iff.mpr given]

theorem Settings.Steps.ofRest_eq_ok_iff (steps : Steps settings written next) :
    ofRest none settings (written ++ rest) = .ok (.roll final words) ↔
      ofRest none next rest = .ok (.roll final words) := by
  induction steps with
  | nil => exact Iff.rfl
  | cons first rest ih => rw [List.append_assoc, first.ofRest_eq_ok_iff, ih]

theorem Behind.ofRest_eq (behind : Behind rest words) :
    ofRest none settings rest = .ok (.roll settings words) := by
  cases behind with
  | marked words => exact ofRest_endOfOptions rfl
  | words free =>
    cases words with
    | nil => rfl
    | cons first others =>
      exact ofRest_word (Argument.ofString_eq_word_iff.mpr (free first rfl))

namespace Argument

/-- The letter for the rounds is the last there is: no other letters would be a number of them. -/
theorem letters_of_times {flags : List (Char × Flag)}
    (known : ∀ pair ∈ flags, Flag.ofLetter? pair.1 = some pair.2)
    (taken : ofRequests [] settings (ofLetters (('n', .setting .times) :: flags)).1 =
      .ok (.roll final [])) : flags = [] := by
  cases flags with
  | nil => rfl
  | cons pair flags =>
    exfalso
    change ofRequests [] settings
      [.assign .times (String.ofList ((pair :: flags).map Prod.fst))] = _ at taken
    rw [ofRequests_assign_eq_ok_iff, Settings.give_eq_ok_iff] at taken
    obtain ⟨max, n, numeral⟩ := taken.exists_numeral
    obtain ⟨c, member, digit⟩ := numeral.exists_digit
    have present := List.mem_of_mem_take member
    rw [String.toList_ofList] at present
    obtain ⟨pair, inside, rfl⟩ := List.mem_map.mp present
    have letter := Flag.mem_letters_iff.mpr ⟨pair.2, known pair inside⟩
    rw [Flag.not_isDigit_of_mem_letters letter] at digit
    cases digit

/-- The letters that can stand together in a command line that asks for a roll. -/
theorem letters_of_roll {flags : List (Char × Flag)} (nonempty : flags ≠ [])
    (known : ∀ pair ∈ flags, Flag.ofLetter? pair.1 = some pair.2)
    (taken : ofRequests [] settings (ofLetters flags).1 = .ok (.roll final [])) :
    flags = [('n', .setting .times)] ∨ flags = [('d', .switch .debug)] ∨
      flags = [('d', .switch .debug), ('n', .setting .times)] := by
  obtain ⟨⟨letter, flag⟩, flags, rfl⟩ := List.exists_cons_of_ne_nil nonempty
  obtain ⟨first, others⟩ := List.forall_mem_cons.mp known
  simp only [Flag.ofLetter?_eq_some_iff, List.mem_cons, Prod.mk.injEq, List.not_mem_nil,
    or_false] at first
  rcases first with ⟨rfl, rfl⟩ | ⟨rfl, rfl⟩ | ⟨rfl, rfl⟩ | ⟨rfl, rfl⟩
  · exact .inl (by rw [letters_of_times others taken])
  · change ofRequests [] settings ([.turnOn .debug] ++ (ofLetters flags).1) = _ at taken
    obtain ⟨middle, on, taken⟩ := ofRequests_append_eq_ok_iff.mp taken
    rw [ofRequests_turnOn_eq_ok_iff, Settings.turnOn_debug_eq_ok_iff] at on
    obtain ⟨-, rfl⟩ := on
    rcases flags with - | ⟨⟨letter, flag⟩, flags⟩
    · exact .inr (.inl rfl)
    · obtain ⟨second, last⟩ := List.forall_mem_cons.mp others
      simp only [Flag.ofLetter?_eq_some_iff, List.mem_cons, Prod.mk.injEq, List.not_mem_nil,
        or_false] at second
      rcases second with ⟨rfl, rfl⟩ | ⟨rfl, rfl⟩ | ⟨rfl, rfl⟩ | ⟨rfl, rfl⟩
      · exact .inr (.inr (by rw [letters_of_times last taken]))
      all_goals cases taken
  all_goals cases taken

end Argument

namespace Settings

variable {argument : String} {others : List String}

theorem exists_step_of_name (flag : Flag)
    (asked : ofRest none settings (("--" ++ flag.name) :: others) = .ok (.roll final words)) :
    ∃ written rest next, ("--" ++ flag.name) :: others = written ++ rest ∧
      Step settings written next := by
  have option := Argument.ofString_flag flag
  rcases flag with setting | (_ | _) | _ | _
  · rw [ofRest_option_eq_ok_iff option] at asked
    obtain ⟨middle, same, asked⟩ := asked
    cases same
    obtain ⟨value, rest, next, rfl, given⟩ := exists_value asked
    exact ⟨["--" ++ setting.name, value], rest, next, rfl, .value (.apart setting) given⟩
  · obtain ⟨middle, taken, -⟩ := (ofRest_option_eq_ok_iff option).mp asked
    rw [ofRequests_turnOn_eq_ok_iff, turnOn_json_eq_ok_iff] at taken
    exact ⟨["--json"], others, _, rfl, .json taken.1⟩
  · obtain ⟨middle, taken, -⟩ := (ofRest_option_eq_ok_iff option).mp asked
    rw [ofRequests_turnOn_eq_ok_iff, turnOn_debug_eq_ok_iff] at taken
    exact ⟨["--debug"], others, _, rfl, .debug taken.1 (by simp)⟩
  all_goals
    obtain ⟨middle, taken, -⟩ := (ofRest_option_eq_ok_iff option).mp asked
    cases taken

theorem exists_step_of_joined (flag : Flag) (value : String)
    (asked : ofRest none settings (("--" ++ flag.name ++ "=" ++ value) :: others) =
      .ok (.roll final words)) :
    ∃ written rest next, ("--" ++ flag.name ++ "=" ++ value) :: others = written ++ rest ∧
      Step settings written next := by
  have option := Argument.ofString_flag_value flag value
  rcases flag with setting | _ | _ | _
  · obtain ⟨middle, taken, -⟩ := (ofRest_option_eq_ok_iff option).mp asked
    rw [ofRequests_assign_eq_ok_iff] at taken
    exact ⟨_, others, middle, rfl, .value (.joined setting) (give_eq_ok_iff.mp taken)⟩
  all_goals
    rw [ofRest_surplus option] at asked
    cases asked

theorem exists_step_of_letters {flags : List (Char × Flag)} (nonempty : flags ≠ [])
    (known : ∀ pair ∈ flags, Flag.ofLetter? pair.1 = some pair.2)
    (chars : argument.toList = '-' :: flags.map Prod.fst)
    (asked : ofRest none settings (argument :: others) = .ok (.roll final words)) :
    ∃ written rest next, argument :: others = written ++ rest ∧ Step settings written next := by
  have option := Argument.ofString_eq_of_reads (chars ▸ Argument.Reads.letters nonempty known)
  obtain ⟨middle, taken, asked⟩ := (ofRest_option_eq_ok_iff option).mp asked
  rcases Argument.letters_of_roll nonempty known taken with rfl | rfl | rfl
  · cases taken
    obtain ⟨value, rest, next, rfl, given⟩ := exists_value asked
    have same : argument = "-n" := String.toList_inj.mp chars
    rw [same]
    exact ⟨["-n", value], rest, next, rfl, .value .letter given⟩
  · rw [Argument.ofLetters, Argument.ofLetters, ofRequests_turnOn_eq_ok_iff,
      turnOn_debug_eq_ok_iff] at taken
    have same : argument = "-d" := String.toList_inj.mp chars
    rw [same]
    exact ⟨["-d"], others, _, rfl, .debug taken.1 (by simp)⟩
  · rw [Argument.ofLetters, Argument.ofLetters, ofRequests_turnOn_eq_ok_iff,
      turnOn_debug_eq_ok_iff] at taken
    obtain ⟨fresh, rfl⟩ := taken
    obtain ⟨value, rest, next, rfl, given⟩ := exists_value asked
    have same : argument = "-dn" := String.toList_inj.mp chars
    rw [same]
    exact ⟨["-dn", value], rest, next, rfl, .letters fresh given⟩

theorem exists_step {requests : List Request} {awaiting : Option Setting}
    (option : Argument.ofString argument = .options requests awaiting)
    (asked : ofRest none settings (argument :: others) = .ok (.roll final words)) :
    ∃ written rest next, argument :: others = written ++ rest ∧ Step settings written next := by
  have reads := Argument.reads_of_ofString_eq option nofun
  generalize chars : argument.toList = all at reads
  generalize meaning : Argument.options requests awaiting = found at reads
  cases reads with
  | endOfOptions => cases meaning
  | name flag =>
    have same : argument = "--" ++ flag.name := String.toList_inj.mp (by simp [chars])
    rw [same] at asked ⊢
    exact exists_step_of_name flag asked
  | joined flag value =>
    have same : argument = "--" ++ flag.name ++ "=" ++ String.ofList value :=
      String.toList_inj.mp (by simp [chars])
    rw [same] at asked ⊢
    exact exists_step_of_joined flag _ asked
  | letters nonempty known => exact exists_step_of_letters nonempty known chars asked

theorem Step.ne_nil (step : Step settings written next) : written ≠ [] := by
  cases step with
  | json | debug | letters => exact List.cons_ne_nil _ _
  | value spelled => cases spelled <;> exact List.cons_ne_nil _ _

/-- What asks for a roll is spelled option by option, up to the words. -/
theorem exists_steps {arguments : List String}
    (asked : ofRest none settings arguments = .ok (.roll final words)) :
    ∃ options rest, arguments = options ++ rest ∧ Steps settings options final ∧
      Behind rest words := by
  induction length : arguments.length using Nat.strong_induction_on generalizing settings arguments
  rename_i count shorter
  cases arguments with
  | nil =>
    cases asked
    exact ⟨[], [], rfl, .nil, .words nofun⟩
  | cons argument others =>
    cases meaning : Argument.ofString argument with
    | word =>
      cases (ofRest_word meaning).symm.trans asked
      refine ⟨[], _, rfl, .nil, .words fun first same => ?_⟩
      cases same
      exact Argument.ofString_eq_word_iff.mp meaning
    | endOfOptions =>
      cases (ofRest_endOfOptions meaning).symm.trans asked
      rw [Argument.eq_of_ofString_eq_endOfOptions meaning]
      exact ⟨[], _, rfl, .nil, .marked _⟩
    | surplus flag value => cases (ofRest_surplus meaning).symm.trans asked
    | options requests awaiting =>
      obtain ⟨written, rest, next, same, step⟩ := exists_step meaning asked
      rw [same] at asked length ⊢
      have less : rest.length < count := by
        rw [← length, List.length_append]
        exact Nat.lt_add_of_pos_left (List.length_pos_of_ne_nil step.ne_nil)
      obtain ⟨options, back, rfl, steps, behind⟩ :=
        shorter _ less (step.ofRest_eq_ok_iff.mp asked) rfl
      exact ⟨written ++ options, back, (List.append_assoc ..).symm, .cons step steps, behind⟩

end Settings

/-- The command lines that ask for a roll are those made of options that are spelled in one of the
ways there are, and of words. -/
theorem CommandLine.ofArguments_eq_ok_iff {arguments : List String} :
    ofArguments arguments = .ok (.roll settings words) ↔ CommandLine arguments settings words := by
  rw [← ofRest_start]
  constructor
  · intro asked
    obtain ⟨options, rest, rfl, steps, behind⟩ := Settings.exists_steps asked
    exact .intro steps behind
  · intro line
    cases line with
    | intro steps behind => exact steps.ofRest_eq_ok_iff.mpr behind.ofRest_eq

end Dice.Cli
