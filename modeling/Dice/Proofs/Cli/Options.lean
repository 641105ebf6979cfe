import Dice.Proofs.Cli.Spelling

namespace Dice.Cli

/-- Arguments that are options and values of options, and nothing else. The first part says whether
the last of them still waits for its value. -/
inductive Options : Bool → List String → Prop where
  | nil : Options false []
  | waiting {argument : String} {requests : List Request} {setting : Setting}
      (option : Argument.ofString argument = .options requests (some setting)) :
      Options true [argument]
  | complete {waits : Bool} {argument : String} {requests : List Request} {others : List String}
      (option : Argument.ofString argument = .options requests none)
      (rest : Options waits others) : Options waits (argument :: others)
  | valued {waits : Bool} {argument value : String} {requests : List Request} {setting : Setting}
      {others : List String}
      (option : Argument.ofString argument = .options requests (some setting))
      (word : Argument.ofString value = .word) (rest : Options waits others) :
      Options waits (argument :: value :: others)
  /-- An option that takes a value, and has another option behind it instead. -/
  | lacking {waits : Bool} {argument next : String} {requests : List Request} {setting : Setting}
      {others : List String}
      (option : Argument.ofString argument = .options requests (some setting))
      (rest : Options waits (next :: others)) : Options waits (argument :: next :: others)
  | surplus {waits : Bool} {argument value : String} {flag : Flag} {others : List String}
      (option : Argument.ofString argument = .surplus flag value)
      (rest : Options waits others) : Options waits (argument :: others)

/-- What ends the options: nothing more, a word, or the mark for it. -/
inductive Ending : Bool → List String → Prop where
  | nothing {waits : Bool} : Ending waits []
  | word {first : String} {others : List String} (word : Argument.ofString first = .word) :
      Ending false (first :: others)
  | mark {waits : Bool} {first : String} {others : List String}
      (ended : Argument.ofString first = .endOfOptions) : Ending waits (first :: others)

/-- The arguments are options and an ending. -/
def Splits (arguments : List String) : Prop :=
  ∃ waits options rest, Options waits options ∧ Ending waits rest ∧ arguments = options ++ rest

theorem Splits.cons {argument : String} {others : List String} (split : Splits others)
    (unvalued : ∀ requests setting, Argument.ofString argument = .options requests (some setting) →
      ∀ value ∈ others.head?, Argument.ofString value ≠ .word) : Splits (argument :: others) := by
  obtain ⟨waits, options, rest, parts, ending, rfl⟩ := split
  cases meaning : Argument.ofString argument with
  | word => exact ⟨false, [], _, .nil, .word meaning, rfl⟩
  | endOfOptions => exact ⟨false, [], _, .nil, .mark meaning, rfl⟩
  | surplus flag value =>
    exact ⟨waits, argument :: options, rest, .surplus meaning parts, ending, rfl⟩
  | options requests awaiting =>
    cases awaiting with
    | none => exact ⟨waits, argument :: options, rest, .complete meaning parts, ending, rfl⟩
    | some setting =>
      cases options with
      | cons next others =>
        exact ⟨waits, argument :: next :: others, rest, .lacking meaning parts, ending, rfl⟩
      | nil =>
        cases ending with
        | nothing => exact ⟨true, [argument], [], .waiting meaning, .nothing, rfl⟩
        | word word => exact absurd word (unvalued requests setting meaning _ rfl)
        | mark ended => exact ⟨true, [argument], _, .waiting meaning, .mark ended, rfl⟩

theorem Splits.valued {argument value : String} {others : List String} {requests : List Request}
    {setting : Setting} (split : Splits others)
    (option : Argument.ofString argument = .options requests (some setting))
    (word : Argument.ofString value = .word) : Splits (argument :: value :: others) := by
  obtain ⟨waits, options, rest, parts, ending, rfl⟩ := split
  exact ⟨waits, argument :: value :: options, rest, .valued option word parts, ending, rfl⟩

theorem splits (arguments : List String) : Splits arguments := by
  -- A value goes with the option in front of it, so a step takes one argument or two.
  induction arguments using List.twoStepInduction with
  | nil => exact ⟨false, [], [], .nil, .nothing, rfl⟩
  | singleton argument =>
    exact Splits.cons ⟨false, [], [], .nil, .nothing, rfl⟩ fun _ _ _ _ absent => nomatch absent
  | cons_cons first second others shorter longer =>
    by_cases valued : (∃ requests setting,
        Argument.ofString first = .options requests (some setting)) ∧
          Argument.ofString second = .word
    · obtain ⟨⟨requests, setting, option⟩, word⟩ := valued
      exact shorter.valued option word
    · refine (longer second).cons fun requests setting option value same word => ?_
      cases same
      exact valued ⟨⟨requests, setting, option⟩, word⟩

/-- What can stand behind options without a change to them: neither a value that is refused, nor a
word if the last option waits for one. -/
def Follows (waits : Bool) (rest : List String) : Prop :=
  ∀ argument ∈ rest.head?, (Argument.ofString argument = .word → waits = false) ∧
    ∀ flag value, Argument.ofString argument ≠ .surplus flag value

/-- Whether a setting has not been given its value yet. -/
def Awaiting.waits : Option Awaiting → Bool
  | some ⟨_, none⟩ => true
  | _ => false

namespace Request

section

variable {awaiting : Option Awaiting} {argument value : String} {others rest : List String}
  {requests : List Request} {next : Option Setting} {setting : Setting} {flag : Flag}

theorem gather_option (option : Argument.ofString argument = .options requests next) :
    gather awaiting (argument :: others) =
      ((awaiting.map Awaiting.request).toList ++ requests ++
        (gather (next.map fun setting => { setting }) others).1,
        (gather (next.map fun setting => { setting }) others).2) := by
  simp only [gather, option]

theorem gather_value (word : Argument.ofString value = .word) :
    gather (some ⟨setting, none⟩) (value :: others) =
      gather (some ⟨setting, some value⟩) others := by
  simp only [gather, word]

theorem gather_surplus (option : Argument.ofString argument = .surplus flag value) :
    gather awaiting (argument :: others) = ([surplus flag value], others) := by
  simp only [gather, option]

theorem gather_word (word : Argument.ofString argument = .word)
    (settled : Awaiting.waits awaiting = false) :
    gather awaiting (argument :: others) =
      ((awaiting.map Awaiting.request).toList, argument :: others) := by
  rcases awaiting with - | ⟨setting, - | value⟩
  · simp only [gather, word]
  · cases settled
  · simp only [gather, word]

theorem gather_endOfOptions (ended : Argument.ofString argument = .endOfOptions) :
    gather awaiting (argument :: others) =
      ((awaiting.map Awaiting.request).toList, others) := by
  simp only [gather, ended]

/-- The setting in front is done with before anything that follows it. -/
theorem gather_of_follows (awaiting : Option Awaiting)
    (follows : Follows (Awaiting.waits awaiting) rest) :
    gather awaiting rest =
      ((awaiting.map Awaiting.request).toList ++ (gather none rest).1, (gather none rest).2) := by
  cases rest with
  | nil => simp [gather]
  | cons argument others =>
    obtain ⟨settled, unrefused⟩ := follows argument rfl
    cases meaning : Argument.ofString argument with
    | word =>
      rw [gather_word meaning (settled meaning), gather_word meaning rfl]
      simp
    | endOfOptions =>
      rw [gather_endOfOptions meaning, gather_endOfOptions meaning]
      simp
    | options requests next =>
      rw [gather_option meaning, gather_option meaning]
      simp
    | surplus flag value => exact absurd meaning (unrefused flag value)

end

/-- Among the requests is a value that is refused. -/
def Surplus (requests : List Request) : Prop :=
  ∃ flag value, surplus flag value ∈ requests

/-- How the requests of longer arguments extend those of their front: by those of the rest, or not
at all because a value is refused. -/
def Extends (front rest whole : List Request × List String) : Prop :=
  whole = (front.1 ++ rest.1, rest.2) ∨ Surplus front.1 ∧ whole.1 = front.1

theorem Extends.prepend {front rest whole : List Request × List String}
    (extended : Extends front rest whole) (requests : List Request) :
    Extends (requests ++ front.1, front.2) rest (requests ++ whole.1, whole.2) := by
  rcases extended with rfl | ⟨⟨flag, value, member⟩, same⟩
  · exact .inl (by simp)
  · exact .inr ⟨⟨flag, value, List.mem_append_right _ member⟩, congrArg (requests ++ ·) same⟩

end Request

open Request

theorem Options.gather_awaiting_append {waits : Bool} {options rest : List String}
    (parts : Options waits options) (follows : Follows waits rest) (awaiting : Option Awaiting)
    (settled : Awaiting.waits awaiting = true → options ≠ []) :
    Extends (gather awaiting options) (gather none rest) (gather awaiting (options ++ rest)) := by
  -- A setting that has its value is settled by what follows it, so any may stand in front.
  induction parts generalizing awaiting with
  | nil =>
    have ready : Awaiting.waits awaiting = false :=
      Bool.eq_false_iff.mpr fun waits => settled waits rfl
    exact .inl (gather_of_follows awaiting (ready ▸ follows))
  | waiting option =>
    left
    rw [List.singleton_append, gather_option option, gather_option option]
    simp [gather_of_follows (some ⟨_, none⟩) follows, gather]
  | complete option rest ih =>
    rw [List.cons_append, gather_option option, gather_option option]
    exact (ih follows _ fun waits => by cases waits).prepend _
  | valued option word rest ih =>
    rw [List.cons_append, List.cons_append, gather_option option, gather_option option,
      Option.map_some, gather_value word, gather_value word]
    exact (ih follows _ fun waits => by cases waits).prepend _
  | lacking option rest ih =>
    rw [List.cons_append, gather_option option, gather_option option]
    exact (ih follows _ fun _ => List.cons_ne_nil _ _).prepend _
  | surplus option rest ih =>
    rw [List.cons_append, gather_surplus option, gather_surplus option]
    exact .inr ⟨⟨_, _, List.mem_singleton_self _⟩, rfl⟩

/-- Options make the same requests whatever follows them. -/
theorem Options.gather_append {waits : Bool} {options rest : List String}
    (parts : Options waits options) (follows : Follows waits rest) :
    Extends (gather none options) (gather none rest) (gather none (options ++ rest)) :=
  parts.gather_awaiting_append follows none fun waits => by cases waits

namespace Command

def withWords (words : List String) : Command → Command
  | roll settings _ => roll settings words
  | version => version
  | help => help

theorem ofRequests_words (words : List String) (settings : Settings) (requests : List Request) :
    ofRequests words settings requests =
      (ofRequests [] settings requests).map (withWords words) := by
  fun_induction ofRequests words settings requests with
  | case1 => rfl
  | case2 => rfl
  | case3 => rfl
  | case4 => rfl
  | case5 => rfl
  | case6 settings setting value others error refused => rw [ofRequests, refused]; rfl
  | case7 settings setting value others given accepted ih => rw [ih, ofRequests, accepted]
  | case8 settings switch others error refused => rw [ofRequests, refused]; rfl
  | case9 settings switch others given accepted ih => rw [ih, ofRequests, accepted]

theorem not_surplus_of_roll {words last : List String} {settings final : Settings}
    {requests : List Request} (asked : ofRequests words settings requests = .ok (roll final last)) :
    ¬ Surplus requests := by
  rintro ⟨flag, value, member⟩
  fun_induction ofRequests words settings requests with
  | case1 => cases member
  | case2 => cases asked
  | case3 => cases asked
  | case4 => cases asked
  | case5 => cases asked
  | case6 => cases asked
  | case7 settings setting value others given accepted ih =>
    exact ih asked (List.mem_of_ne_of_mem Request.noConfusion member)
  | case8 => cases asked
  | case9 settings switch others given accepted ih =>
    exact ih asked (List.mem_of_ne_of_mem Request.noConfusion member)

@[simp]
theorem withWords_withWords (first second : List String) (command : Command) :
    withWords second (withWords first command) = withWords second command := by
  cases command <;> rfl

end Command

open Command

/-- What options ask for decides what is done for a command line; the words behind them are only
handed on. -/
theorem Options.ofArguments_append {waits : Bool} {options rest words : List String}
    (parts : Options waits options) (follows : Follows waits rest)
    (handed : gather none rest = ([], words)) :
    ofArguments (options ++ rest) = (ofArguments options).map (withWords words) := by
  have extended := parts.gather_append follows
  simp only [ofArguments]
  rw [ofRequests_words, ofRequests_words (gather none options).2]
  rcases extended with whole | ⟨surplus, same⟩
  · rw [whole, handed, List.append_nil]
    cases ofRequests [] {} (gather none options).1 <;> simp [Except.map]
  · rw [same]
    cases asked : ofRequests [] {} (gather none options).1 with
    | error => rfl
    | ok command =>
      cases command with
      | version => rfl
      | help => rfl
      | roll settings words => exact absurd surplus (not_surplus_of_roll asked)

theorem Options.ofArguments_endOfOptions {waits : Bool} {options : List String}
    (parts : Options waits options) (words : List String) :
    ofArguments (options ++ "--" :: words) = (ofArguments options).map (withWords words) := by
  have ended : Argument.ofString "--" = .endOfOptions := rfl
  refine parts.ofArguments_append (fun argument same => ?_) (gather_endOfOptions ended)
  cases same
  rw [ended]
  exact ⟨nofun, nofun⟩

theorem Options.ofArguments_word {options : List String} (parts : Options false options)
    {first : String} (word : Argument.ofString first = .word) (others : List String) :
    ofArguments (options ++ first :: others) =
      (ofArguments options).map (withWords (first :: others)) := by
  refine parts.ofArguments_append (fun argument same => ?_) (gather_word word rfl)
  cases same
  rw [word]
  exact ⟨fun _ => rfl, nofun⟩

namespace Argument

/-- A word stays one when a blank and anything else are put behind it: of the arguments that are no
words, only those with a value can have a blank in them, and it stands in the value. -/
theorem ofString_blank {first text : String} (tail : List Char) (word : ofString first = .word)
    (split : text.toList = first.toList ++ ' ' :: tail) : ofString text = .word := by
  rw [ofString_eq_word_iff] at word ⊢
  intro reserved
  have blank : ' ' ∈ text.toList := by simp [split]
  cases reserved with
  | endOfOptions same =>
    rw [same] at blank
    exact absurd blank (by decide)
  | name known same =>
    obtain ⟨flag, rfl⟩ := Flag.mem_names_iff.mp known
    exact flag.not_mem_name.1 (by simpa [same] using blank)
  | letters nonempty known chars =>
    rw [chars, List.mem_cons] at blank
    exact absurd (known ' ' (blank.resolve_left (by decide))) (by decide)
  | @joined name value known same =>
    -- The front runs past the equals sign, so it is such an argument itself.
    obtain ⟨flag, rfl⟩ := Flag.mem_names_iff.mp known
    have chars : ("--" ++ flag.name ++ "=").toList ++ value.toList =
        first.toList ++ ' ' :: tail := by simp [← split, same]
    rcases List.append_eq_append_iff.mp chars with ⟨front, longer, -⟩ | ⟨rest, shorter, behind⟩
    · have joined : first = "--" ++ flag.name ++ "=" ++ String.ofList front :=
        String.toList_inj.mp (by simp [longer])
      exact word (.joined known joined)
    · rcases rest with - | ⟨c, rest⟩
      · have joined : first = "--" ++ flag.name ++ "=" ++ "" :=
          String.toList_inj.mp (by simpa using shorter.symm)
        exact word (.joined known joined)
      · obtain rfl : ' ' = c := List.head_eq_of_cons_eq behind
        have inside : ' ' ∈ ("--" ++ flag.name ++ "=").toList := by simp [shorter]
        exact flag.not_mem_name.1 (by simpa using inside)

theorem ofString_joined {first : String} (word : ofString first = .word) (others : List String) :
    ofString (" ".intercalate (first :: others)) = .word := by
  cases others with
  | nil => rwa [String.intercalate_singleton]
  | cons next others =>
    refine ofString_blank (" ".intercalate (next :: others)).toList word ?_
    simp [String.intercalate_cons_cons]

end Argument

end Dice.Cli
