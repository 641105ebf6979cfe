import Dice.Cli.Numeral

/-!
Commands: what a list of arguments asks for.

Options come first. From the first argument that is neither an option nor the value of one,
everything belongs to the expression, whatever it looks like.
-/

namespace Dice.Cli

inductive Flag where
  | setting (setting : Setting)
  | switch (switch : Switch)
  | version
  | help
deriving DecidableEq, Repr

namespace Flag

/-- The option as errors show it. -/
def label : Flag → String
  | setting named => named.label
  | switch named => named.label
  | version => "--version"
  | help => "--help"

/-- The option with this letter behind one hyphen. -/
def ofLetter? : Char → Option Flag
  | 'n' => some (setting .times)
  | 'd' => some (switch .debug)
  | 'V' => some version
  | 'h' => some help
  | _ => none

/-- The option with this name behind two hyphens. -/
def ofName? (name : String) : Option Flag :=
  if name = "times" then some (setting .times)
  else if name = "seed" then some (setting .seed)
  else if name = "max-dice" then some (setting .maxDice)
  else if name = "list-limit" then some (setting .listLimit)
  else if name = "json" then some (switch .json)
  else if name = "debug" then some (switch .debug)
  else if name = "version" then some version
  else if name = "help" then some help
  else none

end Flag

/-- One thing that the options ask for. -/
inductive Request where
  | assign (setting : Setting) (value : String)
  | turnOn (switch : Switch)
  | version
  | help
  /-- A setting that is named, but not given a value. -/
  | lack (setting : Setting)
  /-- An option that is given a value, but takes none. -/
  | surplus (flag : Flag) (value : String)
deriving DecidableEq, Repr

/-- The meaning of an argument while options are still to come. -/
inductive Argument where
  | word
  | endOfOptions
  /-- Options, of which the last may take its value from the next argument. -/
  | options (requests : List Request) (awaiting : Option Setting)
  /-- An option with a value that it does not take. -/
  | surplus (flag : Flag) (value : String)
deriving DecidableEq, Repr

namespace Argument

/-- An option by its name, and the value behind an equals sign. -/
def ofLong : Flag → Option String → Argument
  | .setting setting, some value => options [.assign setting value] none
  | .setting setting, none => options [] (some setting)
  | .switch switch, none => options [.turnOn switch] none
  | .version, none => options [.version] none
  | .help, none => options [.help] none
  | flag, some value => surplus flag value

/-- Options by their letters. The first that is a setting has the other letters as its value, or
takes it from the next argument if there are none. -/
def ofLetters : List (Char × Flag) → List Request × Option Setting
  | [] => ([], none)
  | (_, .setting setting) :: [] => ([], some setting)
  | (_, .setting setting) :: others =>
    ([.assign setting (String.ofList (others.map Prod.fst))], none)
  | (_, .switch switch) :: others => (.turnOn switch :: (ofLetters others).1, (ofLetters others).2)
  | (_, .version) :: others => (.version :: (ofLetters others).1, (ofLetters others).2)
  | (_, .help) :: others => (.help :: (ofLetters others).1, (ofLetters others).2)

/-- Letters that are options one and all; a letter that is none makes the argument a word. -/
def ofLetters? (letters : List Char) : Option Argument :=
  (letters.mapM fun letter => (Flag.ofLetter? letter).map (letter, ·)).map fun flags =>
    options (ofLetters flags).1 (ofLetters flags).2

/-- A name, and a value behind the first equals sign if there is one. -/
def ofName? (text : List Char) : Option Argument :=
  let name := String.ofList (text.takeWhile (· ≠ '='))
  let value := (text.dropWhile (· ≠ '=')).tail?
  (Flag.ofName? name).map fun flag => ofLong flag (value.map String.ofList)

def ofString (text : String) : Argument :=
  match text.toList with
  | ['-', '-'] => endOfOptions
  | '-' :: '-' :: rest => (ofName? rest).getD word
  | '-' :: letter :: letters => (ofLetters? (letter :: letters)).getD word
  | _ => word

end Argument

/-- A setting that takes its value from the next argument, and that argument once it is read. -/
structure Awaiting where
  setting : Setting
  value : Option String := none
deriving DecidableEq, Repr

namespace Awaiting

def request : Awaiting → Request
  | ⟨setting, some value⟩ => .assign setting value
  | ⟨setting, none⟩ => .lack setting

end Awaiting

namespace Request

/-- The requests that the arguments start with, in order, and the words behind them. A word is the
value of a setting in front of it that has none yet. A surplus value is refused without a look at
the setting in front of it. -/
def gather (awaiting : Option Awaiting) : List String → List Request × List String
  | [] => ((awaiting.map Awaiting.request).toList, [])
  | argument :: others =>
    let settled := (awaiting.map Awaiting.request).toList
    match Argument.ofString argument, awaiting with
    | .word, some ⟨setting, none⟩ => gather (some ⟨setting, some argument⟩) others
    | .word, _ => (settled, argument :: others)
    | .endOfOptions, _ => (settled, others)
    | .surplus flag value, _ => ([surplus flag value], others)
    | .options requests next, _ =>
      let gathered := gather (next.map fun setting => { setting }) others
      (settled ++ requests ++ gathered.1, gathered.2)

end Request

namespace Settings

def has (settings : Settings) : Setting → Bool
  | .times => settings.times.isSome
  | .seed => settings.seed.isSome
  | .maxDice => settings.maxDice.isSome
  | .listLimit => settings.listLimit.isSome

/-- The settings with one more value. -/
def read (settings : Settings) (setting : Setting) (text : List Char) :
    Except NumeralFlaw Settings :=
  match setting with
  | .times => (Numeral.readRanged (UInt32.size - 1) text).map fun value =>
      { settings with times := some value }
  | .seed => (Numeral.readNat (UInt64.size - 1) text).map fun value =>
      { settings with seed := some value.toUInt64 }
  | .maxDice => (Numeral.readRanged (UInt32.size - 1) text).map fun value =>
      { settings with maxDice := some value.toUInt32 }
  | .listLimit => (Numeral.readNat (UInt64.size - 1) text).map fun value =>
      { settings with listLimit := some value }

/-- Gives a setting its value; a second value is refused before it is read. -/
def give (settings : Settings) (setting : Setting) (value : String) :
    Except UsageError Settings :=
  if settings.has setting then .error (.repeated setting.label)
  else (settings.read setting value.toList).mapError (.badValue setting value)

/-- Turns a switch on, once. -/
def turnOn (settings : Settings) : Switch → Except UsageError Settings
  | .json =>
    if settings.json then .error (.repeated Switch.json.label)
    else .ok { settings with json := true }
  | .debug =>
    if settings.debug then .error (.repeated Switch.debug.label)
    else .ok { settings with debug := true }

end Settings

inductive Command where
  | version
  | help
  /-- Roll the expression made of these words, or one from the input if there are none. -/
  | roll (settings : Settings) (words : List String)
deriving DecidableEq, Repr

namespace Command

/-- Meets the requests in order, up to the first that ends the matter. -/
def ofRequests (words : List String) (settings : Settings) :
    List Request → Except UsageError Command
  | [] => .ok (roll settings words)
  | .version :: _ => .ok version
  | .help :: _ => .ok help
  | .lack setting :: _ => .error (.missingValue setting)
  | .surplus flag value :: _ => .error (.surplusValue flag.label value)
  | .assign setting value :: others =>
    match settings.give setting value with
    | .error error => .error error
    | .ok settings => ofRequests words settings others
  | .turnOn switch :: others =>
    match settings.turnOn switch with
    | .error error => .error error
    | .ok settings => ofRequests words settings others

def ofArguments (arguments : List String) : Except UsageError Command :=
  let gathered := Request.gather none arguments
  ofRequests gathered.2 {} gathered.1

end Command

end Dice.Cli
