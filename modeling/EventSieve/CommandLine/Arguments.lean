import EventSieve.Clause.Dialect
import EventSieve.Text.Cut

/-!
# Arguments of the command line

There are two commands. `compile` needs a table document and a filter document
and takes a dialect; `decode` needs a table document and a document of rows and
takes the kind of records. An option is given by its long name or its letter,
with the value in the same argument or in the next one, and at most once. A value
in an argument of its own does not start with a hyphen, unless it is a hyphen
alone. Everything else is a usage error.
-/

namespace EventSieve.CommandLine

/-- The kinds of records that can be decoded. -/
inductive RecordKind where
  | event
  | feature
deriving DecidableEq, Repr

/-- What a command line asks for. -/
inductive Command where
  | compile (tablePath filtersPath : String) (dialect : Dialect)
  | decode (tablePath rowsPath : String) (kind : RecordKind) (failFast : Bool)
deriving DecidableEq, Repr

/-- A command with the form of its output. -/
structure Invocation where
  command : Command
  indented : Bool
deriving DecidableEq, Repr

/-- The options and switches that a command knows. -/
structure Grammar where
  /-- Options with a value: long name and letter. -/
  options : List (String × Option Char)
  /-- Switches without a value. -/
  switches : List String

/-- The options and switches of `compile`. -/
def compileGrammar : Grammar :=
  ⟨[("schema", some 's'), ("filters", some 'f'), ("backend", some 'b')], ["pretty"]⟩

/-- The options and switches of `decode`. -/
def decodeGrammar : Grammar :=
  ⟨[("schema", some 's'), ("rows", some 'r'), ("record", none)], ["pretty", "fail-fast"]⟩

/-- One argument, taken apart. -/
inductive Token where
  /-- A long name, perhaps with a value behind an equals sign. -/
  | long (name : String) (value : Option String)
  /-- A letter, perhaps with a value behind it. -/
  | letter (letter : Char) (value : Option String)
  /-- The mark after which nothing is an option. -/
  | separator
  /-- Any other argument. -/
  | plain (text : String)
deriving DecidableEq, Repr

/-- The value behind a letter; one equals sign in front of it is dropped. -/
def attachedValue : List Char → Option String
  | [] => none
  | '=' :: rest => some (String.ofList rest)
  | value => some (String.ofList value)

/-- Takes an argument apart. -/
def Token.ofArgument (argument : String) : Token :=
  match argument.toList with
  | ['-', '-'] => .separator
  | '-' :: '-' :: body =>
    match Text.cutAt? '=' body with
    | some (name, value) => .long (String.ofList name) (some (String.ofList value))
    | none => .long (String.ofList body) none
  | '-' :: character :: rest => .letter character (attachedValue rest)
  | _ => .plain argument

/-- What has been given: options with their values and switches, by long name. -/
structure Given where
  options : List (String × String)
  switches : List String
deriving DecidableEq, Repr

/-- Records the value of an option that has not been given before. -/
def Given.addOption? (given : Given) (name value : String) : Option Given :=
  if given.options.any fun entry => entry.1 = name then none
  else some { given with options := given.options ++ [(name, value)] }

/-- Records a switch that has not been given before. -/
def Given.addSwitch? (given : Given) (name : String) : Option Given :=
  if given.switches.contains name then none
  else some { given with switches := given.switches ++ [name] }

/-- The value of an option. -/
def Given.value? (given : Given) (name : String) : Option String :=
  (given.options.find? fun entry => entry.1 = name).map (·.2)

/-- The long name of the option that a letter stands for. -/
def Grammar.ofLetter? (grammar : Grammar) (letter : Char) : Option String :=
  (grammar.options.find? fun entry => entry.2 = some letter).map (·.1)

/-- Reads the arguments behind a command. An option whose value has not come yet
is waiting for it. -/
def collect (grammar : Grammar) : Option String → Given → List String → Option Given
  | none, given, [] => some given
  | some _, _, [] => none
  | waiting, given, argument :: rest =>
    match waiting, Token.ofArgument argument with
    | some name, .plain value =>
      (given.addOption? name value).bind fun given => collect grammar none given rest
    | some _, _ => none
    | none, .plain _ => none
    | none, .separator => if rest.isEmpty then some given else none
    | none, .long name value =>
      if grammar.options.any fun entry => entry.1 = name then
        match value with
        | some value =>
          (given.addOption? name value).bind fun given => collect grammar none given rest
        | none => collect grammar (some name) given rest
      else if grammar.switches.contains name && value.isNone then
        (given.addSwitch? name).bind fun given => collect grammar none given rest
      else none
    | none, .letter letter value =>
      match grammar.ofLetter? letter, value with
      | some name, some value =>
        (given.addOption? name value).bind fun given => collect grammar none given rest
      | some name, none => collect grammar (some name) given rest
      | none, _ => none

/-- The path that an option gives; an empty one is refused. -/
def path? (given : Given) (name : String) : Option String :=
  (given.value? name).filter (· ≠ "")

/-- The dialect that is asked for: by option, else by the environment, else the first. -/
def dialect? (environment : Option String) (given : Given) : Option Dialect :=
  match given.value? "backend", environment with
  | some name, _ => Dialect.ofText? name
  | none, some name => Dialect.ofText? name
  | none, none => some .bigquery

/-- The kind of records that is asked for. -/
def kind? (given : Given) : Option RecordKind :=
  match given.value? "record" with
  | none => some .event
  | some "event" => some .event
  | some "feature" => some .feature
  | some _ => none

/-- Reads the arguments of a command by its name. -/
def command? (environment : Option String) (name : String) (arguments : List String) :
    Option (Command × Given) :=
  match name with
  | "compile" => do
    let given ← collect compileGrammar none ⟨[], []⟩ arguments
    let tablePath ← path? given "schema"
    let filtersPath ← path? given "filters"
    let dialect ← dialect? environment given
    return (.compile tablePath filtersPath dialect, given)
  | "decode" => do
    let given ← collect decodeGrammar none ⟨[], []⟩ arguments
    let tablePath ← path? given "schema"
    let rowsPath ← path? given "rows"
    let kind ← kind? given
    return (.decode tablePath rowsPath kind (given.switches.contains "fail-fast"), given)
  | _ => none

/-- Reads a command line. The switch for indented output may stand before the
command or behind it. -/
def Invocation.ofArguments? (environment : Option String) (arguments : List String) :
    Option Invocation :=
  let (indented, rest) := match arguments with
    | "--pretty" :: rest => (true, rest)
    | rest => (false, rest)
  match rest with
  | name :: rest =>
    (command? environment name rest).map fun (command, given) =>
      ⟨command, indented || given.switches.contains "pretty"⟩
  | [] => none

example : Invocation.ofArguments? none ["decode", "-s=t", "--rows", "r", "--pretty"] =
    some ⟨.decode "t" "r" .event false, true⟩ := by decide +kernel

example : Invocation.ofArguments? (some "nope") ["compile", "-st", "-f", "f"] = none := by
  decide +kernel

end EventSieve.CommandLine
