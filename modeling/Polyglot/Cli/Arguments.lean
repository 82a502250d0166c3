import Polyglot.Project

/-!
# The command line

A command and its options. An option is long, `--name`, or short, `-n`; short ones can be written
together. A value stands behind its option, as a word of its own or after an equals sign, and no
option is given twice.

* `Invocation.parse`: what a list of words asks for.
* `UsageError`: what can be wrong with it.
-/

namespace Polyglot.Cli

/-- The options of the commands. -/
inductive Flag where
  | root
  | catalogs
  | modules
  | declarations
  | verbose
  | noColor
  | help
deriving DecidableEq, Repr

inductive CommandName where
  | check
  | release
  | init
deriving DecidableEq, Repr

inductive UsageError where
  /-- A word that should be a command and is none. -/
  | unknownCommand (word : String)
  /-- A word that has no place where it stands. -/
  | unknownArgument (word : String)
  /-- An option that needs a value and has none, or an empty one. -/
  | missingValue (flag : Flag)
  /-- An option that is given twice. -/
  | repeated (flag : Flag)
  /-- An option that takes no value and has one. -/
  | unexpectedValue (word : String)
deriving DecidableEq, Repr

/-- The options that were given, with their values. -/
structure Options where
  overrides : Overrides := {}
  verbose : Bool := false
  noColor : Bool := false
deriving DecidableEq, Repr

/-- What the words of a command line ask for. -/
inductive Invocation where
  /-- No command was named. -/
  | overview
  | help
  | version
  | check (options : Options)
  | release (options : Options)
  | init
deriving DecidableEq, Repr

namespace Flag

def longName : Flag → String
  | root => "root"
  | catalogs => "translations"
  | modules => "ts-out"
  | declarations => "dts-out"
  | verbose => "verbose"
  | noColor => "no-color"
  | help => "help"

def shortName? : Flag → Option Char
  | verbose => some 'v'
  | help => some 'h'
  | _ => none

def takesValue : Flag → Bool
  | root | catalogs | modules | declarations => true
  | verbose | noColor | help => false

end Flag

namespace UsageError

def message : UsageError → String
  | unknownCommand word => s!"unrecognized subcommand '{word}'"
  | unknownArgument word => s!"unexpected argument '{word}' found"
  | missingValue flag => s!"a value is required for '--{flag.longName}' but none was supplied"
  | repeated flag => s!"the argument '--{flag.longName}' cannot be used multiple times"
  | unexpectedValue word => s!"unexpected value in '{word}'"

end UsageError

namespace CommandName

def ofWord? : String → Option CommandName
  | "check" => some check
  | "release" => some release
  | "init" => some init
  | _ => none

/-- The options that a command knows. -/
def flags : CommandName → List Flag
  | check => [.root, .catalogs, .verbose, .noColor, .help]
  | release => [.root, .catalogs, .verbose, .noColor, .modules, .declarations, .help]
  | init => [.help]

def long? (c : CommandName) (name : String) : Option Flag :=
  c.flags.find? (·.longName == name)

def short? (c : CommandName) (name : Char) : Option Flag :=
  c.flags.find? (·.shortName? == some name)

/-- What a command with these options asks for. -/
def invocation : CommandName → Options → Invocation
  | check, o => .check o
  | release, o => .release o
  | init, _ => .init

end CommandName

/-! ## words -/

/-- The word that no options follow. -/
def endOfOptions : String := "--"

/-- What a word looks like. -/
inductive Shape where
  | long (name : String) (value : Option String)
  | short (names : List Char)
  | plain
deriving DecidableEq, Repr

/-- A long option cut at its first equals sign. -/
def Shape.ofLong (cs : List Char) : Shape :=
  let name := String.ofList (cs.takeWhile (· != '='))
  match cs.dropWhile (· != '=') with
  | [] => .long name none
  | _ :: value => .long name (some (String.ofList value))

/-- One hyphen alone is a plain word. -/
def Shape.of (word : String) : Shape :=
  match word.toList with
  | '-' :: '-' :: cs => .ofLong cs
  | ['-'] => .plain
  | '-' :: cs => .short cs
  | _ => .plain

/-! ## options -/

/-- Options read so far. The last one with a value is looked at only when the next option, or the
end, shows that it is complete. -/
structure Reading where
  given : List (Flag × String) := []
  /-- An option with a value, and the value if it is already there. -/
  pending : Option (Flag × Option String) := none

namespace Reading

/-- Take an option with a value. -/
def give (r : Reading) (flag : Flag) (value : String) : Except UsageError Reading :=
  if r.given.any (·.1 == flag) then .error (.repeated flag)
  else if value.isEmpty then .error (.missingValue flag)
  else .ok { r with given := (flag, value) :: r.given }

/-- Take the option that is pending. -/
def settle (r : Reading) : Except UsageError Reading :=
  match r.pending with
  | none => .ok r
  | some (flag, none) => .error (.missingValue flag)
  | some (flag, some value) => { r with pending := none }.give flag value

/-- Take an option without a value. -/
def set (r : Reading) (flag : Flag) : Except UsageError Reading :=
  if r.given.any (·.1 == flag) then .error (.repeated flag)
  else .ok { r with given := (flag, "") :: r.given }

def value? (r : Reading) (flag : Flag) : Option Path :=
  (r.given.lookup flag).map Path.ofText

def has (r : Reading) (flag : Flag) : Bool :=
  r.given.any (·.1 == flag)

def options (r : Reading) : Options where
  overrides :=
    { root := r.value? .root
      catalogsDir := r.value? .catalogs
      modulesDir := r.value? .modules
      declarationsDir := r.value? .declarations }
  verbose := r.has .verbose
  noColor := r.has .noColor

/-- Read short options that are written together; `none` if help is asked for. -/
def readShort (c : CommandName) (word : String) :
    Reading → List Char → Except UsageError (Option Reading)
  | r, [] => .ok (some r)
  | r, name :: names =>
    match c.short? name with
    | none => .error (.unknownArgument word)
    | some flag =>
      match r.settle with
      | .error e => .error e
      | .ok r =>
        if flag = .help then .ok none
        else
          match r.set flag with
          | .error e => .error e
          | .ok r => readShort c word r names

/-- Read a long option; `none` if help is asked for. -/
def readLong (c : CommandName) (r : Reading) (word name : String) (value : Option String) :
    Except UsageError (Option Reading) :=
  match c.long? name with
  | none => .error (.unknownArgument word)
  | some flag =>
    if flag.takesValue then
      match r.settle, value with
      | .error e, _ => .error e
      | .ok r, some value => (r.give flag value).map some
      | .ok r, none => .ok (some { r with pending := some (flag, none) })
    else if value.isSome then .error (.unexpectedValue word)
    else
      match r.settle with
      | .error e => .error e
      | .ok r => if flag = .help then .ok none else (r.set flag).map some

/-- Read a word; `none` if help is asked for. A plain word can only be the value of an option. -/
def readWord (c : CommandName) (r : Reading) (word : String) : Except UsageError (Option Reading) :=
  match Shape.of word with
  | .long name value => r.readLong c word name value
  | .short names => r.readShort c word names
  | .plain =>
    match r.pending with
    | some (flag, none) => .ok (some { r with pending := some (flag, some word) })
    | _ => .error (.unknownArgument word)

/-- What the command asks for with all options read. -/
def close (c : CommandName) (r : Reading) : Except UsageError Invocation :=
  r.settle.map (fun r => c.invocation r.options)

/-- Read the words behind a command. -/
def readAll (c : CommandName) : Reading → List String → Except UsageError Invocation
  | r, [] => r.close c
  | r, word :: words =>
    if word = endOfOptions then
      match words with
      | [] => r.close c
      | surplus :: _ => .error (.unknownArgument surplus)
    else
      match r.readWord c word with
      | .error e => .error e
      | .ok none => .ok .help
      | .ok (some r) => readAll c r words

end Reading

namespace Invocation

/-- The command that gives help for the other ones. -/
def helpWord : String := "help"

/-- Whether a word is a command. -/
def isCommand (word : String) : Bool :=
  word = helpWord || (CommandName.ofWord? word).isSome

/-- Help for a command, or for the tool. No command has commands below it. -/
def parseHelp : List String → Except UsageError Invocation
  | [] => .ok .help
  | word :: words =>
    if isCommand word then
      match words with
      | [] => .ok .help
      | surplus :: _ => .error (.unknownCommand surplus)
    else .error (.unknownCommand word)

/-- A first word that is no command: only help and the version can be asked for without one. -/
def parseOption (word : String) : Except UsageError Invocation :=
  match Shape.of word with
  | .long "help" none => .ok .help
  | .long "version" none => .ok .version
  | .long name (some _) =>
    if name = "help" || name = "version" then .error (.unexpectedValue word)
    else .error (.unknownArgument word)
  | .short ('h' :: _) => .ok .help
  | .short ('V' :: _) => .ok .version
  | .long _ none | .short _ => .error (.unknownArgument word)
  | .plain => .error (.unknownCommand word)

/-- What the words of a command line ask for. -/
def parse : List String → Except UsageError Invocation
  | [] => .ok .overview
  | word :: words =>
    if word = endOfOptions then
      match words with
      | [] => .ok .overview
      | next :: _ =>
        .error (if isCommand next then .unknownArgument next else .unknownCommand next)
    else if word = helpWord then parseHelp words
    else
      match CommandName.ofWord? word with
      | some c => Reading.readAll c {} words
      | none => parseOption word

end Invocation

end Polyglot.Cli
