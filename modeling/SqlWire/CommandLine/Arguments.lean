import SqlWire.Number.Numeral
import SqlWire.Settings

/-! The arguments of the command line. Options for every command may stand
before or behind its name. A value follows its option or is attached to it; one
that starts with a dash has to be attached. Behind a double dash there are only
operands. What is wrong is found from left to right, and asking for help or for
the version ends the reading. -/
namespace SqlWire.CommandLine

/-- What to do, with its operands and options. -/
inductive Command where
  | split (file : Text)
  | bind (sql : Text) (words : List Text)
  | decode (file : Text) (compressed : Bool) (format : Option OutputFormat)
  | compress (input output : Text) (blockSize : Option Nat)
  | hash (file : Text)
deriving DecidableEq, Repr

/-- A command and the options for every command. -/
structure Invocation where
  settingsFile : Option Text
  verbose : Bool
  command : Command
deriving DecidableEq, Repr

/-- Why reading the arguments ends without an invocation. -/
inductive Stop where
  | usage
  | help
  | version
deriving DecidableEq, Repr

inductive OptionName where
  | config
  | verbose
  | version
  | help
  | bind
  | compressed
  | format
  | blockSize
deriving DecidableEq, Repr

/-- Whether an option takes this value. -/
def OptionName.takes : OptionName → Text → Bool
  | .config, value => !value.isEmpty
  | .format, value => (Settings.formatOf? value).isSome
  | .blockSize, value => (Numeral.readSize value).toOption.isSome
  | _, _ => true

/-- How an option is written. -/
structure OptionRule where
  name : OptionName
  long : String
  short? : Option Char := none
  valued : Bool := false
  /-- Whether it may be given more than once. -/
  repeats : Bool := false
deriving DecidableEq, Repr

def helpRule : OptionRule := { name := .help, long := "help", short? := some 'h' }

def versionRule : OptionRule := { name := .version, long := "version", short? := some 'V' }

/-- The options for every command. -/
def commonRules : List OptionRule :=
  [helpRule,
   { name := .config, long := "config", short? := some 'c', valued := true },
   { name := .verbose, long := "verbose", short? := some 'v' }]

/-- The arguments that may stand together: options, operands each with its test,
and words that end the reading. -/
structure Level where
  rules : List OptionRule
  operands : List (Text → Bool) := []
  words : List String := []

/-- An operand of any text. -/
def anyText (_ : Text) : Bool := true

/-- The arguments behind the name of a command. -/
def levels : List (String × Level) :=
  [("split", { rules := commonRules, operands := [anyText] }),
   ("bind",
    { rules := commonRules ++
        [{ name := .bind, long := "bind", short? := some 'b', valued := true, repeats := true }],
      operands := [anyText] }),
   ("decode",
    { rules := commonRules ++
        [{ name := .compressed, long := "compressed" },
         { name := .format, long := "format", short? := some 'f', valued := true }],
      operands := [anyText] }),
   ("compress",
    { rules := commonRules ++ [{ name := .blockSize, long := "block-size", valued := true }],
      operands := [anyText, fun path => !path.isEmpty] }),
   ("hash", { rules := commonRules, operands := [anyText] })]

/-- The arguments before the name of a command. -/
def topLevel : Level :=
  { rules := versionRule :: commonRules, words := "help" :: levels.map Prod.fst }

/-- Options with their values and operands, in order. -/
structure Given where
  options : List (OptionName × Text) := []
  operands : List Text := []
deriving DecidableEq, Repr

namespace Given

/-- All values of an option. -/
def valuesOf (given : Given) (name : OptionName) : List Text :=
  given.options.filterMap fun (other, value) => if other = name then some value else none

/-- The value of an option that does not repeat. -/
def value? (given : Given) (name : OptionName) : Option Text := (given.valuesOf name).head?

/-- Whether an option was given. -/
def has (given : Given) (name : OptionName) : Bool := (given.value? name).isSome

/-- Add an option. -/
def add (rule : OptionRule) (value : Text) (given : Given) : Except Stop Given :=
  if rule.name = .help then .error .help
  else if rule.name = .version then .error .version
  else if (given.has rule.name && !rule.repeats) || !rule.name.takes value then .error .usage
  else .ok { given with options := given.options ++ [(rule.name, value)] }

/-- Add an operand, if the level has one in its place. -/
def addOperand (level : Level) (operand : Text) (given : Given) : Except Stop Given :=
  match level.operands[given.operands.length]? with
  | some test =>
    if test operand then .ok { given with operands := given.operands ++ [operand] }
    else .error .usage
  | none => .error .usage

end Given

/-- Options of one letter behind one dash. The first that takes a value has the
rest as its value, with or without an equals sign, or waits for it. -/
def readLetters (level : Level) :
    Text → Given → Except Stop (Given × Option OptionRule)
  | [], given => .ok (given, none)
  | letter :: rest, given =>
    match level.rules.find? (·.short? == some letter) with
    | none => .error .usage
    | some rule =>
      if rule.valued then
        if rest.isEmpty then .ok (given, some rule)
        else (given.add rule ((Text.dropLead? ['='] rest).getD rest)).map (·, none)
      else do readLetters level rest (← given.add rule [])

/-- An option by its long name. Behind an equals sign stands its value; without
one it waits for it. -/
def readLong (level : Level) (body : Text) (given : Given) :
    Except Stop (Given × Option OptionRule) :=
  let (name, value?) :=
    match Text.cutAt (· = '=') body with
    | some (name, value) => (name, some value)
    | none => (body, none)
  match level.rules.find? (·.long.toList == name) with
  | none => .error .usage
  | some rule =>
    match rule.valued, value? with
    | true, some value => (given.add rule value).map (·, none)
    | true, none => .ok (given, some rule)
    | false, some _ => .error .usage
    | false, none => (given.add rule []).map (·, none)

/-- Whether an argument looks like an option. A dash alone does not. -/
def isDashed : Text → Bool
  | '-' :: _ :: _ => true
  | _ => false

/-- Read the arguments of a level: what was given, and the arguments from the
first word on that ends the level. -/
def readLevel (level : Level) :
    List Text → (waiting : Option OptionRule) → Given → Except Stop (Given × List Text)
  | [], none, given => .ok (given, [])
  | [], some _, _ => .error .usage
  | argument :: arguments, some rule, given =>
    if isDashed argument then .error .usage
    else do readLevel level arguments none (← given.add rule argument)
  | argument :: arguments, none, given =>
    if level.words.any (·.toList == argument) then .ok (given, argument :: arguments)
    else
      match argument with
      | ['-', '-'] => do
        let given ← arguments.foldlM (fun given operand => given.addOperand level operand) given
        .ok (given, [])
      | '-' :: '-' :: body => do
        let (given, waiting) ← readLong level body given
        readLevel level arguments waiting given
      | '-' :: letter :: letters => do
        let (given, waiting) ← readLetters level (letter :: letters) given
        readLevel level arguments waiting given
      | operand => do readLevel level arguments none (← given.addOperand level operand)

/-- The command of a name, from what was given behind it. -/
def commandOf? (name : Text) (given : Given) : Option Command :=
  match given.operands with
  | [operand] =>
    if name = "split".toList then some (.split operand)
    else if name = "bind".toList then
      some (.bind operand ((given.valuesOf .bind).flatMap (Text.fields ',')))
    else if name = "decode".toList then
      some (.decode operand (given.has .compressed)
        ((given.value? .format).bind Settings.formatOf?))
    else if name = "hash".toList then some (.hash operand)
    else none
  | [input, output] =>
    if name = "compress".toList then
      some (.compress input output
        ((given.value? .blockSize).bind (Numeral.readSize · |>.toOption)))
    else none
  | _ => none

/-- The file of settings: the option nearest to the end, else the environment. A
level without the option looks at the environment, which must not be empty then. -/
def settingsFile? (environment : Option Text) (top given : Given) : Except Stop (Option Text) :=
  if environment = some [] ∧ !(top.has .config && given.has .config) then .error .usage
  else
    .ok (((given.value? .config).orElse fun _ => top.value? .config).orElse fun _ => environment)

/-- Help on nothing, on a command, or on help. -/
def isHelpTopic (topic : List Text) : Bool :=
  match topic with
  | [] => true
  | [name] => topLevel.words.any (·.toList == name)
  | _ => false

/-- Read the arguments. `environment` names a file of settings in place of the
option. -/
def readArguments (environment : Option Text) (arguments : List Text) :
    Except Stop Invocation := do
  let (top, rest) ← readLevel topLevel arguments none {}
  match rest with
  | [] => .error .usage
  | name :: rest =>
    if name = "help".toList then .error (if isHelpTopic rest then .help else .usage)
    else
      match levels.find? (·.1.toList == name) with
      | none => .error .usage
      | some (_, level) =>
        let (given, _) ← readLevel level rest none {}
        match commandOf? name given with
        | none => .error .usage
        | some command =>
          .ok ⟨← settingsFile? environment top given, top.has .verbose || given.has .verbose, command⟩

end SqlWire.CommandLine
