import DisplayFilter.Text.Digit
import DisplayFilter.Text.Literal
/-!
# Command-line arguments

Options may stand anywhere among the arguments, long ones shortened as far as they stay unique, short ones
run together, behind an equals sign too. The value of an option is the next argument, or stands behind an
equals sign, or is attached to a short option. After `--` nothing is an option. The first argument that
belongs to no option is the expression. All arguments are looked at before any option takes effect, and
arguments that are left over are reported last.
-/

namespace DisplayFilter.Command

/-- The options. -/
inductive Switch where
  | help
  | config
  | labels
  | chinese
  | tree
  | json
  | listFields
  | verbose
  | version
  deriving DecidableEq, Repr

namespace Switch

/-- The spellings of all options, in the order of listings. -/
def spellings : List (String × Switch) :=
  [("-h", .help), ("--help", .help), ("-c", .config), ("--config", .config), ("-l", .labels),
    ("--labels", .labels), ("--zh", .chinese), ("--tree", .tree), ("--json", .json),
    ("--list-fields", .listFields), ("-v", .verbose), ("--verbose", .verbose),
    ("--version", .version)]

/-- All spellings of one option. -/
def title (switch : Switch) : String :=
  "/".intercalate ((spellings.filter (·.2 == switch)).map Prod.fst)

def takesValue : Switch → Bool
  | .config | .labels => true
  | _ => false

end Switch

/-- What is wrong with the arguments. -/
inductive ArgumentError where
  | ambiguous (argument : String) (candidates : List String)
  | missingValue (switch : Switch)
  | unexpectedValue (switch : Switch) (value : String)
  | unrecognized (arguments : List String)
  | noExpression
  deriving DecidableEq, Repr

namespace ArgumentError

def message : ArgumentError → String
  | .ambiguous argument candidates =>
    "ambiguous option: " ++ argument ++ " could match " ++ ", ".intercalate candidates
  | .missingValue switch => "argument " ++ switch.title ++ ": expected one argument"
  | .unexpectedValue switch value =>
    "argument " ++ switch.title ++ ": ignored explicit argument " ++ Text.literal value
  | .unrecognized arguments => "unrecognized arguments: " ++ " ".intercalate arguments
  | .noExpression => "an expression is required unless --list-fields is given"

end ArgumentError

/-- What comes with an option in the same argument: nothing, a value behind the equals sign of a long
option, or what is attached to a short option, with or without an equals sign. -/
inductive Attachment where
  | nothing
  | value (text : String)
  | attached (text : List Char)
  deriving DecidableEq, Repr

/-- An argument by its form. -/
inductive Word where
  | plain (text : String)
  | separator
  | option (switch : Switch) (attachment : Attachment)
  | unknown (text : String)
  deriving DecidableEq, Repr

namespace Word

/-- A number with a minus sign, in digits of any script. -/
def isNegativeNumber (text : List Char) : Bool :=
  let text := if text.getLast? = some '\n' then text.dropLast else text
  match text with
  | '-' :: rest =>
    let (whole, rest) := rest.span Text.isDecimalDigit
    match rest with
    | [] => !whole.isEmpty
    | '.' :: fraction => !fraction.isEmpty && fraction.all Text.isDecimalDigit
    | _ => false
  | _ => false

def isShort : List Char → Bool
  | ['-', letter] => letter != '-'
  | _ => false

/-- What stands before the first equals sign, and what comes behind it. -/
def splitValue (text : List Char) : List Char × Attachment :=
  let (name, rest) := text.span (· != '=')
  match rest with
  | [] => (name, .nothing)
  | _ :: value => (name, if isShort name then .attached value else .value (String.ofList value))

/-- Spellings that an argument may shorten, or of which it is the short option with something attached,
each with what comes with it. -/
def candidates (text : List Char) : List (String × Switch × Attachment) :=
  match text with
  | '-' :: '-' :: _ =>
    let (name, attachment) := splitValue text
    (Switch.spellings.filter fun entry => name.isPrefixOf entry.1.toList).map fun entry =>
      (entry.1, entry.2, attachment)
  | '-' :: letter :: attached =>
    (Switch.spellings.filter fun entry => entry.1.toList == ['-', letter]).map fun entry =>
      (entry.1, entry.2, .attached attached)
  | _ => []

/-- The option that an argument spells out in full, before an equals sign if there is one. -/
def inFull? (text : List Char) : Option Word :=
  match Switch.spellings.lookup (String.ofList text) with
  | some switch => some (.option switch .nothing)
  | none => match splitValue text with
    | (_, .nothing) => none
    | (name, attachment) =>
      (Switch.spellings.lookup (String.ofList name)).map fun switch => .option switch attachment

/-- The form of an argument that does not come after the separator. -/
def ofArgument (argument : String) : Except ArgumentError Word :=
  let text := argument.toList
  if text.head? ≠ some '-' ∨ text = ['-'] then .ok (.plain argument)
  else match inFull? text with
    | some word => .ok word
    | none => match candidates text with
      | [(_, switch, attachment)] => .ok (.option switch attachment)
      | [] =>
        if isNegativeNumber text || text.contains ' ' then .ok (.plain argument)
        else .ok (.unknown argument)
      | several => .error (.ambiguous argument (several.map Prod.fst))

def ofArguments : List String → Except ArgumentError (List Word)
  | [] => .ok []
  | "--" :: rest => .ok (.separator :: rest.map .plain)
  | argument :: rest => do
    let word ← ofArgument argument
    let words ← ofArguments rest
    return word :: words

end Word

/-- What the arguments ask for. -/
structure Options where
  expression : Option String
  config : String
  labels : Option String
  chinese : Bool
  tree : Bool
  json : Bool
  listFields : Bool
  verbose : Bool
  deriving DecidableEq, Repr

namespace Options

def defaults : Options :=
  ⟨none, "config.yaml", none, false, false, false, false, false⟩

/-- With an option that takes no value. -/
def set (options : Options) : Switch → Options
  | .chinese => { options with chinese := true }
  | .tree => { options with tree := true }
  | .json => { options with json := true }
  | .listFields => { options with listFields := true }
  | .verbose => { options with verbose := true }
  | _ => options

/-- With an option that takes a value. -/
def setValue (options : Options) (switch : Switch) (value : String) : Options :=
  match switch with
  | .config => { options with config := value }
  | .labels => { options with labels := some value }
  | _ => options

end Options

/-- What the command is to do. -/
inductive Request where
  | run (options : Options)
  | version
  | help
  deriving DecidableEq, Repr

/-- One option of an argument: without a value, with its value, or still in need of the next argument. -/
inductive Setting where
  | flag (switch : Switch)
  | value (switch : Switch) (value : String)
  | unfinished (switch : Switch)
  deriving DecidableEq, Repr

/-- The value that comes with an option in the same argument; two dashes stand for an empty one. -/
def ownValue (text : List Char) : String :=
  if text = ['-', '-'] then "" else String.ofList text

/-- The options that run together behind a short option without a value. -/
def attachedSettings (switch : Switch) : List Char → Except ArgumentError (List Setting)
  | [] => .ok [.flag switch]
  | letter :: rest =>
    match Switch.spellings.lookup (String.ofList ['-', letter]) with
    | none => .error (.unexpectedValue switch (String.ofList (letter :: rest)))
    | some next =>
      if next.takesValue then
        .ok [.flag switch, if rest.isEmpty then .unfinished next else .value next (ownValue rest)]
      else do
        let others ← attachedSettings next rest
        return .flag switch :: others

/-- The options of one argument. -/
def settings (switch : Switch) : Attachment → Except ArgumentError (List Setting)
  | .nothing => .ok [if switch.takesValue then .unfinished switch else .flag switch]
  | .value text =>
    if switch.takesValue then .ok [.value switch (ownValue text.toList)]
    else .error (.unexpectedValue switch text)
  | .attached text =>
    if switch.takesValue then .ok [.value switch (ownValue text)]
    else if text.isEmpty then .error (.unexpectedValue switch "")
    else attachedSettings switch text

/-- What an option without value comes to. -/
def applyFlag (options : Options) (switch : Switch) : Except Request Options :=
  match switch with
  | .version => .error .version
  | .help => .error .help
  | _ => .ok (options.set switch)

/-- Applies options in order, until one of them is a request of its own. -/
def applySettings (options : Options) : List Setting → Except Request Options
  | [] => .ok options
  | .flag switch :: rest => do applySettings (← applyFlag options switch) rest
  | .value switch text :: rest => applySettings (options.setValue switch text) rest
  | .unfinished _ :: rest => applySettings options rest

/-- The option that still needs the next argument. -/
def openSwitch? (settings : List Setting) : Option Switch :=
  settings.findSome? fun setting => match setting with
    | .unfinished switch => some switch
    | _ => none

/-- An option that waits for the next argument, with what stood before it in its own argument. -/
structure Waiting where
  before : List Setting
  switch : Switch
  deriving DecidableEq, Repr

/-- Takes arguments in order. `isTaken` tells that the place of the expression is taken, and `extras` are
the arguments that have no place. -/
def takeWords (options : Options) (waiting : Option Waiting) (isTaken : Bool)
    (extras : List String) (words : List Word) : Except ArgumentError Request :=
  match waiting, words with
  | some pending, .plain text :: rest => match applySettings options pending.before with
    | .error request => .ok request
    | .ok options => takeWords (options.setValue pending.switch text) none isTaken extras rest
  | some pending, _ => .error (.missingValue pending.switch)
  | none, [] => if extras.isEmpty then .ok (.run options) else .error (.unrecognized extras)
  | none, .option switch attachment :: rest => match settings switch attachment with
    | .error error => .error error
    | .ok found => match openSwitch? found with
      | some last => takeWords options (some ⟨found, last⟩) isTaken extras rest
      | none => match applySettings options found with
        | .error request => .ok request
        | .ok options => takeWords options none isTaken extras rest
  | none, .unknown text :: rest => takeWords options none isTaken (extras ++ [text]) rest
  | none, .plain text :: .separator :: rest =>
    if isTaken then takeWords options none isTaken (extras ++ [text, "--"]) rest
    else takeWords { options with expression := some text } none true extras rest
  | none, .plain text :: rest =>
    if isTaken then takeWords options none isTaken (extras ++ [text]) rest
    else takeWords { options with expression := some text } none true extras rest
  | none, .separator :: .plain text :: rest =>
    if isTaken then takeWords options none isTaken (extras ++ ["--", text]) rest
    else takeWords { options with expression := some text } none true extras rest
  | none, .separator :: rest =>
    takeWords options none true (if isTaken then extras ++ ["--"] else extras) rest

def readArguments (arguments : List String) : Except ArgumentError Request := do
  takeWords Options.defaults none false [] (← Word.ofArguments arguments)

end DisplayFilter.Command
