import DisplayFilter.Command.Arguments
import DisplayFilter.Command.Config
import DisplayFilter.Command.Threshold
import DisplayFilter.Description.Dictionary
import DisplayFilter.Document.Json
import DisplayFilter.Expression.Notes
import DisplayFilter.Expression.Printer
import DisplayFilter.Tree.Edit
import DisplayFilter.Tree.Outline
/-!
# Running the command

A run reads the configuration, sets the log, loads the labels, and then lists the known fields or parses
the expression and prints it. What it prints and what it logs come in one order. What it logs is also
written at the end of the log file, and what stands there by then is what the labels are read from if they
stand in that file. A run ends with an exit status, with a complaint about the arguments, or with a fault
that nothing handles.
-/

namespace DisplayFilter.Command

/-- A line of output: printed, or logged. -/
inductive Output where
  | printed (line : String)
  | logged (record : Log.Record)
  deriving DecidableEq, Repr

inductive Fault where
  | wrongType
  | configNotMapping
  | undecodable
  | valueless (message : String)
  | malformed
  | outOfRange
  | directory
  | locked
  | noDirectory
  | notDirectory
  deriving DecidableEq, Repr

def Fault.message : Fault → String
  | .wrongType => "a setting has a value of the wrong type"
  | .configNotMapping => "the configuration is not a mapping"
  | .undecodable => "the configuration is not UTF-8"
  | .valueless message => message
  | .malformed => "the label dictionary is malformed"
  | .outOfRange => "the path of the label dictionary is out of range"
  | .directory => "the log file is a directory"
  | .locked => "the log file is locked"
  | .noDirectory => "the directory of the log file is missing"
  | .notDirectory => "the log file is not in a directory"

inductive Ending where
  | exit (status : Nat)
  | usage (error : ArgumentError)
  | fault (fault : Fault)
  deriving DecidableEq, Repr

/-- A run: its output in order, how it ends, and the place of the file that the log is copied to. -/
structure Run where
  output : List Output
  ending : Ending
  logFile : Option Path
  deriving DecidableEq, Repr

/-- What a run meets: files, a reader of documents, the path by which the bundled labels are reported, and the
time stamp of the log. -/
structure Environment where
  files : Files
  reader : DocumentReader
  bundledPath : String
  stamp : String

namespace Output

def text (stamp : String) : Output → String
  | .printed line => line ++ "\n"
  | .logged record => record.line stamp

/-- The record of a line that is logged. -/
def record? : Output → Option Log.Record
  | .printed _ => none
  | .logged record => some record

end Output

/-- What is logged, in lines. -/
def logText (stamp : String) (output : List Output) : String :=
  String.join ((output.filterMap Output.record?).map (Log.Record.line stamp))

/-- The files after what is logged is written at the end of the log file, if there is one. -/
def filesAfter (environment : Environment) (logFile : Option Path) (output : List Output) : Files :=
  match logFile with
  | none => environment.files
  | some place =>
    environment.files.append place (Text.Utf8.encode (logText environment.stamp output).toList)

namespace Run

/-- All that is printed and logged. -/
def text (stamp : String) (run : Run) : String :=
  String.join (run.output.map (Output.text stamp))

/-- The files that a run leaves. -/
def files (environment : Environment) (run : Run) : Files :=
  filesAfter environment run.logFile run.output

end Run

def versionLine : String := "traffic-filter 0.1.0"

def usageLine : String :=
  "usage: traffic-filter [-h] [-c CONFIG] [-l LABELS] [--zh] [--tree] [--json] [--list-fields] " ++
    "[-v] [--version] [expression]"

def logger : String := "traffic_filter"

/-- The part that writes records on trees. -/
def treeLogger : String := "traffic_filter.tree.store"

/-- The log that a configuration sets: its threshold, and the place of the file it is copied to. -/
structure LogSetting where
  threshold : Int
  file : Option Path

/-- The place of a file that can be written. -/
def writable (files : Files) (place : Path) : Except Fault Path :=
  match files.walk place.origin place.names with
  | .error .missing => .error .noDirectory
  | .error .notDirectory => .error .notDirectory
  | .ok place => match files place with
    | .directory => .error .directory
    | .locked => .error .locked
    | _ => .ok place

/-- The place of the file that the log is copied to: none when the setting is empty. -/
def logFile? (files : Files) (setting : Value) : Except Fault (Option Path) :=
  if setting.isTruthy then
    match setting with
    | .text path => (writable files (Path.ofText path)).map some
    | _ => .error .wrongType
  else .ok none

/-- The log that a configuration sets. -/
def logSetting (files : Files) (verbose : Bool) (config : Value) : Except Fault LogSetting := do
  let some level := Config.setting? config "logging" "level" | .error .wrongType
  let some file := Config.setting? config "logging" "file" | .error .wrongType
  let some threshold := Log.threshold? (if verbose then .int Log.Level.debug.number else level)
    | .error .wrongType
  return ⟨threshold, ← logFile? files file⟩

/-- The number in the place of a path is one of 32 bits. -/
def isInRange (number : Int) : Bool :=
  -(twoTo 31 : Int) ≤ number && number < twoTo 31

/-- Where the labels come from when no option names a file: the bundled labels, a file named by the
configuration, or nowhere but the English labels. A number names no file. -/
def configuredSource (options : Options) (config : Value) : Except Fault Dictionary.Source :=
  if options.chinese then .ok .bundled
  else match Config.setting? config "dictionaries" "path" with
    | none => .error .wrongType
    | some path =>
      if path.isTruthy then
        match path with
        | .text name => .ok (.file name)
        | .bool _ => .ok (.absent path.shown)
        | .int number => if isInRange number then .ok (.absent path.shown) else .error .outOfRange
        | _ => .error .wrongType
      else .ok .english

/-- Where the labels come from: a file named by an option comes first. -/
def labelSource (options : Options) (config : Value) : Except Fault Dictionary.Source :=
  match options.labels with
  | some path => if path = "" then configuredSource options config else .ok (.file path)
  | none => configuredSource options config

/-- The path by which a source of labels is reported. -/
def sourcePath (bundledPath : String) : Dictionary.Source → String
  | .english => ""
  | .bundled => bundledPath
  | .file path | .absent path => path

/-- Records as output, so far as they reach the threshold. -/
def logged (threshold : Int) (records : List Log.Record) : List Output :=
  (records.filter (·.isShown threshold)).map .logged

/-- The list of known fields, in order. -/
def fieldLines (dictionary : Dictionary) : List String :=
  "Known fields:" ::
    (dictionary.fields.mergeSort fun left right => decide (left.1 ≤ right.1)).map fun entry =>
      "• " ++ entry.1 ++ " - " ++ entry.2

def treeLines (options : Options) (dictionary : Dictionary) (tree : Tree) : List String :=
  if options.json then [(Value.sequence (Forest.records tree.roots)).indentedJson]
  else
    ("Expression: " ++ tree.roots.text) ::
      ("Description: " ++ dictionary.phrasebook.describe tree.roots) ::
      (if options.tree then "Tree:" :: tree.roots.outline 1 else [])

def showExpression (threshold : Int) (options : Options) (dictionary : Dictionary)
    (expression : String) : List Output × Ending :=
  let initial := Tree.initial ""
  let notes := Reading.records expression initial.nextId
  match initial.load? expression with
  | .ok (some tree) =>
    (logged threshold notes ++ (treeLines options dictionary tree).map .printed, .exit 0)
  | _ =>
    (logged threshold (notes ++
      [⟨treeLogger, .info, "Expression produced no filter nodes, keeping the current tree"⟩,
        ⟨logger, .error, "No filter could be parsed from " ++ Text.literal expression⟩]), .exit 1)

def showResult (threshold : Int) (options : Options) (config : Value) (dictionary : Dictionary) :
    List Output × Ending :=
  if options.listFields then ((fieldLines dictionary).map .printed, .exit 0)
  else match options.expression with
    | none => ([], .usage .noExpression)
    | some expression => match Config.setting? config "tree" "initial_field" with
      | none => ([], .fault .wrongType)
      | some _ => showExpression threshold options dictionary expression

/-- Loads the labels and goes on with them. -/
def withLabels (reader : DocumentReader) (files : Files) (bundledPath : String) (threshold : Int)
    (options : Options) (config : Value) : List Output × Ending :=
  match labelSource options config with
  | .error fault => ([], .fault fault)
  | .ok source =>
    let loading := Dictionary.ofSource reader files bundledPath source
    let records := logged threshold loading.records
    match loading.result with
    | .ok dictionary =>
      let (output, ending) := showResult threshold options config dictionary
      (records ++ output, ending)
    | .error (.unreadable .malformed) => (records, .fault .malformed)
    | .error fault =>
      let path := sourcePath bundledPath source
      (records ++ logged threshold [⟨logger, .error,
        "Failed to load label dictionary " ++ path ++ ": " ++ fault.message path⟩], .exit 1)

def argumentPaths (arguments : List String) : List String :=
  match readArguments arguments with
  | .ok (.run options) => options.config :: options.labels.toList
  | _ => []

def configPaths (config : Value) : List String :=
  [("dictionaries", "path"), ("logging", "file")].filterMap fun (part, name) =>
    match Config.setting? config part name with
    | some (.text path) => some path
    | _ => none

def configFilePaths (file : FileState) : List String :=
  match Config.ofFile file with
  | .ok config => configPaths config
  | .error _ => []

def runOptions (environment : Environment) (options : Options) : Run :=
  match Config.ofFile (environment.files.read environment.reader options.config) with
  | .error (.undecodable _) => ⟨[], .fault .undecodable, none⟩
  | .error (.valueless message) => ⟨[], .fault (.valueless message), none⟩
  | .error .notMapping => ⟨[], .fault .configNotMapping, none⟩
  | .ok config => match logSetting environment.files options.verbose config with
    | .error fault => ⟨[], .fault fault, none⟩
    | .ok setting =>
      let opening :=
        if options.verbose then
          logged setting.threshold [⟨logger, .debug, "Verbose logging enabled."⟩]
        else []
      let files := filesAfter environment setting.file opening
      let (output, ending) :=
        withLabels environment.reader files environment.bundledPath setting.threshold options config
      ⟨opening ++ output, ending, setting.file⟩

def run (environment : Environment) (arguments : List String) : Run :=
  match readArguments arguments with
  | .error error => ⟨[], .usage error, none⟩
  | .ok .version => ⟨[.printed versionLine], .exit 0, none⟩
  | .ok .help => ⟨[.printed usageLine], .exit 0, none⟩
  | .ok (.run options) => runOptions environment options

end DisplayFilter.Command
