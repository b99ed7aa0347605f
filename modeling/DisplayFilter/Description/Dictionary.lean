import DisplayFilter.Description.Chinese
import DisplayFilter.Description.Phrasebook
import DisplayFilter.Document.File
import DisplayFilter.Document.Merge
import DisplayFilter.Log
/-!
# Label dictionaries

A label document may hold sections for fields, operators and the vocabulary. What it holds is put over
the English labels, key by key; keys that are not texts count as their texts. A document that is no
mapping, a section that is no mapping and an operator entry without a label are faults. Documents and
sections that are empty count as absent.
-/

namespace DisplayFilter

/-- Labels in full: every field and word as a text, every operator with symbol and label. -/
structure Dictionary where
  fields : Table String String
  operators : Table String OperatorLabel
  vocabulary : Table String String

inductive LoadFault where
  | unreadable (fault : ReadFault)
  | labels (error : LabelError)
  deriving DecidableEq, Repr

namespace LoadFault

def message (path : String) : LoadFault → String
  | .unreadable fault => fault.message path
  | .labels error => error.message

end LoadFault

/-- The sections of a label document, with their keys as texts. -/
structure LabelSections where
  fields : List (String × Value)
  operators : List (String × Value)
  vocabulary : List (String × Value)

namespace LabelSections

def empty : LabelSections :=
  ⟨[], [], []⟩

/-- The entries of a section. -/
def entriesOf (path name : String) (document : Value) :
    Except LabelError (List (String × Value)) :=
  match document.field? name with
  | none => .ok []
  | some value =>
    if value.isTruthy then
      match value with
      | .mapping entries => .ok (Table.ofEntries (entries.map fun entry => (entry.1.shown, entry.2)))
      | _ => .error (.sectionNotMapping name path)
    else .ok []

/-- The sections of a document that stands at a path. -/
def ofDocument (path : String) (document : Value) : Except LabelError LabelSections :=
  if document.isTruthy then
    match document with
    | .mapping _ => do
      let fields ← entriesOf path "fields" document
      let operators ← entriesOf path "operators" document
      let vocabulary ← entriesOf path "vocabulary" document
      return ⟨fields, operators, vocabulary⟩
    | _ => .error (.notMapping path)
  else .ok empty

end LabelSections

namespace Dictionary

/-- The dictionary with the sections of a document over the English labels. -/
def ofSections (sections : LabelSections) : Except LabelError Dictionary := do
  let given (entries : List (String × Value)) : List (String × OperatorEntry) :=
    entries.map fun entry => (entry.1, .given entry.2)
  let ready : Table String OperatorEntry :=
    English.operators.map fun entry => (entry.1, .labels entry.2)
  let texts (entries : List (String × Value)) : List (String × String) :=
    entries.map fun entry => (entry.1, entry.2.shown)
  let operators ← OperatorLabel.ofEntries (Table.putAll ready (given sections.operators))
  return ⟨Table.putAll English.fields (texts sections.fields), operators,
    Table.putAll English.vocabulary (texts sections.vocabulary)⟩

def english : Dictionary :=
  ⟨English.fields, English.operators, English.vocabulary⟩

/-- What comes of loading labels: records for the log, and a dictionary or a fault. -/
structure Loading where
  records : List Log.Record
  result : Except LoadFault Dictionary

def logger : String := "traffic_filter.utils.dictionaries"

/-- Loads the labels of a document that stands at a path. -/
def ofDocument (path : String) (document : Value) : Loading :=
  match LabelSections.ofDocument path document with
  | .error error => ⟨[], .error (.labels error)⟩
  | .ok sections =>
    ⟨[⟨logger, .info, "Loaded label dictionaries from " ++ path⟩],
      (ofSections sections).mapError .labels⟩

/-- Loads the labels of a file; a missing file leaves the English ones. -/
def load (path : String) (file : FileState) : Loading :=
  match file with
  | .missing =>
    ⟨[⟨logger, .warning, "Label dictionary not found at " ++ path ++ ", using defaults"⟩],
      .ok english⟩
  | .unreadable fault => ⟨[], .error (.unreadable fault)⟩
  | .document document => ofDocument path document

def phrasebook (dictionary : Dictionary) : Phrasebook :=
  ⟨Phrasebook.ofTexts dictionary.fields, dictionary.operators,
    Table.putAll (Phrasebook.ofTexts English.vocabulary) (Phrasebook.ofTexts dictionary.vocabulary)⟩

/-- Where labels come from: nowhere but the English ones, the bundled ones, a file, or a file that cannot
be there. -/
inductive Source where
  | english
  | bundled
  | file (path : String)
  | absent (path : String)
  deriving DecidableEq, Repr

/-- Loads labels from where they come from. The bundled labels stand at a path of their own. -/
def ofSource (reader : DocumentReader) (files : Files) (bundledPath : String) : Source → Loading
  | .english => ⟨[], .ok english⟩
  | .bundled => ofDocument bundledPath Chinese.document
  | .file path => load path (files.read reader path)
  | .absent path => load path .missing

end Dictionary

end DisplayFilter
