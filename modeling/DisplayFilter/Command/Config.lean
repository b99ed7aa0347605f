import DisplayFilter.Document.File
import DisplayFilter.Document.Merge
/-!
# Configuration

The configuration is a mapping of sections. A configuration file is merged over the defaults; a file that
is missing, cannot be opened or is malformed leaves them. A document that is no mapping, a scalar without a value
and octets that are not UTF-8 are faults. A section that is no mapping has no settings.
-/

namespace DisplayFilter

inductive ConfigFault where
  | undecodable (fault : Text.Utf8.Fault)
  | valueless (message : String)
  | notMapping
  deriving DecidableEq, Repr

namespace Config

/-- The configuration without a file. -/
def defaults : Value :=
  .record [("logging", .record [("level", .text "WARNING"), ("file", .null)]),
    ("dictionaries", .record [("path", .null)]),
    ("tree", .record [("initial_field", .text "http")])]

def ofFile : FileState → Except ConfigFault Value
  | .missing | .unreadable .directory | .unreadable .locked | .unreadable .malformed => .ok defaults
  | .unreadable (.undecodable fault) => .error (.undecodable fault)
  | .unreadable (.valueless message) => .error (.valueless message)
  | .document document =>
    if document.isTruthy then (defaults.merge document).mapError fun _ => .notMapping
    else .ok defaults

/-- A setting of a section. -/
def setting? (config : Value) (part name : String) : Option Value :=
  (config.field? part).bind (·.field? name)

end Config

end DisplayFilter
