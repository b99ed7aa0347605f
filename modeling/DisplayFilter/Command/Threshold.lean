import DisplayFilter.Document.Value
import DisplayFilter.Text.Letters
/-!
# Log thresholds

The threshold of the log is a number or the name of a level. Names are taken in any letter case, and an
unknown name counts as the level of information. Nothing leaves the threshold at warnings.
-/

namespace DisplayFilter.Log

def defaultThreshold : Int := 30

/-- The names of levels, in capitals. -/
def levelNames : List (String × Int) :=
  [("CRITICAL", 50), ("FATAL", 50), ("ERROR", 40), ("WARNING", 30), ("WARN", 30), ("INFO", 20),
    ("DEBUG", 10), ("NOTSET", 0)]

/-- The threshold that a value sets; values other than names and integers set none. -/
def threshold? : Value → Option Int
  | .null => some defaultThreshold
  | .text name => some ((levelNames.lookup (Text.upper name)).getD 20)
  | .int n => some n
  | .bool value => some (if value then 1 else 0)
  | _ => none

end DisplayFilter.Log
