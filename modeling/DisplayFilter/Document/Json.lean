import DisplayFilter.Document.Value
import DisplayFilter.Numeric.Shortest
import DisplayFilter.Text.Literal
/-!
# Values as JSON

The JSON text of a value, on one line or indented. Only quotes, backslashes and control characters are
escaped; all other characters stand as they are. Dates and moments are strings.
-/

namespace DisplayFilter

namespace Json

/-- One character of a JSON string. -/
def escapeChar (c : Char) : List Char :=
  match c with
  | '"' => ['\\', '"']
  | '\\' => ['\\', '\\']
  | '\n' => ['\\', 'n']
  | '\r' => ['\\', 'r']
  | '\t' => ['\\', 't']
  | '\x0c' => ['\\', 'f']
  | '\x08' => ['\\', 'b']
  | _ => if c.toNat < 0x20 then '\\' :: 'u' :: Text.hexDigits 4 c.toNat else [c]

def string (text : String) : String :=
  String.ofList ('"' :: text.toList.flatMap escapeChar ++ ['"'])

/-- A floating-point number; those that are not finite have names. -/
def number : Binary64 → String
  | .nan => "NaN"
  | .infinite negative => if negative then "-Infinity" else "Infinity"
  | value => value.text

def scalar : Scalar → String
  | .null => "null"
  | .bool value => if value then "true" else "false"
  | .int value => toString value
  | .float value => number value
  | .date value => string value.text
  | .moment value => string value.text
  | .text value => string value

/-- A key: JSON has only strings for keys, so other scalars are written inside quotes. -/
def key : Scalar → String
  | .date value => string value.text
  | .moment value => string value.text
  | .text value => string value
  | other => string (scalar other)

/-- How the parts of a value are set: what opens a line at a depth, and what stands between items and
between a key and its value. -/
structure Layout where
  lineBreak : Nat → String
  separator : String
  colon : String

/-- Everything on one line. -/
def Layout.compact : Layout :=
  ⟨fun _ => "", ", ", ": "⟩

/-- Every item on a line of its own, two blanks deeper than what holds it. -/
def Layout.indented : Layout :=
  ⟨fun depth => String.ofList ('\n' :: List.replicate (2 * depth) ' '), ",", ": "⟩

/-- Items between brackets, each on its line. -/
def enclose (layout : Layout) (depth : Nat) (opening closing : String) (items : List String) :
    String :=
  if items.isEmpty then opening ++ closing
  else
    opening ++ layout.lineBreak (depth + 1) ++
      (layout.separator ++ layout.lineBreak (depth + 1)).intercalate items ++
      layout.lineBreak depth ++ closing

mutual

def value (layout : Layout) (depth : Nat) : Value → String
  | .scalar s => scalar s
  | .sequence items => enclose layout depth "[" "]" (values layout (depth + 1) items)
  | .mapping entries => enclose layout depth "\x7b" "\x7d" (members layout (depth + 1) entries)

def values (layout : Layout) (depth : Nat) : List Value → List String
  | [] => []
  | item :: rest => value layout depth item :: values layout depth rest

def members (layout : Layout) (depth : Nat) : List (Scalar × Value) → List String
  | [] => []
  | (name, item) :: rest =>
    (key name ++ layout.colon ++ value layout depth item) :: members layout depth rest

end

end Json

/-- The JSON text of a value on one line. -/
def Value.json (value : Value) : String :=
  Json.value .compact 0 value

/-- The JSON text of a value on indented lines. -/
def Value.indentedJson (value : Value) : String :=
  Json.value .indented 0 value

end DisplayFilter
