import DisplayFilter.Expression.Scanner
import DisplayFilter.Filter.Node
/-!
# The canonical expression

`Forest.text` writes a forest on one line: siblings joined by their combinators, groups in parentheses,
fields bare where they can be read back as one word, values bare where they are numbers, everything else
quoted.
-/

namespace DisplayFilter

namespace Printer

/-- One character inside double quotes. -/
def escapeChar : Char → List Char
  | '\\' => ['\\', '\\']
  | '"' => ['\\', '"']
  | '\n' => ['\\', 'n']
  | '\r' => ['\\', 'r']
  | '\t' => ['\\', 't']
  | c => [c]

/-- The text in double quotes, with backslashes, quotes, line breaks and tabs escaped. -/
def quote (text : List Char) : List Char :=
  '"' :: text.flatMap escapeChar ++ ['"']

/-- The text less one line feed at its end. -/
def dropFinalNewline (text : List Char) : List Char :=
  if text.getLast? = some '\n' then text.dropLast else text

def isHexDigit (c : Char) : Bool :=
  c.isDigit || ('a' ≤ c && c ≤ 'f') || ('A' ≤ c && c ≤ 'F')

/-- A decimal or dotted number, or a hexadecimal one with its mark. -/
def isNumber : List Char → Bool
  | '0' :: 'x' :: digit :: digits => (digit :: digits).all isHexDigit
  | '0' :: 'X' :: digit :: digits => (digit :: digits).all isHexDigit
  | [] => false
  | digits => digits.all fun c => c.isDigit || c == '.'

/-- A value is bare when it is a number, and one line feed after the number does not count. -/
def isBareValue (value : List Char) : Bool :=
  isNumber (dropFinalNewline value)

def value (text : List Char) : List Char :=
  if isBareValue text then text else quote text

/-- Characters of a bare field: those of a word, less the backslash. -/
def isFieldChar (c : Char) : Bool :=
  Token.isWordChar c && c != '\\'

/-- Words that are never bare fields, since they would be read as something else. -/
def isReserved (word : String) : Bool :=
  ["and", "or", "not"].contains word || (Operator.ofSpelling? word).isSome

/-- A field is bare when it is one word that is not reserved, and one line feed after the word does not
count. -/
def isBareField (field : List Char) : Bool :=
  let word := dropFinalNewline field
  !word.isEmpty && word.all isFieldChar && !isReserved (Text.lower (String.ofList field))

def field (text : List Char) : List Char :=
  if isBareField text then text else quote text

/-- A condition: presence is the bare field, absence has the mark before it. -/
def condition (name : String) (operator : Operator) (text : String) : List Char :=
  match operator with
  | .exists => field name.toList
  | .negatedExists => '!' :: field name.toList
  | _ => field name.toList ++ ' ' :: operator.symbol.toList ++ ' ' :: value text.toList

/-- What joins a node to the sibling before it. -/
def connective (logic : Logic) : List Char :=
  ' ' :: logic.symbol.toList ++ [' ']

mutual

/-- One node, without the combinator before it. -/
def node : Node → List Char
  | .condition _ _ name operator text => condition name operator text
  | .group _ _ negated children =>
    (if negated then ['!'] else []) ++ '(' :: siblings true children ++ [')']

/-- Siblings in order; the first of them has no combinator before it. -/
def siblings (first : Bool) : List Node → List Char
  | [] => []
  | sibling :: rest =>
    (if first then [] else connective sibling.logic) ++ node sibling ++ siblings false rest

end

end Printer

def Node.text (node : Node) : String :=
  String.ofList (Printer.node node)

/-- The canonical expression of a forest. -/
def Forest.text (forest : Forest) : String :=
  String.ofList (Printer.siblings true forest)

end DisplayFilter
