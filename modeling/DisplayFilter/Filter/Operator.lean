/-!
# Operators

The closed set of condition operators. Each has one canonical symbol. Comparisons also have the
spellings under which an expression may write them; a test of presence has none, since there the
operator is left out.
-/

namespace DisplayFilter

/-- What a condition asks of its field. -/
inductive Operator where
  | equals
  | notEquals
  | contains
  | isMatch
  | greaterThan
  | lessThan
  | greaterOrEqual
  | lessOrEqual
  | exists
  | negatedExists
  deriving DecidableEq, Repr, Inhabited

namespace Operator

/-- Every operator, in the order of listings. -/
def all : List Operator :=
  [.equals, .notEquals, .contains, .isMatch, .greaterThan, .lessThan, .greaterOrEqual, .lessOrEqual,
    .exists, .negatedExists]

def symbol : Operator → String
  | .equals => "=="
  | .notEquals => "!="
  | .contains => "contains"
  | .isMatch => "matches"
  | .greaterThan => ">"
  | .lessThan => "<"
  | .greaterOrEqual => ">="
  | .lessOrEqual => "<="
  | .exists => "exists"
  | .negatedExists => "!"

def identifier : Operator → String
  | .equals => "equals"
  | .notEquals => "not_equals"
  | .contains => "contains"
  | .isMatch => "matches"
  | .greaterThan => "greater_than"
  | .lessThan => "less_than"
  | .greaterOrEqual => "greater_or_equal"
  | .lessOrEqual => "less_or_equal"
  | .exists => "exists"
  | .negatedExists => "negated_exists"

/-- The name of the operator in listings of the members. -/
def name : Operator → String
  | .equals => "EQUALS"
  | .notEquals => "NOT_EQUALS"
  | .contains => "CONTAINS"
  | .isMatch => "MATCHES"
  | .greaterThan => "GREATER_THAN"
  | .lessThan => "LESS_THAN"
  | .greaterOrEqual => "GREATER_OR_EQUAL"
  | .lessOrEqual => "LESS_OR_EQUAL"
  | .exists => "EXISTS"
  | .negatedExists => "NEGATED_EXISTS"

/-- Comparisons take a value, tests of presence do not. -/
def takesValue : Operator → Bool
  | .exists | .negatedExists => false
  | _ => true

/-- Every spelling of a comparison between a field and its value, in small letters. -/
def spellings : List (String × Operator) :=
  [("==", .equals), ("eq", .equals), ("!=", .notEquals), ("ne", .notEquals),
    ("contains", .contains), ("matches", .isMatch), ("~", .isMatch), (">", .greaterThan),
    ("gt", .greaterThan), ("<", .lessThan), ("lt", .lessThan), (">=", .greaterOrEqual),
    ("ge", .greaterOrEqual), ("<=", .lessOrEqual), ("le", .lessOrEqual)]

/-- Reads a spelling in small letters. -/
def ofSpelling? (spelling : String) : Option Operator :=
  spellings.lookup spelling

def ofSymbol? (symbol : String) : Option Operator :=
  all.find? (·.symbol == symbol)

/-- Reads a symbol, an identifier or a spelling in small letters; anything else is a test of presence. -/
def ofWord (word : String) : Operator :=
  match all.find? fun op => word == op.symbol || word == op.identifier with
  | some op => op
  | none => (ofSpelling? word).getD .exists

theorem ofSymbol?_symbol (op : Operator) : ofSymbol? op.symbol = some op := by
  cases op <;> rfl

theorem symbol_inj {op other : Operator} (hsymbol : op.symbol = other.symbol) : op = other := by
  have hread := ofSymbol?_symbol op
  rw [hsymbol, ofSymbol?_symbol] at hread
  exact (Option.some.inj hread).symm

end Operator

end DisplayFilter
