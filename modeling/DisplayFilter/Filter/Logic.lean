/-!
# Combinators

A node of a filter is joined to the sibling before it by *and* or by *or*.
-/

namespace DisplayFilter

/-- How a node is joined to the sibling before it. -/
inductive Logic where
  | and
  | or
  deriving DecidableEq, Repr, Inhabited

namespace Logic

/-- The combinator as an expression writes it. -/
def symbol : Logic → String
  | .and => "&&"
  | .or => "||"

def name : Logic → String
  | .and => "AND"
  | .or => "OR"

/-- Reads an exact symbol. -/
def ofSymbol? : String → Option Logic
  | "&&" => some .and
  | "||" => some .or
  | _ => none

/-- Reads a symbol or a word, in small letters. -/
def ofWord? : String → Option Logic
  | "&&" | "and" => some .and
  | "||" | "or" => some .or
  | _ => none

theorem ofSymbol?_symbol (logic : Logic) : ofSymbol? logic.symbol = some logic := by
  cases logic <;> rfl

theorem symbol_inj {logic other : Logic} (hsymbol : logic.symbol = other.symbol) : logic = other := by
  have hread := ofSymbol?_symbol logic
  rw [hsymbol, ofSymbol?_symbol] at hread
  exact (Option.some.inj hread).symm

end Logic

end DisplayFilter
