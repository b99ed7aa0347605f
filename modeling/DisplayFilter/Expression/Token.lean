import DisplayFilter.Filter.Operator
import DisplayFilter.Text.Letters
/-!
# Tokens

A token is a kind and the text it was written as. A quoted token keeps its quotes and escapes in the
text; `Token.content` is what the text stands for.
-/

namespace DisplayFilter

inductive TokenKind where
  | and
  | or
  | leftParen
  | rightParen
  | not
  | comparison
  | atom
  deriving DecidableEq, Repr, Inhabited

namespace TokenKind

/-- The word for a kind of token in listings. -/
def name : TokenKind → String
  | .and => "AND"
  | .or => "OR"
  | .leftParen => "LPAREN"
  | .rightParen => "RPAREN"
  | .not => "NOT"
  | .comparison => "COMPARISON"
  | .atom => "ATOM"

def ofName? : String → Option TokenKind
  | "AND" => some .and
  | "OR" => some .or
  | "LPAREN" => some .leftParen
  | "RPAREN" => some .rightParen
  | "NOT" => some .not
  | "COMPARISON" => some .comparison
  | "ATOM" => some .atom
  | _ => none

/-- The kind of an unquoted token, from its whole text. -/
def ofText (text : String) : TokenKind :=
  match Text.lower text with
  | "&&" | "and" => .and
  | "||" | "or" => .or
  | "(" => .leftParen
  | ")" => .rightParen
  | "!" | "not" => .not
  | word => if (Operator.ofSpelling? word).isSome then .comparison else .atom

end TokenKind

/-- A piece of an expression. -/
structure Token where
  kind : TokenKind
  text : String
  deriving DecidableEq, Repr, Inhabited

namespace Token

/-- What a character after a backslash stands for. -/
def unescapeChar : Char → Char
  | 'n' => '\n'
  | 'r' => '\r'
  | 't' => '\t'
  | c => c

/-- Resolves escapes from left to right; a backslash with nothing after it stands for itself. -/
def unescape : List Char → List Char
  | [] => []
  | '\\' :: c :: rest => unescapeChar c :: unescape rest
  | c :: rest => c :: unescape rest

/-- An odd number of backslashes at the end, so that the last one escapes what follows. -/
def endsInEscape (text : List Char) : Bool :=
  (text.reverse.takeWhile (· == '\\')).length % 2 == 1

/-- The inside of a quoted text: the opening quote is gone, and the closing one if there is one. -/
def stripQuotes (text : List Char) : List Char :=
  let body := text.tail
  if body.getLast? == some '"' && !endsInEscape body.dropLast then body.dropLast else body

/-- A literal that begins with a double quote. -/
def isQuoted (token : Token) : Bool :=
  token.kind == .atom && token.text.toList.head? == some '"'

/-- The text a token stands for. -/
def content (token : Token) : String :=
  if token.isQuoted then String.ofList (unescape (stripQuotes token.text.toList)) else token.text

/-- The comparison a token spells, in any letter case. -/
def operator? (token : Token) : Option Operator :=
  Operator.ofSpelling? (Text.lower token.text)

end Token

end DisplayFilter
