import DisplayFilter.Document.Display
import DisplayFilter.Filter.Error
import DisplayFilter.Text.Blank
import DisplayFilter.Text.Letters
/-!
# What a patch gives for an attribute

A patch gives a value, or a combinator or an operator itself. Combinators and operators are found by their
words in any letter case with blanks around them. An unknown word is an error for a combinator and a test
of presence for an operator. A flag is a word, or any other value taken for true or false.
-/

namespace DisplayFilter

/-- What a patch gives for an attribute. -/
inductive Argument where
  | plain (given : Value)
  | logic (given : Logic)
  | operator (given : Operator)
  deriving Inhabited

namespace Argument

/-- The text of what is given; a member of a closed set shows the set and its own name. -/
def shown : Argument → String
  | .plain given => given.shown
  | .logic given => "Logic." ++ given.name
  | .operator given => "Operator." ++ given.name

def literal : Argument → String
  | .plain given => given.literal
  | .logic given => "<Logic." ++ given.name ++ ": " ++ Text.literal given.symbol ++ ">"
  | .operator given =>
    "<Operator." ++ given.name ++ ": " ++ Text.literal given.symbol ++ ">"

/-- The word that is given, without blanks at its ends and in small letters. -/
def word (argument : Argument) : String :=
  Text.lower (Text.trim argument.shown)

def toLogic : Argument → Except FilterError Logic
  | .logic given => .ok given
  | argument => match Logic.ofWord? argument.word with
    | some found => .ok found
    | none => .error (.unknownLogic argument.literal)

def toOperator : Argument → Operator
  | .operator given => given
  | argument => Operator.ofWord argument.word

def trueWords : List String := ["true", "yes", "on", "1"]

def falseWords : List String := ["false", "no", "off", "0", ""]

def toFlag : Argument → Except FilterError Bool
  | .plain (.text text) =>
    let word := Text.lower (Text.trim text)
    if trueWords.contains word then .ok true
    else if falseWords.contains word then .ok false
    else .error (.notFlag (Text.literal text))
  | .plain given => .ok given.isTruthy
  | _ => .ok true

end Argument

end DisplayFilter
