import DisplayFilter.Expression.Parser
import DisplayFilter.Log
/-!
# Notes on a reading

What a reading passes over in silence is noted in the log: groups that are not closed, groups that are
empty, and what follows a closing parenthesis with no open group.
-/

namespace DisplayFilter.Reading

/-- Something a reading passed over. -/
inductive Note where
  | unclosed (id : Int)
  | emptyGroup (id : Int)
  | unmatched (position : Nat) (ignored : Nat)
  deriving DecidableEq, Repr

namespace State

/-- The notes on closing a group with these children. -/
def notesOnGroup (id : Int) (children : Forest) : List Note :=
  if children.isEmpty then [.emptyGroup id] else []

/-- The notes on taking a token at a position, with so many tokens from there to the end. -/
def notesOn (state : State) (token : Token) (position remaining : Nat) : List Note :=
  if state.halted then []
  else match token.kind, state.outer with
    | .rightParen, [] => [.unmatched position remaining]
    | .rightParen, (id, _) :: _ => notesOnGroup id state.settle.level.nodes
    | _, _ => []

/-- The notes on closing what the end of the tokens leaves open, innermost first. -/
def notesOnClosing : List (Int × Level) → Level → List Note
  | [], _ => []
  | (id, around) :: outer, level =>
    .unclosed id :: notesOnGroup id level.nodes ++
      notesOnClosing outer (around.appendGroup id level.nodes)

/-- The notes on taking tokens from a position up to the end. -/
def notesOnAll (state : State) (position : Nat) : List Token → List Note
  | [] => notesOnClosing state.settle.outer state.settle.level
  | token :: rest =>
    notesOn state token position (rest.length + 1) ++
      match state.feed token with
      | .ok next => notesOnAll next (position + 1) rest
      | .error _ => []

end State

def notes (tokens : List Token) (firstId : Int) : List Note :=
  (State.start firstId).notesOnAll 0 tokens

namespace Note

def logger : String := "traffic_filter.parser.filter_parser"

def record : Note → Log.Record
  | .unclosed id =>
    ⟨logger, .debug, "Group " ++ toString id ++ " is not closed before end of input"⟩
  | .emptyGroup id => ⟨logger, .debug, "Dropping empty group " ++ toString id⟩
  | .unmatched position ignored =>
    ⟨logger, .warning, "Unmatched ')' at token " ++ toString position ++ ", ignoring " ++
      toString ignored ++ " trailing token(s)"⟩

end Note

/-- The records of reading an expression, the last of which counts tokens and roots. -/
def records (text : String) (firstId : Int) : List Log.Record :=
  let tokens := Token.scan text
  (notes tokens firstId).map Note.record ++
    [⟨Note.logger, .debug, "Parsed " ++ toString tokens.length ++ " token(s) into " ++
      toString (ofText text firstId).forest.length ++ " root node(s)"⟩]

end DisplayFilter.Reading
