import DisplayFilter.Expression.Scanner
import DisplayFilter.Filter.Node
/-!
# Reading tokens

A filter is read from left to right by a machine that holds the groups still open, the siblings of the
level it is on, and the condition it has begun. Reading is fail-soft: groups left open end with the
input, empty groups vanish, and a closing parenthesis with no open group ends the reading. It fails in
one case only, when a token claims to be a comparison and spells none; `readText` shows that scanned
text never does.
-/

namespace DisplayFilter

/-- What a reading yields: the forest and the first number not used for a node. -/
structure Reading where
  forest : Forest
  nextId : Int
  deriving Repr, Inhabited

namespace Reading

/-- A token in the place of an operator that spells no operator. -/
structure UnknownOperator where
  token : Token
  deriving DecidableEq, Repr

/-- The siblings read on one level, and what the next of them will be joined and negated with. -/
structure Level where
  nodes : Forest
  logic : Logic
  negated : Bool
  deriving Repr, Inhabited

def Level.empty : Level :=
  ⟨[], .and, false⟩

/-- The condition that has begun: nothing, a field, or a field and its operator. -/
inductive Pending where
  | nothing
  | field (name : String)
  | comparison (name : String) (operator : Operator)
  deriving DecidableEq, Repr, Inhabited

/-- The state between two tokens. Open groups stand innermost first, each with its number and the level
around it. A halted reading takes no more tokens. -/
structure State where
  outer : List (Int × Level)
  level : Level
  pending : Pending
  nextId : Int
  halted : Bool
  deriving Repr, Inhabited

namespace Level

/-- Puts a sibling at the end; a negation is used up by it. -/
def append (level : Level) (node : Node) : Level :=
  { level with nodes := level.nodes ++ [node], negated := false }

/-- Closes a group: without children it leaves no node. -/
def appendGroup (level : Level) (id : Int) (children : Forest) : Level :=
  if children.isEmpty then { level with negated := false }
  else level.append (.group id level.logic level.negated children)

end Level

namespace State

def start (firstId : Int) : State :=
  ⟨[], .empty, .nothing, firstId, false⟩

/-- Completes a condition without operator. -/
def complete (state : State) (field : String) : State :=
  let operator := if state.level.negated then .negatedExists else .exists
  { state with
    level := state.level.append (.condition state.nextId state.level.logic field operator "")
    pending := .nothing
    nextId := state.nextId + 1 }

/-- Completes a comparison. A negation excludes the whole comparison, through a group of its own. -/
def completeComparison (state : State) (field : String) (operator : Operator) (value : String) :
    State :=
  if state.level.negated then
    let inner := .condition (state.nextId + 1) .and field operator value
    { state with
      level := state.level.append (.group state.nextId state.level.logic true [inner])
      pending := .nothing
      nextId := state.nextId + 2 }
  else
    { state with
      level := state.level.append (.condition state.nextId state.level.logic field operator value)
      pending := .nothing
      nextId := state.nextId + 1 }

/-- Completes the condition that has begun, if there is one. -/
def settle (state : State) : State :=
  match state.pending with
  | .nothing => state
  | .field name => state.complete name
  | .comparison name operator => state.completeComparison name operator ""

/-- Takes a token with which no begun condition continues. -/
def advance (state : State) (token : Token) : State :=
  match token.kind with
  | .and => { state with level := { state.level with logic := .and } }
  | .or => { state with level := { state.level with logic := .or } }
  | .not => { state with level := { state.level with negated := !state.level.negated } }
  | .leftParen =>
    { state with
      outer := (state.nextId, state.level) :: state.outer
      level := .empty
      nextId := state.nextId + 1 }
  | .rightParen =>
    match state.outer with
    | [] => { state with halted := true }
    | (id, around) :: outer =>
      { state with outer := outer, level := around.appendGroup id state.level.nodes }
  | .comparison | .atom => { state with pending := .field token.content }

def feed (state : State) (token : Token) : Except UnknownOperator State :=
  if state.halted then .ok state
  else match state.pending, token.kind with
    | .comparison name operator, .atom | .comparison name operator, .comparison =>
      .ok (state.completeComparison name operator token.content)
    | .field name, .comparison =>
      match token.operator? with
      | some operator => .ok { state with pending := .comparison name operator }
      | none => .error ⟨token⟩
    | _, _ => .ok (state.settle.advance token)

def feedAll (state : State) (tokens : List Token) : Except UnknownOperator State :=
  tokens.foldlM feed state

/-- Closes the open groups, innermost first. -/
def closeAll : List (Int × Level) → Level → Level
  | [], level => level
  | (id, around) :: outer, level => closeAll outer (around.appendGroup id level.nodes)

/-- What has been read when the tokens end here. -/
def finish (state : State) : Reading :=
  let settled := state.settle
  ⟨(closeAll settled.outer settled.level).nodes, settled.nextId⟩

theorem feedAll_cons (state : State) (token : Token) (tokens : List Token) :
    state.feedAll (token :: tokens) = (state.feed token).bind (·.feedAll tokens) :=
  rfl

theorem feedAll_append (state : State) (left right : List Token) :
    state.feedAll (left ++ right) = (state.feedAll left).bind (·.feedAll right) := by
  induction left generalizing state with
  | nil => rfl
  | cons token left ih =>
    rw [List.cons_append, feedAll_cons, feedAll_cons]
    cases state.feed token with
    | error => rfl
    | ok next => exact ih next

end State

/-- Reads tokens, numbering the nodes from `firstId` upwards. -/
def ofTokens (tokens : List Token) (firstId : Int) : Except UnknownOperator Reading :=
  ((State.start firstId).feedAll tokens).map State.finish

/-- Every comparison among the tokens spells an operator. -/
def KnowsComparisons (tokens : List Token) : Prop :=
  ∀ token ∈ tokens, token.kind = .comparison → token.operator?.isSome

theorem State.exists_feed (state : State) {token : Token}
    (hknown : token.kind = .comparison → token.operator?.isSome) :
    ∃ next, state.feed token = .ok next := by
  unfold State.feed
  split
  · exact ⟨_, rfl⟩
  · split
    · exact ⟨_, rfl⟩
    · exact ⟨_, rfl⟩
    · rename_i hkind
      obtain ⟨operator, hoperator⟩ := Option.isSome_iff_exists.1 (hknown hkind)
      exact ⟨{ state with pending := .comparison _ operator }, by rw [hoperator]⟩
    · exact ⟨_, rfl⟩

theorem State.exists_feedAll (state : State) {tokens : List Token}
    (hknown : KnowsComparisons tokens) : ∃ next, state.feedAll tokens = .ok next := by
  induction tokens generalizing state with
  | nil => exact ⟨state, rfl⟩
  | cons token tokens ih =>
    obtain ⟨next, hnext⟩ := state.exists_feed (hknown token (by simp))
    obtain ⟨last, hlast⟩ := ih next fun other hother => hknown other (by simp [hother])
    exact ⟨last, by rw [feedAll_cons, hnext]; exact hlast⟩

/-- Tokens whose comparisons all spell an operator can be read. -/
theorem exists_ofTokens {tokens : List Token} (hknown : KnowsComparisons tokens) (firstId : Int) :
    ∃ reading, ofTokens tokens firstId = .ok reading := by
  obtain ⟨last, hlast⟩ := (State.start firstId).exists_feedAll hknown
  exact ⟨last.finish, by rw [ofTokens, hlast]; rfl⟩

theorem knowsComparisons_scan (text : String) : KnowsComparisons (Token.scan text) :=
  fun _ hmem hkind => Token.operator?_isSome_of_mem_scan hmem hkind

/-- Reads an expression, numbering the nodes from `firstId` upwards. -/
def ofText (text : String) (firstId : Int) : Reading :=
  match hread : ofTokens (Token.scan text) firstId with
  | .ok reading => reading
  | .error _ => False.elim <| by
    obtain ⟨reading, hok⟩ := exists_ofTokens (knowsComparisons_scan text) firstId
    rw [hok] at hread
    cases hread

theorem ofTokens_scan (text : String) (firstId : Int) :
    ofTokens (Token.scan text) firstId = .ok (ofText text firstId) := by
  unfold ofText
  split
  · assumption
  · rename_i hread
    obtain ⟨reading, hok⟩ := exists_ofTokens (knowsComparisons_scan text) firstId
    rw [hok] at hread
    cases hread

end Reading

end DisplayFilter
