import DisplayFilter.Proofs.Expression.Numbering
import DisplayFilter.Proofs.Expression.Descent
/-!
# The clauses of an expression

Read flatly, with no regard to groups, an expression is a row of clauses: a field, the operator right behind
it if there is one, and the value right behind that. The conditions of a reading are these clauses, all of
them and in their order, at the depth the parentheses around a field give it (`placed_of_ofTokens`). Only a
negated comparison stands one level deeper, in the group that excludes it.

The parentheses that count are those in front of the first one that closes nothing. A reading takes no token
behind that, and `Token.readable` cuts it off beforehand. There is no reading at all when the operator of
some clause spells none (`exists_fault_iff`).
-/

namespace DisplayFilter

/-! ### The flat view of tokens -/

namespace Token

/-- The tokens in front of the first parenthesis that closes nothing, so many being open. -/
def readable (depth : Nat) : List Token → List Token
  | [] => []
  | token :: rest =>
    match token.kind, depth with
    | .leftParen, depth => token :: readable (depth + 1) rest
    | .rightParen, 0 => []
    | .rightParen, depth + 1 => token :: readable depth rest
    | _, depth => token :: readable depth rest

/-- The next token if it is wanted, and what follows it. -/
def nextIf (wanted : Token → Bool) : List Token → Option Token × List Token
  | [] => (none, [])
  | token :: rest => if wanted token then (some token, rest) else (none, token :: rest)

/-- The operator right behind a field and the value right behind the operator, and what follows them. -/
def operands (tokens : List Token) : (Option Token × Option Token) × List Token :=
  match nextIf (·.kind == .comparison) tokens with
  | (none, rest) => ((none, none), rest)
  | (some operator, rest) => ((some operator, (nextIf isWord rest).1), (nextIf isWord rest).2)

theorem length_nextIf_le (wanted : Token → Bool) (tokens : List Token) :
    (nextIf wanted tokens).2.length ≤ tokens.length := by
  unfold nextIf
  split
  · simp
  · split <;> simp

theorem length_operands_le (tokens : List Token) : (operands tokens).2.length ≤ tokens.length := by
  have hoperator := length_nextIf_le (·.kind == .comparison) tokens
  unfold operands
  split
  · rename_i rest hnext
    rwa [hnext] at hoperator
  · rename_i operator rest hnext
    rw [hnext] at hoperator
    exact Nat.le_trans (length_nextIf_le isWord rest) hoperator

end Token

/-- A condition as the tokens spell it, with how many parentheses are open where it begins and whether a
negation is pending there. -/
structure Clause where
  depth : Nat
  negated : Bool
  field : Token
  operator : Option Token
  value : Option Token

/-- A condition without its number and its combinator, with how many groups are around it. -/
structure Placed where
  depth : Nat
  field : String
  operator : Operator
  value : String
  deriving DecidableEq, Repr

/-- The clauses of tokens from left to right, so many parentheses being open. Combinators leave a negation
pending, and parentheses and clauses end it. -/
def Token.clauses (depth : Nat) (negated : Bool) : List Token → List Clause
  | [] => []
  | token :: rest =>
    match token.kind with
    | .and | .or => clauses depth negated rest
    | .not => clauses depth (!negated) rest
    | .leftParen => clauses (depth + 1) false rest
    | .rightParen => clauses (depth - 1) false rest
    | .comparison | .atom =>
      ⟨depth, negated, token, (operands rest).1.1, (operands rest).1.2⟩ ::
        clauses depth false (operands rest).2
  termination_by tokens => tokens.length
  decreasing_by
    all_goals have hshorter := length_operands_le rest
    all_goals simp only [List.length_cons]
    all_goals omega

/-- The condition a clause stands for, unless its operator spells none. -/
def Clause.placed? (clause : Clause) : Option Placed :=
  match clause.operator with
  | none =>
    some ⟨clause.depth, clause.field.content, if clause.negated then .negatedExists else .exists, ""⟩
  | some token => token.operator?.map fun operator =>
    ⟨if clause.negated then clause.depth + 1 else clause.depth, clause.field.content, operator,
      (clause.value.map Token.content).getD ""⟩

/-- The operator of a clause if it spells none. -/
def Clause.unknown? (clause : Clause) : Option Token :=
  clause.operator.filter fun token => token.operator?.isNone

mutual

/-- The conditions at or below a node, depth first, so many groups being around it. -/
def Node.placed (depth : Nat) : Node → List Placed
  | .condition _ _ field operator value => [⟨depth, field, operator, value⟩]
  | .group _ _ _ children => Forest.placed (depth + 1) children

/-- The conditions of a forest, depth first, so many groups being around it. -/
def Forest.placed (depth : Nat) : List Node → List Placed
  | [] => []
  | node :: rest => node.placed depth ++ Forest.placed depth rest

end

/-! ### Conditions of a forest -/

namespace Forest

@[simp] theorem placed_nil (depth : Nat) : placed depth [] = [] := by
  rw [placed]

@[simp] theorem placed_condition_cons (depth : Nat) (id : Int) (logic : Logic) (field : String)
    (operator : Operator) (value : String) (rest : Forest) :
    placed depth (.condition id logic field operator value :: rest) =
      ⟨depth, field, operator, value⟩ :: placed depth rest := by
  rw [placed, Node.placed, List.singleton_append]

@[simp] theorem placed_group_cons (depth : Nat) (id : Int) (logic : Logic) (negated : Bool)
    (children rest : Forest) :
    placed depth (.group id logic negated children :: rest) =
      placed (depth + 1) children ++ placed depth rest := by
  rw [placed, Node.placed]

theorem placed_append (depth : Nat) (left right : Forest) :
    placed depth (left ++ right) = placed depth left ++ placed depth right := by
  induction left with
  | nil => simp
  | cons node left ih => simp [placed, ih]

theorem placed_appendGroup (depth : Nat) (around : Reading.Level) (id : Int) (children : Forest) :
    placed depth (around.appendGroup id children).nodes =
      placed depth around.nodes ++ placed (depth + 1) children := by
  unfold Reading.Level.appendGroup
  split
  · rename_i hempty
    simp [List.isEmpty_iff.1 hempty]
  · simp [Reading.Level.append, placed_append]

/-- Without empty groups there is a node only where there is a condition. -/
theorem placed_eq_nil_iff {forest : Forest} (hformed : wellFormed forest = true) (depth : Nat) :
    placed depth forest = [] ↔ forest = [] := by
  induction forest using Forest.induction generalizing depth with
  | nil => simp
  | condition => simp
  | group id logic negated children rest ihchildren _ =>
    rw [wellFormed_cons, Bool.and_eq_true, Node.wellFormed_group] at hformed
    have hchildren : placed (depth + 1) children ≠ [] :=
      fun hnone => hformed.1.1 ((ihchildren hformed.1.2 (depth + 1)).1 hnone)
    simp [hchildren]

end Forest

/-! ### The flat view keeps step with a reading -/

namespace Token

variable {token : Token} {depth : Nat}

theorem readable_cons_of_isWord (hword : token.isWord = true) (rest : List Token) :
    readable depth (token :: rest) = token :: readable depth rest := by
  have hkind : token.kind = .atom ∨ token.kind = .comparison := by
    simpa [isWord] using hword
  rcases hkind with hkind | hkind <;> simp only [readable, hkind]

theorem nextIf_readable {wanted : Token → Bool} (hwanted : ∀ token, wanted token = true → token.isWord = true)
    (depth : Nat) (tokens : List Token) :
    nextIf wanted (readable depth tokens) =
      ((nextIf wanted tokens).1, readable depth (nextIf wanted tokens).2) := by
  cases tokens with
  | nil => rfl
  | cons token rest =>
    by_cases hmatch : wanted token = true
    · rw [readable_cons_of_isWord (hwanted token hmatch), nextIf, nextIf, if_pos hmatch, if_pos hmatch]
    · -- Nothing is left of the tokens, or the token is still in front.
      have hhead : readable depth (token :: rest) = [] ∨
          ∃ more, readable depth (token :: rest) = token :: more := by
        unfold readable
        split <;> simp
      rw [nextIf, if_neg hmatch]
      rcases hhead with hnil | ⟨more, hcons⟩
      · rw [hnil, nextIf]
      · rw [hcons, nextIf, if_neg hmatch]

theorem operands_readable (depth : Nat) (tokens : List Token) :
    operands (readable depth tokens) = ((operands tokens).1, readable depth (operands tokens).2) := by
  have hoperator : ∀ token : Token, (token.kind == .comparison) = true → token.isWord = true := by
    intro token hkind
    simp [isWord, hkind]
  rw [operands, operands, nextIf_readable hoperator]
  cases nextIf (·.kind == .comparison) tokens with
  | mk operator rest =>
    cases operator with
    | none => rfl
    | some operator => simp only [nextIf_readable (fun _ hword => hword)]

/-- Every field begins a clause, and every clause has one. -/
theorem clauses_eq_nil_iff (depth : Nat) (negated : Bool) (tokens : List Token) :
    clauses depth negated tokens = [] ↔ ∀ token ∈ tokens, token.isWord = false := by
  induction tokens generalizing depth negated with
  | nil => simp [clauses]
  | cons token rest ih =>
    cases hkind : token.kind <;> simp [clauses, hkind, isWord] <;> simpa [isWord] using ih _ _

end Token

namespace Reading

open Token

theorem valueAt_eq (tokens : List Token) :
    valueAt tokens = (((nextIf isWord tokens).1.map content).getD "", (nextIf isWord tokens).2) := by
  cases tokens with
  | nil => rfl
  | cons token rest =>
    rw [valueAt, nextIf]
    split <;> rfl

/-- A reading takes the operands of a field as they stand, and puts the one condition they make. -/
theorem placed?_of_comparisonAt {tokens after : List Token} {comparison : Option (Operator × String)}
    (hat : comparisonAt tokens = .ok (comparison, after)) :
    (operands tokens).2 = after ∧ ∀ (depth : Nat) (logic : Logic) (negated : Bool) (id : Int)
      (field : Token),
      (Forest.placed depth [(conditionNode logic negated id field.content comparison).1]).map some =
        [(Clause.mk depth negated field (operands tokens).1.1 (operands tokens).1.2).placed?] := by
  cases tokens with
  | nil =>
    cases hat
    exact ⟨rfl, fun _ _ _ _ _ => by simp [operands, nextIf, Clause.placed?, conditionNode]⟩
  | cons token rest =>
    by_cases hkind : token.kind = .comparison
    · have hoperands : operands (token :: rest) =
          ((some token, (nextIf isWord rest).1), (nextIf isWord rest).2) := by
        simp [operands, nextIf, hkind]
      rw [comparisonAt, if_pos hkind] at hat
      cases hoperator : token.operator? with
      | none =>
        rw [hoperator] at hat
        cases hat
      | some operator =>
        rw [hoperator, valueAt_eq] at hat
        cases hat
        rw [hoperands]
        refine ⟨rfl, fun depth logic negated id field => ?_⟩
        cases negated <;> simp [Clause.placed?, hoperator, conditionNode]
    · have hoperands : operands (token :: rest) = ((none, none), token :: rest) := by
        simp [operands, nextIf, hkind]
      rw [comparisonAt, if_neg hkind] at hat
      cases hat
      rw [hoperands]
      exact ⟨rfl, fun _ _ _ _ _ => by simp [Clause.placed?, conditionNode]⟩

@[simp] theorem negated_appendGroup (around : Level) (id : Int) (children : Forest) :
    (around.appendGroup id children).negated = false := by
  unfold Level.appendGroup
  split <;> rfl

/-- The conditions of the siblings around the open groups, outermost first. -/
def outerPlaced : List (Int × Level) → List Placed
  | [] => []
  | (_, around) :: outer => outerPlaced outer ++ Forest.placed outer.length around.nodes

theorem placed_closeAll (outer : List (Int × Level)) (level : Level) :
    Forest.placed 0 (State.closeAll outer level).nodes =
      outerPlaced outer ++ Forest.placed outer.length level.nodes := by
  induction outer generalizing level with
  | nil => rfl
  | cons entry outer ih =>
    obtain ⟨id, around⟩ := entry
    rw [State.closeAll, ih, Forest.placed_appendGroup, outerPlaced, List.append_assoc]
    rfl

/-- The conditions of a reading are those it has already and the clauses of what it can still take. -/
theorem placed_of_run {outer : List (Int × Level)} {level : Level} {nextId : Int} {reading : Reading}
    (tokens : List Token) (hrun : (State.between outer level nextId).run tokens = .ok reading) :
    (Forest.placed 0 reading.forest).map some =
      (outerPlaced outer ++ Forest.placed outer.length level.nodes).map some ++
        (clauses outer.length level.negated (readable outer.length tokens)).map Clause.placed? := by
  match tokens with
  | [] =>
    cases hrun
    simp only [readable, clauses, List.map_nil, List.append_nil]
    exact congrArg _ (placed_closeAll outer level)
  | token :: rest =>
    cases hkind : token.kind with
    | and =>
      rw [State.run_and hkind] at hrun
      simpa only [readable, clauses, hkind] using placed_of_run rest hrun
    | or =>
      rw [State.run_or hkind] at hrun
      simpa only [readable, clauses, hkind] using placed_of_run rest hrun
    | not =>
      rw [State.run_not hkind] at hrun
      simpa only [readable, clauses, hkind] using placed_of_run rest hrun
    | leftParen =>
      rw [State.run_leftParen hkind] at hrun
      have hinside := placed_of_run rest hrun
      simpa [readable, clauses, hkind, outerPlaced, Level.empty] using hinside
    | rightParen =>
      cases outer with
      | nil =>
        rw [State.run_unmatched hkind] at hrun
        cases hrun
        simp [readable, clauses, hkind, outerPlaced]
      | cons entry outer =>
        obtain ⟨id, around⟩ := entry
        rw [State.run_rightParen hkind] at hrun
        have hbehind := placed_of_run rest hrun
        rw [Forest.placed_appendGroup] at hbehind
        simpa [readable, clauses, hkind, outerPlaced, negated_appendGroup] using hbehind
    | comparison | atom =>
      have hword : token.isWord = true := by simp [isWord, hkind]
      rw [State.run_word hword] at hrun
      cases hat : comparisonAt rest with
      | error fault =>
        rw [hat] at hrun
        cases hrun
      | ok taken =>
        obtain ⟨comparison, after⟩ := taken
        rw [hat] at hrun
        change (State.between outer
          (level.append (conditionNode level.logic level.negated nextId token.content comparison).1)
          (conditionNode level.logic level.negated nextId token.content comparison).2).run after =
            .ok reading at hrun
        have hshorter := length_comparisonAt_le hat
        have hbehind := placed_of_run after hrun
        obtain ⟨hafter, hclause⟩ := placed?_of_comparisonAt hat
        have hplaced := hclause outer.length level.logic level.negated nextId token
        rw [readable_cons_of_isWord hword, clauses, hkind]
        simp only [operands_readable, hafter, List.map_cons]
        rw [hbehind, Level.append, Forest.placed_append, List.map_append, List.map_append,
          List.map_append, hplaced]
        simp
  termination_by tokens.length
  decreasing_by all_goals simp only [List.length_cons]; omega

/-- The conditions of a reading are the clauses in front of the first parenthesis that closes nothing. -/
theorem placed_of_ofTokens {tokens : List Token} {firstId : Int} {reading : Reading}
    (hread : ofTokens tokens firstId = .ok reading) :
    (Forest.placed 0 reading.forest).map some =
      (clauses 0 false (readable 0 tokens)).map Clause.placed? :=
  placed_of_run tokens hread

/-- A reading is empty when no token it takes can be a field. -/
theorem forest_eq_nil_iff {tokens : List Token} {firstId : Int} {reading : Reading}
    (hread : ofTokens tokens firstId = .ok reading) :
    reading.forest = [] ↔ ∀ token ∈ readable 0 tokens, token.isWord = false := by
  have hplaced := placed_of_ofTokens hread
  rw [← Forest.placed_eq_nil_iff (numbered_of_ofTokens hread).wellFormed 0,
    ← clauses_eq_nil_iff 0 false, ← List.map_eq_nil_iff (f := some), hplaced, List.map_eq_nil_iff]

/-! ### When there is no reading -/

/-- The token that ends a reading. -/
def faultToken? {α : Type} : Except UnknownOperator α → Option Token
  | .error fault => some fault.token
  | .ok _ => none

theorem faultToken?_comparisonAt (tokens : List Token) :
    faultToken? (comparisonAt tokens) =
      (operands tokens).1.1.filter fun token => token.operator?.isNone := by
  cases tokens with
  | nil => rfl
  | cons token rest =>
    by_cases hkind : token.kind = .comparison
    · rw [comparisonAt, if_pos hkind]
      cases hoperator : token.operator? <;>
        simp [faultToken?, operands, nextIf, hkind, hoperator, Option.filter]
    · rw [comparisonAt, if_neg hkind]
      simp [faultToken?, operands, nextIf, hkind]

/-- A reading ends early at the first clause whose operator spells none. -/
theorem faultToken?_run (outer : List (Int × Level)) (level : Level) (nextId : Int)
    (tokens : List Token) :
    faultToken? ((State.between outer level nextId).run tokens) =
      (clauses outer.length level.negated (readable outer.length tokens)).findSome?
        Clause.unknown? := by
  match tokens with
  | [] =>
    simp only [readable, clauses]
    rfl
  | token :: rest =>
    cases hkind : token.kind with
    | and =>
      rw [State.run_and hkind, faultToken?_run outer { level with logic := .and } nextId rest]
      simp only [readable, clauses, hkind]
    | or =>
      rw [State.run_or hkind, faultToken?_run outer { level with logic := .or } nextId rest]
      simp only [readable, clauses, hkind]
    | not =>
      rw [State.run_not hkind,
        faultToken?_run outer { level with negated := !level.negated } nextId rest]
      simp only [readable, clauses, hkind]
    | leftParen =>
      rw [State.run_leftParen hkind,
        faultToken?_run ((nextId, level) :: outer) .empty (nextId + 1) rest]
      simp only [readable, clauses, hkind]
      rfl
    | rightParen =>
      cases outer with
      | nil =>
        rw [State.run_unmatched hkind]
        simp only [List.length_nil, readable, clauses, hkind]
        rfl
      | cons entry outer =>
        obtain ⟨id, around⟩ := entry
        rw [State.run_rightParen hkind,
          faultToken?_run outer (around.appendGroup id level.nodes) nextId rest]
        simp only [List.length_cons, readable, clauses, hkind, negated_appendGroup]
        rfl
    | comparison | atom =>
      have hword : token.isWord = true := by simp [isWord, hkind]
      have hclause := faultToken?_comparisonAt rest
      rw [State.run_word hword, readable_cons_of_isWord hword, clauses, hkind]
      simp only [operands_readable, List.findSome?_cons, Clause.unknown?, ← hclause]
      cases hat : comparisonAt rest with
      | error fault => rfl
      | ok taken =>
        obtain ⟨comparison, after⟩ := taken
        have hshorter := length_comparisonAt_le hat
        rw [(placed?_of_comparisonAt hat).1]
        exact faultToken?_run outer _ _ after
  termination_by tokens.length
  decreasing_by all_goals simp only [List.length_cons]; omega

/-- There is no reading when the operator right behind some field spells none. -/
theorem exists_fault_iff (tokens : List Token) (firstId : Int) :
    (∃ fault, ofTokens tokens firstId = .error fault) ↔
      ∃ clause ∈ clauses 0 false (readable 0 tokens), ∃ token,
        clause.operator = some token ∧ token.operator? = none := by
  have hfault : faultToken? (ofTokens tokens firstId) =
      (clauses 0 false (readable 0 tokens)).findSome? Clause.unknown? :=
    faultToken?_run [] .empty firstId tokens
  have hunknown : ∀ clause : Clause, clause.unknown?.isSome ↔
      ∃ token, clause.operator = some token ∧ token.operator? = none := by
    intro clause
    rw [Option.isSome_iff_exists, Clause.unknown?]
    simp [Option.filter_eq_some_iff]
  have hsome : (∃ fault, ofTokens tokens firstId = .error fault) ↔
      (faultToken? (ofTokens tokens firstId)).isSome := by
    cases ofTokens tokens firstId <;> simp [faultToken?]
  simp only [hsome, hfault, List.isSome_findSome?, List.any_eq_true, hunknown]

end Reading

end DisplayFilter
