import DisplayFilter.Proofs.Expression.Step
/-!
# Reading by recursive descent

Expressions have one rule: a sequence of conditions and of sequences in parentheses. `sequence` follows it
over one cursor, with the siblings read so far and the modifiers pending before the next one in a level,
and calls itself for what stands in parentheses. The reading of tokens is this descent
(`ofTokens_eq_descend`): the groups a reading holds open are the calls a descent has not returned from.
-/

namespace DisplayFilter.Reading

/-- The node of a condition, and the next free number. A negated comparison is excluded as a whole,
through a group of its own. -/
def conditionNode (logic : Logic) (negated : Bool) (id : Int) (field : String) :
    Option (Operator × String) → Node × Int
  | none => (.condition id logic field (if negated then .negatedExists else .exists) "", id + 1)
  | some (operator, value) =>
    if negated then (.group id logic true [.condition (id + 1) .and field operator value], id + 2)
    else (.condition id logic field operator value, id + 1)

/-- The value right behind an operator, and what follows it. -/
def valueAt : List Token → String × List Token
  | [] => ("", [])
  | token :: rest => if token.isWord then (token.content, rest) else ("", token :: rest)

/-- The operator and the value right behind a field, and what follows them. -/
def comparisonAt : List Token → Except UnknownOperator (Option (Operator × String) × List Token)
  | [] => .ok (none, [])
  | token :: rest =>
    if token.kind = .comparison then
      match token.operator? with
      | none => .error ⟨token⟩
      | some operator => .ok (some (operator, (valueAt rest).1), (valueAt rest).2)
    else .ok (none, token :: rest)

theorem length_valueAt_le (tokens : List Token) : (valueAt tokens).2.length ≤ tokens.length := by
  unfold valueAt
  split
  · simp
  · split <;> simp

theorem length_comparisonAt_le {tokens after : List Token} {comparison : Option (Operator × String)}
    (hat : comparisonAt tokens = .ok (comparison, after)) : after.length ≤ tokens.length := by
  unfold comparisonAt at hat
  split at hat
  · cases hat
    simp
  · rename_i token rest
    split at hat
    · split at hat
      · cases hat
      · cases hat
        exact Nat.le_succ_of_le (length_valueAt_le rest)
    · cases hat
      simp

/-- What is left behind a group: the parenthesis that closes it is passed over, if there is one. -/
def afterGroup : List Token → List Token
  | [] => []
  | token :: rest => if token.kind = .rightParen then rest else token :: rest

theorem length_afterGroup_le (tokens : List Token) : (afterGroup tokens).length ≤ tokens.length := by
  unfold afterGroup
  split
  · simp
  · split <;> simp

/-- Where a sequence ends: its siblings, the next free number, and the tokens it has not taken. -/
structure Stop (tokens : List Token) where
  nodes : Forest
  nextId : Int
  rest : List Token
  length_le : rest.length ≤ tokens.length

namespace Stop

variable {short long : List Token}

/-- The same end, for a sequence with more tokens before it. -/
def ofLe (hle : short.length ≤ long.length) (stop : Stop short) : Stop long :=
  ⟨stop.nodes, stop.nextId, stop.rest, Nat.le_trans stop.length_le hle⟩

theorem length_afterGroup_le (stop : Stop long) :
    (afterGroup stop.rest).length ≤ long.length :=
  Nat.le_trans (Reading.length_afterGroup_le stop.rest) stop.length_le

end Stop

/-- Reads siblings up to the end of the tokens or a closing parenthesis. With no group to close, that
parenthesis ends the whole reading. -/
def sequence (nested : Bool) (level : Level) (nextId : Int) :
    (tokens : List Token) → Except UnknownOperator (Stop tokens)
  | [] => .ok ⟨level.nodes, nextId, [], Nat.le_refl _⟩
  | token :: rest =>
    match token.kind with
    | .leftParen =>
      (sequence true .empty (nextId + 1) rest).bind fun inner =>
        (sequence nested (level.appendGroup nextId inner.nodes) inner.nextId
          (afterGroup inner.rest)).map (.ofLe (Nat.le_succ_of_le inner.length_afterGroup_le))
    | .rightParen =>
      .ok ⟨level.nodes, nextId, if nested then token :: rest else [], by split <;> simp⟩
    | .and => (sequence nested { level with logic := .and } nextId rest).map (.ofLe (by simp))
    | .or => (sequence nested { level with logic := .or } nextId rest).map (.ofLe (by simp))
    | .not =>
      (sequence nested { level with negated := !level.negated } nextId rest).map (.ofLe (by simp))
    | .comparison | .atom =>
      match hat : comparisonAt rest with
      | .error fault => .error fault
      | .ok (comparison, after) =>
        let (node, next) := conditionNode level.logic level.negated nextId token.content comparison
        (sequence nested (level.append node) next after).map
          (.ofLe (Nat.le_succ_of_le (length_comparisonAt_le hat)))
  termination_by tokens => tokens.length
  decreasing_by
    · simp
    · exact Nat.lt_succ_of_le inner.length_afterGroup_le
    · simp
    · simp
    · simp
    · exact Nat.lt_succ_of_le (length_comparisonAt_le hat)

/-- Reads tokens by descent, numbering the nodes from `firstId` upwards. -/
def descend (tokens : List Token) (firstId : Int) : Except UnknownOperator Reading :=
  (sequence false .empty firstId tokens).map fun stop => ⟨stop.nodes, stop.nextId⟩

/-! ### A reading between two conditions -/

namespace State

/-- The state between two conditions. -/
def between (outer : List (Int × Level)) (level : Level) (nextId : Int) : State :=
  ⟨outer, level, .nothing, nextId, false⟩

/-- What a reading in this state yields on these tokens. -/
def run (state : State) (tokens : List Token) : Except UnknownOperator Reading :=
  (state.feedAll tokens).map finish

variable {outer : List (Int × Level)} {level : Level} {nextId : Int}

theorem run_nil (state : State) : state.run [] = .ok state.finish :=
  rfl

theorem run_cons (state : State) (token : Token) (tokens : List Token) :
    state.run (token :: tokens) = (state.feed token).bind (·.run tokens) := by
  rw [run, feedAll_cons]
  cases state.feed token <;> rfl

theorem run_halted {state : State} (hhalted : state.halted = true) (tokens : List Token) :
    state.run tokens = .ok state.finish := by
  induction tokens with
  | nil => rfl
  | cons token tokens ih =>
    rw [run_cons, feed_halted hhalted]
    exact ih

theorem run_between_cons (outer : List (Int × Level)) (level : Level) (nextId : Int)
    (token : Token) (tokens : List Token) :
    (between outer level nextId).run (token :: tokens) =
      ((between outer level nextId).advance token).run tokens := by
  rw [run_cons, feed_of_pending_eq_nothing rfl rfl]
  rfl

theorem finish_settle (state : State) : state.settle.finish = state.finish := by
  simp only [finish, settle_eq_self (pending_settle state)]

/-- No condition goes on into these tokens. -/
def EndsCondition (tokens : List Token) : Prop :=
  ∀ token, tokens.head? = some token → token.isWord = false

theorem endsCondition_cons {token : Token} (hword : token.isWord = false) (rest : List Token) :
    EndsCondition (token :: rest) := by
  intro first hfirst
  cases hfirst
  exact hword

/-- In front of such tokens nothing is lost by completing the condition that has begun. -/
theorem run_settle (state : State) {tokens : List Token} (hends : EndsCondition tokens) :
    state.settle.run tokens = state.run tokens := by
  cases hhalted : state.halted with
  | true => rw [run_halted hhalted, run_halted (by simp [hhalted]), finish_settle]
  | false =>
    cases tokens with
    | nil => rw [run_nil, run_nil, finish_settle]
    | cons token rest =>
      have hword : token.isWord = false := hends token rfl
      rw [run_cons, run_cons, feed_of_not_isWord hhalted hword,
        feed_of_not_isWord (by simp [hhalted]) hword, settle_eq_self state.pending_settle]

theorem settle_eq_between {state : State} (hactive : state.halted = false) :
    state.settle = between state.outer state.settle.level state.settle.nextId := by
  have houter := state.outer_settle
  have hpending := state.pending_settle
  have hhalted := state.halted_settle
  rw [hactive] at hhalted
  generalize state.settle = settled at houter hpending hhalted ⊢
  cases settled
  simp_all [between]

/-- Completing a condition without operator puts its node on the level. -/
theorem settle_field (outer : List (Int × Level)) (level : Level) (nextId : Int) (field : String) :
    settle { between outer level nextId with pending := .field field } =
      between outer (level.append (conditionNode level.logic level.negated nextId field none).1)
        (conditionNode level.logic level.negated nextId field none).2 :=
  rfl

/-- Completing a comparison puts its node on the level. -/
theorem completeComparison_between (outer : List (Int × Level)) (level : Level) (nextId : Int)
    (pending : Pending) (field : String) (operator : Operator) (value : String) :
    completeComparison { between outer level nextId with pending := pending } field operator value =
      between outer
        (level.append (conditionNode level.logic level.negated nextId field (operator, value)).1)
        (conditionNode level.logic level.negated nextId field (operator, value)).2 := by
  unfold completeComparison conditionNode between
  cases level.negated <;> rfl

/-- Behind an operator comes its value, or nothing that belongs to the condition. -/
theorem run_comparison (outer : List (Int × Level)) (level : Level) (nextId : Int) (field : String)
    (operator : Operator) (tokens : List Token) :
    run { between outer level nextId with pending := .comparison field operator } tokens =
      let (value, after) := valueAt tokens
      let (node, next) := conditionNode level.logic level.negated nextId field (operator, value)
      (between outer (level.append node) next).run after := by
  have hsettle := completeComparison_between outer level nextId (.comparison field operator) field
    operator ""
  cases tokens with
  | nil =>
    rw [run_nil, ← finish_settle]
    exact congrArg (fun state => Except.ok (finish state)) hsettle
  | cons token rest =>
    rw [run_cons]
    by_cases hword : token.isWord = true
    · rw [feed_value rfl rfl hword, completeComparison_between]
      simp only [valueAt, hword, if_true]
      rfl
    · have hword' : token.isWord = false := Bool.eq_false_iff.2 hword
      rw [feed_of_not_isWord rfl hword']
      simp only [valueAt, hword', Bool.false_eq_true, if_false, run_between_cons]
      exact congrArg (fun state => (state.advance token).run rest) hsettle

/-- Behind a field comes its comparison, or nothing that belongs to the condition. -/
theorem run_field (outer : List (Int × Level)) (level : Level) (nextId : Int) (field : String)
    (tokens : List Token) :
    run { between outer level nextId with pending := .field field } tokens =
      (comparisonAt tokens).bind fun (comparison, after) =>
        let (node, next) := conditionNode level.logic level.negated nextId field comparison
        (between outer (level.append node) next).run after := by
  cases tokens with
  | nil => rfl
  | cons token rest =>
    rw [run_cons]
    by_cases hkind : token.kind = .comparison
    · rw [comparisonAt, if_pos hkind]
      cases hoperator : token.operator? with
      | none =>
        rw [feed_unknown rfl rfl hkind hoperator]
        rfl
      | some operator =>
        rw [feed_operator rfl rfl hkind hoperator]
        exact run_comparison outer level nextId field operator rest
    · rw [feed_advance rfl (fun _ _ hpending => by cases hpending) fun _ _ => hkind,
        settle_field, comparisonAt, if_neg hkind]
      exact (run_between_cons ..).symm

variable {outer : List (Int × Level)} {level : Level} {nextId : Int} {token : Token}

theorem run_and (hkind : token.kind = .and) (tokens : List Token) :
    (between outer level nextId).run (token :: tokens) =
      (between outer { level with logic := .and } nextId).run tokens := by
  rw [run_between_cons, advance, hkind]
  rfl

theorem run_or (hkind : token.kind = .or) (tokens : List Token) :
    (between outer level nextId).run (token :: tokens) =
      (between outer { level with logic := .or } nextId).run tokens := by
  rw [run_between_cons, advance, hkind]
  rfl

theorem run_not (hkind : token.kind = .not) (tokens : List Token) :
    (between outer level nextId).run (token :: tokens) =
      (between outer { level with negated := !level.negated } nextId).run tokens := by
  rw [run_between_cons, advance, hkind]
  rfl

theorem run_leftParen (hkind : token.kind = .leftParen) (tokens : List Token) :
    (between outer level nextId).run (token :: tokens) =
      (between ((nextId, level) :: outer) .empty (nextId + 1)).run tokens := by
  rw [run_between_cons, advance, hkind]
  rfl

/-- A parenthesis with no group to close ends the reading. -/
theorem run_unmatched (hkind : token.kind = .rightParen) (tokens : List Token) :
    (between [] level nextId).run (token :: tokens) = .ok ⟨level.nodes, nextId⟩ := by
  rw [run_between_cons, advance, hkind, run_halted rfl]
  rfl

theorem run_rightParen (hkind : token.kind = .rightParen) (id : Int) (around : Level)
    (tokens : List Token) :
    (between ((id, around) :: outer) level nextId).run (token :: tokens) =
      (between outer (around.appendGroup id level.nodes) nextId).run tokens := by
  rw [run_between_cons, advance, hkind]
  rfl

theorem run_word (hword : token.isWord = true) (tokens : List Token) :
    (between outer level nextId).run (token :: tokens) =
      (comparisonAt tokens).bind fun (comparison, after) =>
        let (node, next) := conditionNode level.logic level.negated nextId token.content comparison
        (between outer (level.append node) next).run after := by
  have hkind : token.kind = .atom ∨ token.kind = .comparison := by
    simpa [Token.isWord] using hword
  rw [← run_field, run_between_cons, advance]
  rcases hkind with hkind | hkind <;> rw [hkind]

end State

/-! ### The descent is the reading -/

/-- Goes on behind a sequence: its siblings become a group of the level around it. -/
def resume (outer : List (Int × Level)) (nodes : Forest) (nextId : Int) (rest : List Token) :
    Except UnknownOperator Reading :=
  match outer with
  | [] => .ok ⟨nodes, nextId⟩
  | (id, around) :: outer =>
    (State.between outer (around.appendGroup id nodes) nextId).run (afterGroup rest)

theorem resume_ofLe {short long : List Token} (hle : short.length ≤ long.length)
    (outer : List (Int × Level)) (result : Except UnknownOperator (Stop short)) :
    ((result.map (Stop.ofLe hle)).bind fun stop =>
        resume outer stop.nodes stop.nextId stop.rest) =
      result.bind fun stop => resume outer stop.nodes stop.nextId stop.rest := by
  cases result <;> rfl

/-- A reading goes on to the end of the sequence it stands in, and from there as the groups around say. -/
theorem run_between (outer : List (Int × Level)) (level : Level) (nextId : Int)
    (tokens : List Token) :
    (State.between outer level nextId).run tokens =
      (sequence (!outer.isEmpty) level nextId tokens).bind fun stop =>
        resume outer stop.nodes stop.nextId stop.rest := by
  match tokens with
  | [] =>
    rw [sequence]
    cases outer <;> rfl
  | token :: rest =>
    rw [sequence]
    cases hkind : token.kind with
    | and =>
      rw [State.run_and hkind, run_between outer { level with logic := .and } nextId rest]
      exact (resume_ofLe ..).symm
    | or =>
      rw [State.run_or hkind, run_between outer { level with logic := .or } nextId rest]
      exact (resume_ofLe ..).symm
    | not =>
      rw [State.run_not hkind,
        run_between outer { level with negated := !level.negated } nextId rest]
      exact (resume_ofLe ..).symm
    | leftParen =>
      rw [State.run_leftParen hkind,
        run_between ((nextId, level) :: outer) .empty (nextId + 1) rest, List.isEmpty_cons,
        Bool.not_false]
      cases sequence true .empty (nextId + 1) rest with
      | error fault => rfl
      | ok inner =>
        have hshorter := inner.length_afterGroup_le
        have hbehind := run_between outer (level.appendGroup nextId inner.nodes) inner.nextId
          (afterGroup inner.rest)
        exact hbehind.trans (resume_ofLe ..).symm
    | rightParen =>
      cases outer with
      | nil => exact State.run_unmatched hkind rest
      | cons entry outer =>
        rw [State.run_rightParen hkind]
        simp [Except.bind, resume, afterGroup, hkind]
    | comparison | atom =>
      rw [State.run_word (by simp [Token.isWord, hkind])]
      simp only
      split
      · rename_i hat
        rw [hat]
        rfl
      · rename_i comparison after hat
        conv => lhs; rw [hat]
        have hshorter := length_comparisonAt_le hat
        have hbehind := run_between outer
          (level.append (conditionNode level.logic level.negated nextId token.content comparison).1)
          (conditionNode level.logic level.negated nextId token.content comparison).2 after
        exact hbehind.trans (resume_ofLe ..).symm
  termination_by tokens.length
  decreasing_by all_goals simp only [List.length_cons]; omega

theorem ofTokens_eq_descend (tokens : List Token) (firstId : Int) :
    ofTokens tokens firstId = descend tokens firstId := by
  have hrun := run_between [] .empty firstId tokens
  rw [List.isEmpty_nil, Bool.not_true] at hrun
  change (State.between [] .empty firstId).run tokens = _
  rw [hrun, descend]
  cases sequence false .empty firstId tokens <;> rfl

end DisplayFilter.Reading
