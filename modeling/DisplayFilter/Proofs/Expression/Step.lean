import DisplayFilter.Expression.Parser
import DisplayFilter.Proofs.Outcome
/-!
# One token of a reading

`State.Step` lists all that taking one token can do to a reading, with its conditions. What every step
preserves holds at the end of a reading (`State.of_feedAll`), so proofs about readings need not open
`State.feed`.
-/

namespace DisplayFilter

/-- A token that can be a field or a value. -/
def Token.isWord (token : Token) : Bool :=
  token.kind == .atom || token.kind == .comparison

namespace Reading

namespace State

@[simp] theorem pending_settle (state : State) : state.settle.pending = .nothing := by
  unfold settle
  split
  · assumption
  · rfl
  · unfold completeComparison
    split <;> rfl

@[simp] theorem outer_settle (state : State) : state.settle.outer = state.outer := by
  unfold settle
  split
  · rfl
  · rfl
  · unfold completeComparison
    split <;> rfl

@[simp] theorem halted_settle (state : State) : state.settle.halted = state.halted := by
  unfold settle
  split
  · rfl
  · rfl
  · unfold completeComparison
    split <;> rfl

theorem settle_eq_self {state : State} (hpending : state.pending = .nothing) :
    state.settle = state := by
  rw [settle, hpending]

/-- All that taking a token can do. -/
inductive Step (state : State) (token : Token) : State → Prop where
  | halted (hhalted : state.halted = true) : Step state token state
  | value {name : String} {operator : Operator} (hactive : state.halted = false)
      (hpending : state.pending = .comparison name operator) (hword : token.isWord = true) :
      Step state token (state.completeComparison name operator token.content)
  | operator {name : String} {operator : Operator} (hactive : state.halted = false)
      (hpending : state.pending = .field name) (hkind : token.kind = .comparison)
      (hoperator : token.operator? = some operator) :
      Step state token { state with pending := .comparison name operator }
  | advance (hactive : state.halted = false)
      (hvalue : ∀ name operator, state.pending = .comparison name operator → token.isWord = false)
      (hoperator : ∀ name, state.pending = .field name → token.kind ≠ .comparison) :
      Step state token (state.settle.advance token)

theorem feed_halted {state : State} (hhalted : state.halted = true) (token : Token) :
    state.feed token = .ok state := by
  rw [feed, if_pos hhalted]

theorem feed_value {state : State} {token : Token} {name : String} {operator : Operator}
    (hactive : state.halted = false) (hpending : state.pending = .comparison name operator)
    (hword : token.isWord = true) :
    state.feed token = .ok (state.completeComparison name operator token.content) := by
  have hkind : token.kind = .atom ∨ token.kind = .comparison := by
    simpa [Token.isWord] using hword
  rw [feed, if_neg (by simp [hactive]), hpending]
  rcases hkind with hkind | hkind <;> rw [hkind]

theorem feed_operator {state : State} {token : Token} {name : String} {operator : Operator}
    (hactive : state.halted = false) (hpending : state.pending = .field name)
    (hkind : token.kind = .comparison) (hoperator : token.operator? = some operator) :
    state.feed token = .ok { state with pending := .comparison name operator } := by
  simp [feed, hactive, hpending, hkind, hoperator]

theorem feed_unknown {state : State} {token : Token} {name : String}
    (hactive : state.halted = false) (hpending : state.pending = .field name)
    (hkind : token.kind = .comparison) (hoperator : token.operator? = none) :
    state.feed token = .error ⟨token⟩ := by
  simp [feed, hactive, hpending, hkind, hoperator]

theorem feed_advance {state : State} {token : Token} (hactive : state.halted = false)
    (hvalue : ∀ name operator, state.pending = .comparison name operator → token.isWord = false)
    (hoperator : ∀ name, state.pending = .field name → token.kind ≠ .comparison) :
    state.feed token = .ok (state.settle.advance token) := by
  rw [feed, if_neg (by simp [hactive])]
  split
  · rename_i hpending hkind
    simpa [Token.isWord, hkind] using hvalue _ _ hpending
  · rename_i hpending hkind
    simpa [Token.isWord, hkind] using hvalue _ _ hpending
  · rename_i hpending hkind
    exact absurd hkind (hoperator _ hpending)
  · rfl

/-- A token that can be neither field nor value ends the condition that has begun. -/
theorem feed_of_not_isWord {state : State} {token : Token} (hactive : state.halted = false)
    (hword : token.isWord = false) : state.feed token = .ok (state.settle.advance token) :=
  feed_advance hactive (fun _ _ _ => hword) fun _ _ hkind => by simp [Token.isWord, hkind] at hword

/-- Between conditions every token is taken on its own. -/
theorem feed_of_pending_eq_nothing {state : State} {token : Token} (hactive : state.halted = false)
    (hpending : state.pending = .nothing) : state.feed token = .ok (state.advance token) := by
  have hfeed : state.feed token = .ok (state.settle.advance token) := feed_advance hactive
    (fun _ _ hother => by rw [hpending] at hother; cases hother)
    (fun _ hother => by rw [hpending] at hother; cases hother)
  rwa [settle_eq_self hpending] at hfeed

theorem step_of_feed {state next : State} {token : Token} (hfeed : state.feed token = .ok next) :
    Step state token next := by
  by_cases hhalted : state.halted = true
  · rw [feed_halted hhalted] at hfeed
    cases hfeed
    exact .halted hhalted
  have hactive : state.halted = false := Bool.eq_false_iff.2 hhalted
  by_cases hvalue : ∃ name operator, state.pending = .comparison name operator ∧
      token.isWord = true
  · obtain ⟨name, operator, hpending, hword⟩ := hvalue
    rw [feed_value hactive hpending hword] at hfeed
    cases hfeed
    exact .value hactive hpending hword
  by_cases hoperator : ∃ name, state.pending = .field name ∧ token.kind = .comparison
  · obtain ⟨name, hpending, hkind⟩ := hoperator
    cases hoperator : token.operator? with
    | none =>
      rw [feed_unknown hactive hpending hkind hoperator] at hfeed
      cases hfeed
    | some operator =>
      rw [feed_operator hactive hpending hkind hoperator] at hfeed
      cases hfeed
      exact .operator hactive hpending hkind hoperator
  have hvalue' : ∀ name operator, state.pending = .comparison name operator →
      token.isWord = false := fun name operator hpending =>
    Bool.eq_false_iff.2 fun hword => hvalue ⟨name, operator, hpending, hword⟩
  have hoperator' : ∀ name, state.pending = .field name → token.kind ≠ .comparison :=
    fun name hpending hkind => hoperator ⟨name, hpending, hkind⟩
  rw [feed_advance hactive hvalue' hoperator'] at hfeed
  cases hfeed
  exact .advance hactive hvalue' hoperator'

/-- The first token is a step in front of all others. -/
theorem exists_step_of_feedAll_cons {state last : State} {token : Token} {tokens : List Token}
    (hfeed : state.feedAll (token :: tokens) = .ok last) :
    ∃ next, Step state token next ∧ next.feedAll tokens = .ok last := by
  rw [feedAll_cons] at hfeed
  obtain ⟨next, hnext, hrest⟩ := exists_of_bind_eq_ok hfeed
  exact ⟨next, step_of_feed hnext, hrest⟩

/-- The last token is a step behind all others. -/
theorem exists_step_of_feedAll_concat {state last : State} {tokens : List Token} {token : Token}
    (hfeed : state.feedAll (tokens ++ [token]) = .ok last) :
    ∃ before, state.feedAll tokens = .ok before ∧ Step before token last := by
  rw [feedAll_append] at hfeed
  obtain ⟨before, hbefore, htoken⟩ := exists_of_bind_eq_ok hfeed
  obtain ⟨next, hstep, hnil⟩ := exists_step_of_feedAll_cons htoken
  cases hnil
  exact ⟨before, hbefore, hstep⟩

/-- What every step preserves holds after all tokens. -/
theorem of_feedAll {holds : State → Prop} {state last : State} {tokens : List Token}
    (hstep : ∀ {state next : State} {token : Token}, Step state token next → holds state → holds next)
    (hstart : holds state) (hfeed : state.feedAll tokens = .ok last) : holds last := by
  induction tokens generalizing state with
  | nil =>
    cases hfeed
    exact hstart
  | cons token tokens ih =>
    obtain ⟨next, hnext, hrest⟩ := exists_step_of_feedAll_cons hfeed
    exact ih (hstep hnext hstart) hrest

end State

/-- What a reading yields is the finished state after all its tokens. -/
theorem exists_of_ofTokens {tokens : List Token} {firstId : Int} {reading : Reading}
    (hread : ofTokens tokens firstId = .ok reading) :
    ∃ last, (State.start firstId).feedAll tokens = .ok last ∧ last.finish = reading := by
  unfold ofTokens at hread
  cases hlast : (State.start firstId).feedAll tokens with
  | error fault =>
    rw [hlast] at hread
    cases hread
  | ok last =>
    rw [hlast] at hread
    cases hread
    exact ⟨last, rfl, rfl⟩

end Reading

end DisplayFilter
