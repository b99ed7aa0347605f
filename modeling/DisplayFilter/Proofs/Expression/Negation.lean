import Mathlib.Algebra.Ring.Parity
import Mathlib.Data.List.DropRight
import DisplayFilter.Proofs.Expression.Block
import DisplayFilter.Proofs.Expression.Clause
/-!
# Negations

Whether a negation is pending behind tokens depends on the connectives and negations they end with and on
nothing before: words and parentheses use a negation up, or leave it to the level around
(`State.negated_settle_iff`). So a negation in front of a comparison does what it does in front of the
comparison in parentheses, and two negations do nothing unless they part a condition
(`ofTokens_negation`).
-/

namespace DisplayFilter

namespace Token

/-- A connective or a negation. -/
def isModifier (token : Token) : Bool :=
  token.kind == .and || token.kind == .or || token.kind == .not

/-- How many negations there are among the connectives and negations that the tokens end with. -/
def negationsAtEnd (tokens : List Token) : Nat :=
  (tokens.rtakeWhile isModifier).countP (·.kind == .not)

theorem negationsAtEnd_concat (tokens : List Token) (token : Token) :
    negationsAtEnd (tokens ++ [token]) =
      if token.kind = .not then negationsAtEnd tokens + 1
      else if token.isModifier then negationsAtEnd tokens else 0 := by
  unfold negationsAtEnd
  rw [List.rtakeWhile_concat]
  by_cases hnot : token.kind = .not
  · simp [isModifier, hnot]
  · by_cases hmodifier : token.isModifier = true <;> simp [hnot, hmodifier]

end Token

namespace Reading

open Token

namespace State

variable {state next last : State} {token : Token} {tokens : List Token} {firstId : Int}

/-! ### What is pending -/

theorem negated_completeComparison (state : State) (field : String) (operator : Operator)
    (value : String) : (state.completeComparison field operator value).level.negated = false := by
  unfold completeComparison
  split <;> rfl

theorem pending_completeComparison (state : State) (field : String) (operator : Operator)
    (value : String) : (state.completeComparison field operator value).pending = .nothing := by
  unfold completeComparison
  split <;> rfl

theorem negated_advance (hpending : state.pending = .nothing)
    (hactive : (state.advance token).halted = false) :
    (state.advance token).settle.level.negated =
      if token.kind = .not then !state.level.negated
      else if token.isModifier then state.level.negated else false := by
  unfold advance at hactive ⊢
  cases hkind : token.kind with
  | and | or | not | leftParen => simp [settle, hpending, isModifier, hkind, Level.empty]
  | rightParen =>
    cases houter : state.outer with
    | nil => simp [hkind, houter] at hactive
    | cons entry outer => simp [settle, hpending, isModifier, hkind]
  | comparison | atom => simp [settle, complete, Level.append, isModifier, hkind]

/-- A negation turns what is pending, a connective leaves it, and behind any other token none is. -/
theorem Step.negated_settle (hstep : Step state token next) (hactive : next.halted = false) :
    next.settle.level.negated =
      if token.kind = .not then !state.settle.level.negated
      else if token.isModifier then state.settle.level.negated else false := by
  cases hstep with
  | halted hhalted => simp [hactive] at hhalted
  | value _ _ hword =>
    rw [settle_eq_self (pending_completeComparison ..), negated_completeComparison]
    unfold isWord at hword
    cases hkind : token.kind <;> simp_all [isModifier]
  | operator _ _ hkind =>
    rw [settle, negated_completeComparison]
    simp [isModifier, hkind]
  | advance => exact negated_advance state.pending_settle hactive

theorem Step.active (hstep : Step state token next) (hactive : next.halted = false) :
    state.halted = false := by
  cases hstep with
  | halted hhalted => exact hactive
  | value hstate | operator hstate | advance hstate => exact hstate

/-- A negation is pending behind tokens that end with an odd number of them. -/
theorem negated_settle_iff (hfeed : (start firstId).feedAll tokens = .ok last)
    (hactive : last.halted = false) :
    last.settle.level.negated = true ↔ Odd (negationsAtEnd tokens) := by
  induction tokens using List.reverseRecOn generalizing last with
  | nil =>
    cases hfeed
    simp [settle, start, Level.empty, negationsAtEnd]
  | append_singleton tokens token ih =>
    obtain ⟨before, hbefore, hstep⟩ := exists_step_of_feedAll_concat hfeed
    have hpending := ih hbefore (hstep.active hactive)
    rw [hstep.negated_settle hactive, negationsAtEnd_concat]
    split
    · rw [Nat.odd_add_one, ← hpending, Bool.not_eq_true', Bool.not_eq_true]
    · split
      · exact hpending
      · simp

theorem negated_settle_eq_false (hfeed : (start firstId).feedAll tokens = .ok last)
    (hactive : last.halted = false) (heven : Even (negationsAtEnd tokens)) :
    last.settle.level.negated = false := by
  rw [← Bool.not_eq_true, negated_settle_iff hfeed hactive, Nat.not_odd_iff_even]
  exact heven

/-- A condition goes on only behind a word. -/
theorem pending_eq_nothing (hfeed : (start firstId).feedAll tokens = .ok last)
    (hactive : last.halted = false)
    (hend : ∀ token, tokens.getLast? = some token → token.isWord = false) :
    last.pending = .nothing := by
  cases tokens using List.reverseRecOn with
  | nil =>
    cases hfeed
    rfl
  | append_singleton tokens token =>
    obtain ⟨before, _, hstep⟩ := exists_step_of_feedAll_concat hfeed
    have hword : token.isWord = false := hend token (by simp)
    cases hstep with
    | halted hhalted => simp [hactive] at hhalted
    | value _ _ hword' => simp [hword] at hword'
    | operator _ _ hkind => simp [isWord, hkind] at hword
    | advance =>
      have hpending := before.pending_settle
      unfold State.advance
      split
      · exact hpending
      · exact hpending
      · exact hpending
      · exact hpending
      · split <;> exact hpending
      · rename_i hkind
        simp [isWord, hkind] at hword
      · rename_i hkind
        simp [isWord, hkind] at hword

/-! ### Two negations -/

theorem run_not_not {first second : Token} (hfirst : first.kind = .not) (hsecond : second.kind = .not)
    (state : State) (tokens : List Token) :
    state.run (first :: second :: tokens) = state.settle.run tokens := by
  cases hhalted : state.halted with
  | true => rw [run_halted hhalted, run_halted (by simp [hhalted]), finish_settle]
  | false =>
    have hends : EndsCondition (first :: second :: tokens) :=
      endsCondition_cons (by simp [isWord, hfirst]) _
    rw [← state.run_settle hends, settle_eq_between hhalted, run_not hfirst, run_not hsecond,
      Bool.not_not]

/-! ### A negated comparison -/

section Comparison

variable {negation opener closer field operator value : Token} {outer : List (Int × Level)}
  {level : Level} {nextId : Int}

theorem comparisonAt_cons (hoperator : operator.kind = .comparison) (hvalue : value.isWord = true)
    (tokens : List Token) :
    comparisonAt (operator :: value :: tokens) =
      match operator.operator? with
      | none => .error ⟨operator⟩
      | some found => .ok (some (found, value.content), tokens) := by
  have hat : valueAt (value :: tokens) = (value.content, tokens) := if_pos hvalue
  cases hfound : operator.operator? with
  | none => simp [comparisonAt, hoperator, hfound]
  | some found => simp [comparisonAt, hoperator, hfound, hat]

/-- The group a negated comparison gets is the one that parentheses around the comparison make. -/
theorem run_enclosed_comparison (hopener : opener.kind = .leftParen)
    (hcloser : closer.kind = .rightParen) (hfield : field.isWord = true)
    (hoperator : operator.kind = .comparison) (hvalue : value.isWord = true)
    (hnegated : level.negated = true) (tokens : List Token) :
    (between outer level nextId).run (opener :: field :: operator :: value :: closer :: tokens) =
      (between outer level nextId).run (field :: operator :: value :: tokens) := by
  rw [run_word hfield, run_leftParen hopener, run_word hfield, comparisonAt_cons hoperator hvalue,
    comparisonAt_cons hoperator hvalue]
  cases operator.operator? with
  | none => rfl
  | some found =>
    have hclosed : ∀ (inner : Level) (next : Int),
        (between ((nextId, level) :: outer) inner next).run (closer :: tokens) =
          (between outer (level.appendGroup nextId inner.nodes) next).run tokens :=
      fun inner next => run_rightParen hcloser nextId level tokens
    simp [Except.bind, conditionNode, hnegated, Level.empty, Level.append, Level.appendGroup,
      Int.add_assoc, hclosed]

theorem exists_run (state : State) (hknown : KnowsComparisons tokens) :
    ∃ reading, state.run tokens = .ok reading := by
  obtain ⟨last, hlast⟩ := state.exists_feedAll hknown
  exact ⟨last.finish, by rw [run, hlast]; rfl⟩

/-- Field and value need not spell anything: a reading looks up the operator alone. -/
theorem exists_run_comparison (hnegation : negation.kind = .not) (hfield : field.isWord = true)
    (hoperator : operator.kind = .comparison) (hspelt : operator.operator?.isSome)
    (hvalue : value.isWord = true) (hknown : KnowsComparisons tokens) (state : State) :
    ∃ reading, state.run (negation :: field :: operator :: value :: tokens) = .ok reading := by
  cases hhalted : state.halted with
  | true => exact ⟨state.finish, run_halted hhalted _⟩
  | false =>
    obtain ⟨found, hfound⟩ := Option.isSome_iff_exists.1 hspelt
    have hends : EndsCondition (negation :: field :: operator :: value :: tokens) :=
      endsCondition_cons (by simp [isWord, hnegation]) _
    rw [← state.run_settle hends, settle_eq_between hhalted, run_not hnegation, run_word hfield,
      comparisonAt_cons hoperator hvalue, hfound]
    exact exists_run _ hknown

end Comparison

end State

/-- Parentheses around a comparison do nothing behind a negation, if the negation is not taken back by one
before it. -/
theorem ofTokens_not_enclosed {negation opener closer field operator value : Token}
    (hnegation : negation.kind = .not) (hopener : opener.kind = .leftParen)
    (hcloser : closer.kind = .rightParen) (hfield : field.isWord = true)
    (hoperator : operator.kind = .comparison) (hvalue : value.isWord = true) {front : List Token}
    (heven : Even (negationsAtEnd front)) (back : List Token) (firstId : Int) :
    ofTokens (front ++ negation :: opener :: field :: operator :: value :: closer :: back) firstId =
      ofTokens (front ++ negation :: field :: operator :: value :: back) firstId := by
  refine (State.start firstId).run_append_congr front fun last hfeed => ?_
  cases hhalted : last.halted with
  | true => rw [State.run_halted hhalted, State.run_halted hhalted]
  | false =>
    have hplain := State.negated_settle_eq_false hfeed hhalted heven
    have hends : ∀ tokens : List Token, State.EndsCondition (negation :: tokens) :=
      fun tokens => State.endsCondition_cons (by simp [isWord, hnegation]) tokens
    rw [← last.run_settle (hends _), ← last.run_settle (hends _), State.settle_eq_between hhalted,
      State.run_not hnegation, State.run_not hnegation]
    exact State.run_enclosed_comparison hopener hcloser hfield hoperator hvalue (by simp [hplain]) back

/-- Two negations between tokens do nothing, unless they part a condition. -/
theorem ofTokens_not_not {first second : Token} (hfirst : first.kind = .not)
    (hsecond : second.kind = .not) {front back : List Token}
    (hapart : ∀ left right, front.getLast? = some left → back.head? = some right →
      left.isWord = false ∨ right.isWord = false) (firstId : Int) :
    ofTokens (front ++ first :: second :: back) firstId = ofTokens (front ++ back) firstId := by
  refine (State.start firstId).run_append_congr front fun last hfeed => ?_
  rw [State.run_not_not hfirst hsecond]
  by_cases hends : State.EndsCondition back
  · exact last.run_settle hends
  · -- A word comes behind the negations, so none is in front of them and no condition has begun.
    simp only [State.EndsCondition, not_forall] at hends
    obtain ⟨right, hright, hword⟩ := hends
    cases hhalted : last.halted with
    | true => rw [State.run_halted hhalted, State.run_halted (by simp [hhalted]), State.finish_settle]
    | false =>
      have hfront := State.pending_eq_nothing hfeed hhalted fun left hleft =>
        (hapart left right hleft hright).resolve_right hword
      rw [State.settle_eq_self hfront]

/-- A negation in front of a comparison, with an even number of negations before it since the last word or
parenthesis, excludes the comparison as it would in parentheses, and two negations where no condition is
parted do nothing. Either way all is read alike, the numbers included, whatever stands in front and
behind. -/
theorem ofTokens_negation :
    (∀ (front back : List Token) (negation opener closer field operator value : Token),
      negation.kind = .not → opener.kind = .leftParen → closer.kind = .rightParen →
      field.isWord = true → operator.kind = .comparison → value.isWord = true →
      Even (negationsAtEnd front) → ∀ firstId : Int,
        ofTokens (front ++ negation :: opener :: field :: operator :: value :: closer :: back) firstId =
            ofTokens (front ++ negation :: field :: operator :: value :: back) firstId ∧
          (KnowsComparisons front → KnowsComparisons back → operator.operator?.isSome →
            ∃ reading, ofTokens (front ++ negation :: field :: operator :: value :: back) firstId =
              .ok reading)) ∧
    ∀ (front back : List Token) (first second : Token), first.kind = .not → second.kind = .not →
      (∀ left right, front.getLast? = some left → back.head? = some right →
        left.isWord = false ∨ right.isWord = false) → ∀ firstId : Int,
        ofTokens (front ++ first :: second :: back) firstId = ofTokens (front ++ back) firstId ∧
          (KnowsComparisons front → KnowsComparisons back →
            ∃ reading, ofTokens (front ++ back) firstId = .ok reading) := by
  refine ⟨fun front back negation opener closer field operator value hnegation hopener hcloser hfield
      hoperator hvalue heven firstId => ⟨?_, fun hfront hback hspelt => ?_⟩,
    fun front back first second hfirst hsecond hapart firstId => ⟨?_, fun hfront hback => ?_⟩⟩
  · exact ofTokens_not_enclosed hnegation hopener hcloser hfield hoperator hvalue heven back firstId
  · obtain ⟨last, hlast⟩ := (State.start firstId).exists_feedAll hfront
    obtain ⟨reading, hread⟩ :=
      State.exists_run_comparison hnegation hfield hoperator hspelt hvalue hback last
    refine ⟨reading, Eq.trans ?_ hread⟩
    change (State.start firstId).run _ = _
    rw [State.run_append, hlast]
    rfl
  · exact ofTokens_not_not hfirst hsecond hapart firstId
  · exact exists_ofTokens (fun token hmem => (List.mem_append.1 hmem).elim (hfront token) (hback token))
      firstId

/-- A negated comparison in a group left open, behind two negations that a connective parts; and two negations
between a comparison without its value and a parenthesis that closes nothing. -/
theorem ofTokens_negation_unfinished :
    let opener : Token := ⟨.leftParen, "("⟩
    let closer : Token := ⟨.rightParen, ")"⟩
    let negation : Token := ⟨.not, "!"⟩
    let field : Token := ⟨.atom, "a"⟩
    let operator : Token := ⟨.comparison, "eq"⟩
    let front : List Token := [opener, opener, field, negation, ⟨.and, "&&"⟩, negation]
    let back : List Token := [closer, ⟨.or, "||"⟩, field]
    (∃ reading,
      ofTokens (front ++ negation :: opener :: field :: operator :: field :: closer :: back) 5 =
          .ok reading ∧
        ofTokens (front ++ negation :: field :: operator :: field :: back) 5 = .ok reading) ∧
    ∃ reading, ofTokens ([field, operator] ++ negation :: negation :: back) 5 = .ok reading ∧
      ofTokens ([field, operator] ++ back) 5 = .ok reading := by
  intro opener closer negation field operator front back
  have hfront : KnowsComparisons front := by
    unfold KnowsComparisons
    decide
  have hback : KnowsComparisons back := by
    unfold KnowsComparisons
    decide
  have hbegun : KnowsComparisons [field, operator] := by
    unfold KnowsComparisons
    decide
  have heven : Even (negationsAtEnd front) := ⟨1, rfl⟩
  have hapart : ∀ left right, [field, operator].getLast? = some left → back.head? = some right →
      left.isWord = false ∨ right.isWord = false := by
    rintro left right - ⟨⟩
    exact .inr rfl
  obtain ⟨henclosed, htwice⟩ := ofTokens_negation
  constructor
  · obtain ⟨hsame, hexists⟩ := henclosed front back negation opener closer field operator field rfl rfl
      rfl rfl rfl rfl heven 5
    obtain ⟨reading, hread⟩ := hexists hfront hback (by decide)
    exact ⟨reading, hsame.trans hread, hread⟩
  · obtain ⟨hsame, hexists⟩ := htwice [field, operator] back negation negation rfl rfl hapart 5
    obtain ⟨reading, hread⟩ := hexists hbegun hback
    exact ⟨reading, hsame.trans hread, hread⟩

end Reading

end DisplayFilter
