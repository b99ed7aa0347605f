import DisplayFilter.Proofs.Expression.Block
import DisplayFilter.Proofs.Expression.Clause
/-!
# Parentheses without a partner

What a reading makes of parentheses that do not match. A closing one at the end changes nothing, whatever is
open there: it closes what the end would close, or it closes nothing. Around tokens in which none closes
nothing, a pair makes one group of all that is read from them, even if some of them stay open. And behind
tokens that match, a closing one ends the reading (`ofTokens_recovers`).
-/

namespace DisplayFilter

namespace Token

/-- How many parentheses are open behind tokens, so many being open before them; none if one of the tokens
closes nothing. -/
def openAfter (depth : Nat) : List Token → Option Nat
  | [] => some depth
  | token :: rest =>
    match token.kind, depth with
    | .leftParen, depth => openAfter (depth + 1) rest
    | .rightParen, 0 => none
    | .rightParen, depth + 1 => openAfter depth rest
    | _, depth => openAfter depth rest

theorem openAfter_cons (depth : Nat) (token : Token) (rest : List Token) :
    openAfter depth (token :: rest) = (openAfter depth [token]).bind (openAfter · rest) := by
  simp only [openAfter]
  split <;> rfl

theorem openAfter_leaf {token : Token} (hleaf : token.isParenthesis = false) (depth : Nat)
    (rest : List Token) : openAfter depth (token :: rest) = openAfter depth rest := by
  unfold isParenthesis at hleaf
  cases hkind : token.kind <;> simp_all [openAfter]

theorem isParenthesis_of_isWord {token : Token} (hword : token.isWord = true) :
    token.isParenthesis = false := by
  unfold isWord at hword
  unfold isParenthesis
  cases hkind : token.kind <;> simp_all

end Token

namespace Reading

open Token

/-! ### What is open -/

namespace State

variable {state next last : State} {token : Token} {tokens : List Token}

theorem feedAll_halted (hhalted : state.halted = true) (tokens : List Token) :
    state.feedAll tokens = .ok state := by
  induction tokens with
  | nil => rfl
  | cons token tokens ih =>
    rw [feedAll_cons, feed_halted hhalted]
    exact ih

/-- The groups a reading holds open are the parentheses open so far, and it halts where one closes
nothing. -/
theorem Step.openAfter_eq (hstep : Step state token next) (hactive : state.halted = false) :
    openAfter state.outer.length [token] =
      if next.halted then none else some next.outer.length := by
  cases hstep with
  | halted hhalted => simp [hactive] at hhalted
  | value _ _ hword =>
    rw [openAfter_leaf (isParenthesis_of_isWord hword), openAfter]
    unfold completeComparison
    split <;> simp [hactive]
  | operator _ _ hkind =>
    rw [openAfter_leaf (by simp [isParenthesis, hkind]), openAfter]
    simp [hactive]
  | advance =>
    rw [State.advance]
    cases hkind : token.kind with
    | rightParen =>
      rw [outer_settle]
      cases houter : state.outer <;> simp [openAfter, hkind, hactive]
    | _ => simp [openAfter, hkind, hactive]

theorem openAfter_eq (hactive : state.halted = false) (hfeed : state.feedAll tokens = .ok last) :
    openAfter state.outer.length tokens =
      if last.halted then none else some last.outer.length := by
  induction tokens generalizing state with
  | nil =>
    cases hfeed
    simp [openAfter, hactive]
  | cons token rest ih =>
    obtain ⟨next, hstep, hrest⟩ := exists_step_of_feedAll_cons hfeed
    rw [openAfter_cons, hstep.openAfter_eq hactive]
    cases hhalted : next.halted with
    | true =>
      cases (feedAll_halted hhalted rest).symm.trans hrest
      simp [hhalted]
    | false => exact ih hhalted hrest

/-- Behind matching parentheses a reading is on the level it began on. -/
theorem level_of_openAfter_eq_zero {firstId : Int} (hmatch : openAfter 0 tokens = some 0)
    (hfeed : (start firstId).feedAll tokens = .ok last) : last.halted = false ∧ last.outer = [] := by
  have hactive : (start firstId).halted = false := rfl
  have hopen : openAfter 0 tokens = _ := openAfter_eq hactive hfeed
  rw [hmatch] at hopen
  cases hhalted : last.halted with
  | true => simp [hhalted] at hopen
  | false =>
    rw [hhalted] at hopen
    exact ⟨rfl, List.length_eq_zero_iff.1 (Option.some.inj hopen).symm⟩

/-! ### Parentheses at the end -/

theorem run_rightParens (state : State) {closers : List Token}
    (hclosers : ∀ token ∈ closers, token.kind = .rightParen) : state.run closers = state.run [] := by
  induction closers generalizing state with
  | nil => rfl
  | cons closer closers ih =>
    rw [List.forall_mem_cons] at hclosers
    rw [← state.run_final_rightParen hclosers.1, run_cons, run_cons]
    exact congrArg (state.feed closer).bind (funext fun next => ih next hclosers.2)

/-- Where no group is open a closing parenthesis ends the reading. -/
theorem run_rightParen_of_outer_nil {closer : Token} (hkind : closer.kind = .rightParen)
    (hactive : state.halted = false) (houter : state.outer = []) (rest : List Token) :
    state.run (closer :: rest) = state.run [] := by
  have hends : EndsCondition (closer :: rest) := endsCondition_cons (by simp [isWord, hkind]) rest
  rw [← state.run_settle hends, settle_eq_between hactive, houter, run_unmatched hkind, run_nil,
    ← finish_settle, settle_eq_between hactive, houter]
  rfl

end State

theorem ofTokens_append_rightParens {closers : List Token}
    (hclosers : ∀ token ∈ closers, token.kind = .rightParen) (tokens : List Token) (firstId : Int) :
    ofTokens (tokens ++ closers) firstId = ofTokens tokens firstId := by
  have hsame := (State.start firstId).run_append_congr tokens fun last _ =>
    last.run_rightParens hclosers
  rwa [List.append_nil] at hsame

theorem ofTokens_append_unmatched {closer : Token} (hkind : closer.kind = .rightParen)
    {tokens : List Token} (hmatch : openAfter 0 tokens = some 0) (rest : List Token)
    (firstId : Int) : ofTokens (tokens ++ closer :: rest) firstId = ofTokens tokens firstId := by
  have hends := (State.start firstId).run_append_congr tokens fun last hfeed =>
    have hlevel := State.level_of_openAfter_eq_zero hmatch hfeed
    State.run_rightParen_of_outer_nil hkind hlevel.1 hlevel.2 rest
  rwa [List.append_nil] at hends

/-! ### Parentheses around -/

theorem closeBlocks_within (outer : List (List Item)) (around items : List Item) :
    closeBlocks (outer ++ [around]) items = around ++ [.block (closeBlocks outer items)] := by
  induction outer generalizing items with
  | nil => rfl
  | cons entry outer ih => exact ih _

/-- If no parenthesis closes the outermost block, what is in that block is matched by itself. -/
theorem nest_within (outer : List (List Item)) (around items : List Item) {tokens : List Token}
    (hopen : (openAfter outer.length tokens).isSome) :
    nest (outer ++ [around]) items tokens = around ++ [.block (nest outer items tokens)] := by
  induction tokens generalizing outer items with
  | nil =>
    rw [nest, nest]
    exact closeBlocks_within outer around items
  | cons token rest ih =>
    rcases token.parenthesis_cases with hleaf | hkind | hkind
    · rw [openAfter_leaf hleaf] at hopen
      rw [nest_leaf _ _ _ hleaf, nest_leaf _ _ _ hleaf]
      exact ih outer _ hopen
    · simp only [openAfter, hkind] at hopen
      rw [nest_leftParen _ _ _ hkind, nest_leftParen _ _ _ hkind]
      exact ih (items :: outer) [] hopen
    · cases outer with
      | nil => simp [openAfter, hkind] at hopen
      | cons entry outer =>
        simp only [List.length_cons, openAfter, hkind] at hopen
        rw [List.cons_append, nest_rightParen _ _ _ hkind, nest_rightParen _ _ _ hkind]
        exact ih outer _ hopen

/-- A pair of parentheses makes one group of all that is read between them, if nothing there closes it
early. -/
theorem ofTokens_enclosed {opener closer : Token} (hopener : opener.kind = .leftParen)
    (hcloser : closer.kind = .rightParen) {tokens : List Token}
    (hopen : (openAfter 0 tokens).isSome) (firstId : Int) :
    ofTokens (opener :: tokens ++ [closer]) firstId =
      (ofTokens tokens (firstId + 1)).map fun inner =>
        ⟨if inner.forest.isEmpty then [] else [.group firstId .and false inner.forest],
          inner.nextId⟩ := by
  have hclosers : ∀ token ∈ [closer], token.kind = .rightParen := by simpa using hcloser
  have hnest : nest [[]] [] tokens = [.block (nest [] [] tokens)] := nest_within [] [] [] hopen
  have hgroup : ∀ children : Forest, (Level.empty.appendGroup firstId children).nodes =
      if children.isEmpty then [] else [.group firstId .and false children] := by
    intro children
    unfold Level.appendGroup
    split <;> rfl
  rw [ofTokens_append_rightParens hclosers, ofTokens_eq_ofBlocks, ofTokens_eq_ofBlocks, ofBlocks,
    ofBlocks, nest_leftParen _ _ _ hopener, hnest, readItems]
  cases readItems .empty (firstId + 1) (nest [] [] tokens) with
  | error fault => rfl
  | ok inner =>
    simp only [Except.bind, Except.map, readItems, hgroup]

/-- Parentheses that do not match, among tokens that spell their comparisons. Any number of closing ones at
the end changes nothing. Around tokens in which none closes nothing, a pair makes a plain group of what is
read from them one number later, or nothing if that is nothing. Behind tokens that match, a closing one ends
the reading, whatever follows. -/
theorem ofTokens_recovers :
    (∀ tokens closers : List Token, KnowsComparisons tokens →
      (∀ token ∈ closers, token.kind = .rightParen) → ∀ firstId : Int, ∃ reading,
        ofTokens tokens firstId = .ok reading ∧
          ofTokens (tokens ++ closers) firstId = .ok reading) ∧
    (∀ (opener closer : Token) (tokens : List Token), opener.kind = .leftParen →
      closer.kind = .rightParen → KnowsComparisons tokens → (openAfter 0 tokens).isSome →
      ∀ firstId : Int, ∃ reading inner,
        ofTokens tokens firstId = .ok reading ∧ ofTokens tokens (firstId + 1) = .ok inner ∧
          ofTokens (opener :: tokens ++ [closer]) firstId =
            .ok ⟨if reading.forest.isEmpty then [] else [.group firstId .and false inner.forest],
              inner.nextId⟩) ∧
    ∀ (tokens rest : List Token) (closer : Token), KnowsComparisons tokens →
      closer.kind = .rightParen → openAfter 0 tokens = some 0 → ∀ firstId : Int, ∃ reading,
        ofTokens tokens firstId = .ok reading ∧
          ofTokens (tokens ++ closer :: rest) firstId = .ok reading := by
  refine ⟨fun tokens closers hknown hclosers firstId => ?_,
    fun opener closer tokens hopener hcloser hknown hopen firstId => ?_,
    fun tokens rest closer hknown hcloser hmatch firstId => ?_⟩
  · obtain ⟨reading, hread⟩ := exists_ofTokens hknown firstId
    exact ⟨reading, hread, (ofTokens_append_rightParens hclosers tokens firstId).trans hread⟩
  · obtain ⟨reading, hread⟩ := exists_ofTokens hknown firstId
    obtain ⟨inner, hinner⟩ := exists_ofTokens hknown (firstId + 1)
    have hempty : reading.forest.isEmpty = inner.forest.isEmpty := by
      rw [Bool.eq_iff_iff, List.isEmpty_iff, List.isEmpty_iff, forest_eq_nil_iff hread,
        forest_eq_nil_iff hinner]
    refine ⟨reading, inner, hread, hinner, ?_⟩
    rw [ofTokens_enclosed hopener hcloser hopen, hinner, hempty]
    rfl
  · obtain ⟨reading, hread⟩ := exists_ofTokens hknown firstId
    exact ⟨reading, hread, (ofTokens_append_unmatched hcloser hmatch rest firstId).trans hread⟩

/-- A comparison without its value is complete in front of the parentheses added behind it, a group left
open ends with the group put around it, and a group without a word is nothing with and without its pair. -/
theorem ofTokens_recovers_unfinished :
    let opener : Token := ⟨.leftParen, "("⟩
    let closer : Token := ⟨.rightParen, ")"⟩
    let unfinished : List Token := [opener, ⟨.not, "!"⟩, ⟨.atom, "a"⟩, ⟨.comparison, "eq"⟩]
    let hollow : List Token := [opener, ⟨.or, "||"⟩, closer]
    (∃ reading, ofTokens unfinished 7 = .ok reading ∧
      ofTokens (unfinished ++ [closer, closer, closer]) 7 = .ok reading) ∧
    (∃ inner, ofTokens unfinished 8 = .ok inner ∧ ofTokens (opener :: unfinished ++ [closer]) 7 =
      .ok ⟨[.group 7 .and false inner.forest], inner.nextId⟩) ∧
    ofTokens (opener :: hollow ++ [closer]) 7 = .ok ⟨[], 9⟩ ∧
    ∃ reading, ofTokens (opener :: hollow ++ [closer]) 7 = .ok reading ∧
      ofTokens (opener :: hollow ++ [closer] ++ closer :: unfinished) 7 = .ok reading := by
  intro opener closer unfinished hollow
  have hknown : KnowsComparisons unfinished := by
    unfold KnowsComparisons
    decide
  have hknown' : ∀ tokens : List Token, (∀ token ∈ tokens, token.kind ≠ .comparison) →
      KnowsComparisons tokens := fun _ hnone token hmem hkind => absurd hkind (hnone token hmem)
  obtain ⟨hclosers, haround, hbehind⟩ := ofTokens_recovers
  refine ⟨hclosers unfinished _ hknown (by decide) 7, ?_, ?_, ?_⟩
  · obtain ⟨reading, inner, hread, hinner, hwhole⟩ :=
      haround opener closer unfinished rfl rfl hknown rfl 7
    cases hread
    exact ⟨inner, hinner, hwhole⟩
  · obtain ⟨reading, inner, hread, hinner, hwhole⟩ :=
      haround opener closer hollow rfl rfl (hknown' _ (by decide)) rfl 7
    cases hread
    cases hinner
    exact hwhole
  · exact hbehind _ unfinished closer (hknown' _ (by decide)) rfl rfl 7

end Reading

end DisplayFilter
