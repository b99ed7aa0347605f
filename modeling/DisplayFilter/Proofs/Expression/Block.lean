import DisplayFilter.Proofs.Expression.Descent
/-!
# Reading by blocks

The same reading in two phases. `nest` matches parentheses and nothing else: it turns tokens into items,
which are single tokens and blocks of items. `readItems` then reads the items of each block by themselves,
from left to right, and never looks past the end of a block. What the descent yields on any tokens, with
all its numbers and its one failure, is what the two phases yield (`descend_eq_ofBlocks`).

The proof writes items back as tokens. Matched items are read alike in both forms, whatever stands behind
the block they are in, and nesting changes nothing that a reading could see: closing what is left open at
the end finishes as the reading would, and what follows an unmatched parenthesis is not read.
-/

namespace DisplayFilter

/-- A parenthesis of either side. -/
def Token.isParenthesis (token : Token) : Bool :=
  token.kind == .leftParen || token.kind == .rightParen

theorem Token.parenthesis_cases (token : Token) :
    token.isParenthesis = false ∨ token.kind = .leftParen ∨ token.kind = .rightParen := by
  unfold isParenthesis
  cases token.kind <;> simp

namespace Reading

/-- A token that is no parenthesis, or what stands between two matching ones. -/
inductive Item where
  | leaf (token : Token) (hleaf : token.isParenthesis = false)
  | block (items : List Item)

/-! ### The first phase -/

/-- Closes the open blocks, innermost first. -/
def closeBlocks : List (List Item) → List Item → List Item
  | [], items => items
  | around :: outer, items => closeBlocks outer (around ++ [.block items])

/-- Matches parentheses, with the items before each open block and those of the innermost one so far. The
first parenthesis that closes nothing ends the tokens. -/
def nest (outer : List (List Item)) (items : List Item) : List Token → List Item
  | [] => closeBlocks outer items
  | token :: rest =>
    if hleaf : token.isParenthesis = false then nest outer (items ++ [.leaf token hleaf]) rest
    else if token.kind = .leftParen then nest (items :: outer) [] rest
    else match outer with
      | [] => items
      | around :: outer => nest outer (around ++ [.block items]) rest

section

variable {token : Token} (outer : List (List Item)) (items : List Item) (rest : List Token)

theorem nest_leaf (hleaf : token.isParenthesis = false) :
    nest outer items (token :: rest) = nest outer (items ++ [.leaf token hleaf]) rest := by
  rw [nest.eq_def]
  simp only [hleaf, dite_true]

theorem nest_leftParen (hkind : token.kind = .leftParen) :
    nest outer items (token :: rest) = nest (items :: outer) [] rest := by
  rw [nest.eq_def]
  simp [Token.isParenthesis, hkind]

theorem nest_rightParen (hkind : token.kind = .rightParen) (around : List Item) :
    nest (around :: outer) items (token :: rest) = nest outer (around ++ [.block items]) rest := by
  rw [nest.eq_def]
  simp [Token.isParenthesis, hkind]

theorem nest_unmatched (hkind : token.kind = .rightParen) : nest [] items (token :: rest) = items := by
  rw [nest.eq_def]
  simp [Token.isParenthesis, hkind]

end

/-! ### The second phase -/

/-- The value an operator takes: the next item, if that is a word. -/
def valueIn : List Item → String × List Item
  | .leaf token hleaf :: rest =>
    if token.isWord then (token.content, rest) else ("", .leaf token hleaf :: rest)
  | items => ("", items)

/-- The operator and the value a field takes from the items behind it. -/
def comparisonIn :
    List Item → Except UnknownOperator (Option (Operator × String) × List Item)
  | .leaf token hleaf :: rest =>
    if token.kind = .comparison then
      match token.operator? with
      | none => .error ⟨token⟩
      | some operator => .ok (some (operator, (valueIn rest).1), (valueIn rest).2)
    else .ok (none, .leaf token hleaf :: rest)
  | items => .ok (none, items)

theorem sizeOf_valueIn_le (items : List Item) : sizeOf (valueIn items).2 ≤ sizeOf items := by
  unfold valueIn
  split
  · split
    · simp
    · exact Nat.le_refl _
  · exact Nat.le_refl _

theorem sizeOf_comparisonIn_le {items after : List Item} {comparison : Option (Operator × String)}
    (hin : comparisonIn items = .ok (comparison, after)) : sizeOf after ≤ sizeOf items := by
  unfold comparisonIn at hin
  split at hin
  · rename_i token hleaf rest
    split at hin
    · split at hin
      · cases hin
      · cases hin
        have hvalue := sizeOf_valueIn_le rest
        simp only [List.cons.sizeOf_spec]
        omega
    · cases hin
      exact Nat.le_refl _
  · cases hin
    exact Nat.le_refl _

/-- Reads the items of one block. A block among them is read with modifiers of its own. -/
def readItems (level : Level) (nextId : Int) : List Item → Except UnknownOperator Reading
  | [] => .ok ⟨level.nodes, nextId⟩
  | .block items :: rest =>
    (readItems .empty (nextId + 1) items).bind fun inner =>
      readItems (level.appendGroup nextId inner.forest) inner.nextId rest
  | .leaf token hleaf :: rest =>
    match hkind : token.kind with
    | .and => readItems { level with logic := .and } nextId rest
    | .or => readItems { level with logic := .or } nextId rest
    | .not => readItems { level with negated := !level.negated } nextId rest
    | .leftParen | .rightParen => by simp [Token.isParenthesis, hkind] at hleaf
    | .comparison | .atom =>
      match hin : comparisonIn rest with
      | .error fault => .error fault
      | .ok (comparison, after) =>
        let (node, next) := conditionNode level.logic level.negated nextId token.content comparison
        readItems (level.append node) next after
  termination_by items => sizeOf items
  decreasing_by
    all_goals simp only [List.cons.sizeOf_spec, Item.block.sizeOf_spec, Item.leaf.sizeOf_spec]
    all_goals try have hafter := sizeOf_comparisonIn_le hin
    all_goals omega

/-- Reads tokens in two phases, numbering the nodes from `firstId` upwards. -/
def ofBlocks (tokens : List Token) (firstId : Int) : Except UnknownOperator Reading :=
  readItems .empty firstId (nest [] [] tokens)

/-! ### Items as tokens -/

/-- The tokens of items. -/
def flat : List Item → List Token
  | [] => []
  | .leaf token _ :: rest => token :: flat rest
  | .block items :: rest => ⟨.leftParen, "("⟩ :: flat items ++ ⟨.rightParen, ")"⟩ :: flat rest

theorem flat_append (left right : List Item) : flat (left ++ right) = flat left ++ flat right := by
  induction left with
  | nil => simp [flat]
  | cons item left ih => cases item <;> simp [flat, ih]

/-- A block can end before these tokens. -/
def EndsBlock (tokens : List Token) : Prop :=
  ∀ token, tokens.head? = some token → token.kind = .rightParen

theorem endsBlock_nil : EndsBlock [] := by
  simp [EndsBlock]

theorem endsBlock_cons {token : Token} (hkind : token.kind = .rightParen) (rest : List Token) :
    EndsBlock (token :: rest) := by
  intro first hfirst
  cases hfirst
  exact hkind

theorem valueAt_flat (items : List Item) {tail : List Token} (htail : EndsBlock tail) :
    valueAt (flat items ++ tail) = ((valueIn items).1, flat (valueIn items).2 ++ tail) := by
  match items with
  | [] =>
    cases tail with
    | nil => simp [flat, valueAt, valueIn]
    | cons token tail => simp [flat, valueAt, valueIn, Token.isWord, htail token rfl]
  | .block items :: rest => simp [flat, valueAt, valueIn, Token.isWord]
  | .leaf token hleaf :: rest =>
    simp only [flat, List.cons_append, valueAt, valueIn]
    split
    · rfl
    · simp [flat]

theorem comparisonAt_flat (items : List Item) {tail : List Token} (htail : EndsBlock tail) :
    comparisonAt (flat items ++ tail) =
      (comparisonIn items).map fun (comparison, after) => (comparison, flat after ++ tail) := by
  match items with
  | [] =>
    cases tail with
    | nil => simp [flat, comparisonAt, comparisonIn, Except.map]
    | cons token tail => simp [flat, comparisonAt, comparisonIn, htail token rfl, Except.map]
  | .block items :: rest => simp [flat, comparisonAt, comparisonIn, Except.map]
  | .leaf token hleaf :: rest =>
    simp only [flat, List.cons_append, comparisonAt, comparisonIn]
    split
    · cases token.operator? with
      | none => rfl
      | some operator => simp [valueAt_flat rest htail, Except.map]
    · simp [flat, Except.map]

/-- At the end of its block a reading goes on as the groups around say. -/
theorem run_of_endsBlock (outer : List (Int × Level)) (level : Level) (nextId : Int)
    {tail : List Token} (htail : EndsBlock tail) :
    (State.between outer level nextId).run tail = resume outer level.nodes nextId tail := by
  cases tail with
  | nil => cases outer <;> rfl
  | cons token tail =>
    have hkind : token.kind = .rightParen := htail token rfl
    cases outer with
    | nil => exact State.run_unmatched hkind tail
    | cons entry outer =>
      rw [State.run_rightParen hkind, resume, afterGroup, if_pos hkind]

/-- Items are read alike in both forms, with any groups around them and anything behind their block. -/
theorem run_flat (outer : List (Int × Level)) (level : Level) (nextId : Int) (items : List Item)
    {tail : List Token} (htail : EndsBlock tail) :
    (State.between outer level nextId).run (flat items ++ tail) =
      (readItems level nextId items).bind fun inner =>
        resume outer inner.forest inner.nextId tail := by
  match items with
  | [] =>
    rw [flat, readItems]
    exact run_of_endsBlock outer level nextId htail
  | .block items :: rest =>
    have hbehind : EndsBlock (⟨.rightParen, ")"⟩ :: (flat rest ++ tail)) := endsBlock_cons rfl _
    simp only [flat, List.cons_append, List.append_assoc]
    rw [State.run_leftParen rfl, run_flat ((nextId, level) :: outer) .empty (nextId + 1) items hbehind,
      readItems]
    cases readItems .empty (nextId + 1) items with
    | error fault => rfl
    | ok inner =>
      exact run_flat outer (level.appendGroup nextId inner.forest) inner.nextId rest htail
  | .leaf token hleaf :: rest =>
    rw [flat, List.cons_append, readItems]
    split
    · rename_i hkind
      rw [State.run_and hkind]
      exact run_flat outer { level with logic := .and } nextId rest htail
    · rename_i hkind
      rw [State.run_or hkind]
      exact run_flat outer { level with logic := .or } nextId rest htail
    · rename_i hkind
      rw [State.run_not hkind]
      exact run_flat outer { level with negated := !level.negated } nextId rest htail
    · rename_i hkind
      simp [Token.isParenthesis, hkind] at hleaf
    · rename_i hkind
      simp [Token.isParenthesis, hkind] at hleaf
    -- An operator where a field belongs begins a condition as a word does.
    all_goals
      rename_i hkind
      rw [State.run_word (by simp [Token.isWord, hkind]), comparisonAt_flat rest htail]
      split
      · rename_i hin
        rw [hin]
        rfl
      · rename_i comparison after hin
        have hshorter := sizeOf_comparisonIn_le hin
        conv => lhs; rw [hin]
        exact run_flat outer _ _ after htail
  termination_by sizeOf items
  decreasing_by
    all_goals simp only [List.cons.sizeOf_spec, Item.block.sizeOf_spec, Item.leaf.sizeOf_spec]
    all_goals omega

/-! ### Nesting reads alike -/

namespace State

/-- A token that can be neither field nor value counts by its kind only. -/
theorem feed_congr (state : State) {left right : Token} (hkind : left.kind = right.kind)
    (hword : left.isWord = false) : state.feed left = state.feed right := by
  have hword' : right.isWord = false := by rwa [Token.isWord, ← hkind]
  cases hhalted : state.halted with
  | true => rw [feed_halted hhalted, feed_halted hhalted]
  | false =>
    rw [feed_of_not_isWord hhalted hword, feed_of_not_isWord hhalted hword', advance, advance,
      ← hkind]
    cases hleft : left.kind with
    | comparison | atom => simp [Token.isWord, hleft] at hword
    | _ => rfl

theorem run_append (state : State) (left right : List Token) :
    state.run (left ++ right) = (state.feedAll left).bind (·.run right) := by
  rw [run, feedAll_append]
  cases state.feedAll left <;> rfl

/-- What comes behind the same tokens may be replaced by what reads alike there. -/
theorem run_append_congr (state : State) (tokens : List Token) {left right : List Token}
    (halike : ∀ last, state.feedAll tokens = .ok last → last.run left = last.run right) :
    state.run (tokens ++ left) = state.run (tokens ++ right) := by
  rw [run_append, run_append]
  cases hfeed : state.feedAll tokens with
  | error fault => rfl
  | ok last => exact halike last hfeed

theorem run_cons_congr (state : State) {left right : Token} (hkind : left.kind = right.kind)
    (hword : left.isWord = false) (tokens : List Token) :
    state.run (left :: tokens) = state.run (right :: tokens) := by
  rw [run_cons, run_cons, state.feed_congr hkind hword]

/-- At the end of the tokens a closing parenthesis closes what the end would close. -/
theorem run_final_rightParen (state : State) {token : Token} (hkind : token.kind = .rightParen) :
    state.run [token] = state.run [] := by
  cases hhalted : state.halted with
  | true => rw [run_halted hhalted, run_halted hhalted]
  | false =>
    have hends : EndsCondition [token] := endsCondition_cons (by simp [Token.isWord, hkind]) []
    rw [← state.run_settle hends, run_nil, ← finish_settle, settle_eq_between hhalted]
    cases state.outer with
    | nil => exact run_unmatched hkind []
    | cons entry outer => exact run_rightParen hkind entry.1 entry.2 []

end State

/-- The tokens of items within open blocks. -/
def flatWithin : List (List Item) → List Item → List Token
  | [], items => flat items
  | around :: outer, items => flatWithin outer around ++ ⟨.leftParen, "("⟩ :: flat items

theorem flatWithin_append (outer : List (List Item)) (items more : List Item) :
    flatWithin outer (items ++ more) = flatWithin outer items ++ flat more := by
  cases outer <;> simp [flatWithin, flat_append]

theorem flatWithin_leftParen (outer : List (List Item)) (items : List Item) :
    flatWithin (items :: outer) [] = flatWithin outer items ++ [⟨.leftParen, "("⟩] := by
  simp [flatWithin, flat]

/-- Closing the last block puts its tokens and its parenthesis behind what is around it. -/
theorem flatWithin_block (outer : List (List Item)) (around items : List Item) :
    flatWithin outer (around ++ [.block items]) =
      flatWithin (around :: outer) items ++ [⟨.rightParen, ")"⟩] := by
  simp [flatWithin_append, flatWithin, flat]

theorem run_closeBlocks (state : State) (outer : List (List Item)) (items : List Item) :
    state.run (flat (closeBlocks outer items)) = state.run (flatWithin outer items) := by
  induction outer generalizing items with
  | nil => rfl
  | cons around outer ih =>
    have hclose : ∀ state : State, state.run [⟨.rightParen, ")"⟩] = state.run [] :=
      fun state => state.run_final_rightParen rfl
    rw [closeBlocks, ih, flatWithin_block, state.run_append_congr _ fun last _ => hclose last, List.append_nil]

/-- Matching the parentheses of further tokens changes nothing a reading could see. -/
theorem run_nest (level : Level) (nextId : Int) (outer : List (List Item)) (items : List Item)
    (tokens : List Token) :
    (State.between [] level nextId).run (flat (nest outer items tokens)) =
      (State.between [] level nextId).run (flatWithin outer items ++ tokens) := by
  induction tokens generalizing outer items with
  | nil => rw [nest, run_closeBlocks, List.append_nil]
  | cons token rest ih =>
    rcases token.parenthesis_cases with hleaf | hkind | hkind
    · rw [nest_leaf _ _ _ hleaf, ih, flatWithin_append]
      simp [flat]
    · have hopen : ∀ state : State, state.run (⟨.leftParen, "("⟩ :: rest) =
          state.run (token :: rest) :=
        fun state => state.run_cons_congr hkind.symm rfl rest
      rw [nest_leftParen _ _ _ hkind, ih, flatWithin_leftParen, List.append_assoc]
      exact State.run_append_congr _ _ fun last _ => hopen last
    · cases outer with
      | nil =>
        have hunread := run_flat [] level nextId items (endsBlock_cons hkind rest)
        have halone := run_flat [] level nextId items endsBlock_nil
        rw [nest_unmatched _ _ hkind, flatWithin, hunread]
        rw [List.append_nil] at halone
        rw [halone]
        rfl
      | cons around outer =>
        have hclose : ∀ state : State, state.run (⟨.rightParen, ")"⟩ :: rest) =
            state.run (token :: rest) :=
          fun state => state.run_cons_congr hkind.symm rfl rest
        rw [nest_rightParen _ _ _ hkind, ih, flatWithin_block, List.append_assoc]
        exact State.run_append_congr _ _ fun last _ => hclose last

/-- A reading with no group open goes on as the blocks of its tokens say. -/
theorem run_eq_readItems (level : Level) (nextId : Int) (tokens : List Token) :
    (State.between [] level nextId).run tokens = readItems level nextId (nest [] [] tokens) := by
  have hnest := run_nest level nextId [] [] tokens
  have hread := run_flat [] level nextId (nest [] [] tokens) endsBlock_nil
  rw [flatWithin, flat, List.nil_append] at hnest
  rw [List.append_nil, hnest] at hread
  rw [hread]
  cases readItems level nextId (nest [] [] tokens) <;> rfl

theorem ofTokens_eq_ofBlocks (tokens : List Token) (firstId : Int) :
    ofTokens tokens firstId = ofBlocks tokens firstId :=
  run_eq_readItems .empty firstId tokens

/-- What a descent over one cursor makes of any tokens, well formed or not, is what matching parentheses
first and reading every block by itself makes of them. -/
theorem descend_eq_ofBlocks (tokens : List Token) (firstId : Int) :
    descend tokens firstId = ofBlocks tokens firstId ∧
      ofTokens tokens firstId = ofBlocks tokens firstId :=
  ⟨(ofTokens_eq_descend tokens firstId).symm.trans (ofTokens_eq_ofBlocks tokens firstId),
    ofTokens_eq_ofBlocks tokens firstId⟩

end Reading

end DisplayFilter
