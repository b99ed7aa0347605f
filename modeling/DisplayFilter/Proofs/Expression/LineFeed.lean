import DisplayFilter.Proofs.Expression.Bare
/-!
# Line feeds at the end of a field or value

How many fields and values of a forest end with a line feed never grows by reading: each of them comes
from the content of a token (`lineFeeds_le_of_ofTokens`), and the tokens of a canonical expression hold
as many as its forest only if none was lost (`lineFeeds_siblingTokens`). So a lost line feed cannot be
made up for by any other part of the expression.
-/

namespace DisplayFilter

open Printer Token

/-! ### Fields, values and their tokens -/

/-- One if the text ends with a line feed, otherwise zero. -/
def endLineFeed (text : String) : Nat :=
  if text.toList.getLast? = some '\n' then 1 else 0

/-- The line feed a token may end with. -/
def Token.lineFeeds (token : Token) : Nat :=
  endLineFeed token.content

mutual

/-- How many fields and values end with a line feed at the node and below it. -/
def Node.lineFeeds : Node → Nat
  | .condition _ _ field operator value =>
    endLineFeed field + if operator.takesValue then endLineFeed value else 0
  | .group _ _ _ children => Forest.lineFeeds children

/-- How many fields and values of a forest end with a line feed. -/
def Forest.lineFeeds : List Node → Nat
  | [] => 0
  | node :: rest => node.lineFeeds + Forest.lineFeeds rest

end

namespace Printer

theorem lineFeeds_line {text : String} {word : List Char}
    (hword : ∀ c ∈ word, isWordChar c = true) (hline : text.toList = word ++ ['\n']) :
    (plain word).lineFeeds = 0 ∧ endLineFeed text = 1 := by
  refine ⟨?_, by simp [endLineFeed, hline]⟩
  rw [Token.lineFeeds, content_plain (head?_ne_quote hword), endLineFeed, String.toList_ofList]
  refine if_neg fun hlast => ?_
  exact absurd (hword '\n' (List.mem_of_getLast? hlast)) (by decide)

theorem lineFeeds_fieldToken (name : String) :
    (fieldToken name).lineFeeds ≤ endLineFeed name ∧
      ((fieldToken name).lineFeeds = endLineFeed name ↔ ¬ IsWordLine name.toList) := by
  by_cases hline : IsWordLine name.toList
  · obtain ⟨word, hne, hword, htext⟩ := hline
    have htoken : fieldToken name = plain word := by
      rw [fieldToken, htext, if_pos (isBareField_line hne hword), dropFinalNewline_append_newline]
    obtain ⟨hzero, hone⟩ :=
      lineFeeds_line (fun c hc => isWordChar_of_isFieldChar (hword c hc)) htext
    rw [htoken, hzero, hone]
    exact ⟨by omega, by simpa using ⟨word, hne, hword, htext⟩⟩
  · have hsame := (word_fieldToken hline).2
    simp [Token.lineFeeds, hsame, hline]

theorem lineFeeds_valueToken (text : String) :
    (valueToken text).lineFeeds ≤ endLineFeed text ∧
      ((valueToken text).lineFeeds = endLineFeed text ↔ ¬ IsNumberLine text.toList) := by
  by_cases hline : IsNumberLine text.toList
  · obtain ⟨digits, hnumber, htext⟩ := hline
    have htoken : valueToken text = plain digits := by
      rw [valueToken, isBareValue, htext, dropFinalNewline_append_newline, if_pos hnumber]
    obtain ⟨hzero, hone⟩ := lineFeeds_line (isWordChar_of_isNumber hnumber) htext
    rw [htoken, hzero, hone]
    exact ⟨by omega, by simpa using ⟨digits, hnumber, htext⟩⟩
  · have hsame := (word_valueToken hline).2
    simp [Token.lineFeeds, hsame, hline]

end Printer

/-! ### Forests and their tokens -/

namespace Forest

@[simp] theorem lineFeeds_nil : lineFeeds [] = 0 := by
  simp [lineFeeds]

@[simp] theorem lineFeeds_condition_cons (id : Int) (logic : Logic) (field : String)
    (operator : Operator) (value : String) (rest : Forest) :
    lineFeeds (.condition id logic field operator value :: rest) =
      endLineFeed field + (if operator.takesValue then endLineFeed value else 0) +
        lineFeeds rest := by
  simp [lineFeeds, Node.lineFeeds]

@[simp] theorem lineFeeds_group_cons (id : Int) (logic : Logic) (negated : Bool)
    (children rest : Forest) :
    lineFeeds (.group id logic negated children :: rest) = lineFeeds children + lineFeeds rest := by
  simp [lineFeeds, Node.lineFeeds]

@[simp] theorem lineFeeds_append (left right : Forest) :
    lineFeeds (left ++ right) = lineFeeds left + lineFeeds right := by
  induction left with
  | nil => simp
  | cons node left ih => simp [lineFeeds, ih, Nat.add_assoc]

end Forest

namespace Token

/-- The line feeds several tokens end with. -/
def sumLineFeeds : List Token → Nat
  | [] => 0
  | token :: rest => token.lineFeeds + sumLineFeeds rest

@[simp] theorem sumLineFeeds_nil : sumLineFeeds [] = 0 :=
  rfl

@[simp] theorem sumLineFeeds_cons (token : Token) (tokens : List Token) :
    sumLineFeeds (token :: tokens) = token.lineFeeds + sumLineFeeds tokens :=
  rfl

@[simp] theorem sumLineFeeds_append (left right : List Token) :
    sumLineFeeds (left ++ right) = sumLineFeeds left + sumLineFeeds right := by
  induction left with
  | nil => simp
  | cons token left ih => simp [ih, Nat.add_assoc]

@[simp] theorem lineFeeds_connective (logic : Logic) : (connectiveToken logic).lineFeeds = 0 := by
  cases logic <;> decide

@[simp] theorem lineFeeds_symbol (op : Operator) : (plain op.symbol.toList).lineFeeds = 0 := by
  cases op <;> decide

@[simp] theorem lineFeeds_not : (plain ['!']).lineFeeds = 0 := by
  decide

@[simp] theorem lineFeeds_leftParen : (plain ['(']).lineFeeds = 0 := by
  decide

@[simp] theorem lineFeeds_rightParen : (plain [')']).lineFeeds = 0 := by
  decide

end Token

namespace Printer

theorem lineFeeds_conditionTokens (name : String) (operator : Operator) (text : String) :
    sumLineFeeds (conditionTokens name operator text) ≤
        endLineFeed name + (if operator.takesValue then endLineFeed text else 0) ∧
      (sumLineFeeds (conditionTokens name operator text) =
          endLineFeed name + (if operator.takesValue then endLineFeed text else 0) ↔
        ¬ IsWordLine name.toList ∧ (operator.takesValue = true → ¬ IsNumberLine text.toList)) := by
  obtain ⟨hname, hnameEq⟩ := lineFeeds_fieldToken name
  obtain ⟨htext, htextEq⟩ := lineFeeds_valueToken text
  rw [← hnameEq, ← htextEq]
  cases operator <;> simp [conditionTokens, Operator.takesValue] <;> omega

/-- The tokens of a canonical expression end with as many line feeds as the fields and values of the
forest do, less those that are lost. -/
theorem lineFeeds_siblingTokens (first : Bool) (forest : Forest) :
    sumLineFeeds (siblingTokens first forest) ≤ Forest.lineFeeds forest ∧
      (sumLineFeeds (siblingTokens first forest) = Forest.lineFeeds forest ↔ forest.KeepsLineFeeds) := by
  induction forest using Forest.induction generalizing first with
  | nil => simp [siblingTokens]
  | condition id logic field operator value rest ih =>
    obtain ⟨hcondition, hconditionEq⟩ := lineFeeds_conditionTokens field operator value
    obtain ⟨hrest, hrestEq⟩ := ih false
    have hfirst : sumLineFeeds (if first then [] else [connectiveToken logic]) = 0 := by
      cases first <;> simp
    rw [Forest.keepsLineFeeds_condition_cons, ← hconditionEq, ← hrestEq]
    simp only [siblingTokens, nodeTokens, Node.logic, sumLineFeeds_append, hfirst,
      Forest.lineFeeds_condition_cons]
    omega
  | group id logic negated children rest ihchildren ihrest =>
    obtain ⟨hchildren, hchildrenEq⟩ := ihchildren true
    obtain ⟨hrest, hrestEq⟩ := ihrest false
    have hfirst : sumLineFeeds (if first then [] else [connectiveToken logic]) = 0 := by
      cases first <;> simp
    have hnegated : sumLineFeeds (if negated then [plain ['!']] else []) = 0 := by
      cases negated <;> simp
    rw [Forest.keepsLineFeeds_group_cons, ← hchildrenEq, ← hrestEq]
    simp only [siblingTokens, nodeTokens, Node.logic, sumLineFeeds_append, sumLineFeeds_cons,
      sumLineFeeds_nil, hfirst, hnegated, lineFeeds_leftParen, lineFeeds_rightParen,
      Forest.lineFeeds_group_cons]
    omega

end Printer

/-! ### Reading gains no line feeds -/

namespace Reading.State

/-- The line feeds of the siblings around the open groups. -/
def outerLineFeeds : List (Int × Level) → Nat
  | [] => 0
  | (_, around) :: outer => Forest.lineFeeds around.nodes + outerLineFeeds outer

/-- The line feed of the field of the condition that has begun. -/
def pendingLineFeeds : Pending → Nat
  | .nothing => 0
  | .field name => endLineFeed name
  | .comparison name _ => endLineFeed name

/-- The line feeds of all that has been read and not been dropped. -/
def lineFeeds (state : State) : Nat :=
  outerLineFeeds state.outer + Forest.lineFeeds state.level.nodes + pendingLineFeeds state.pending

@[simp] theorem lineFeeds_appendGroup (around : Level) (id : Int) (children : Forest) :
    Forest.lineFeeds (around.appendGroup id children).nodes =
      Forest.lineFeeds around.nodes + Forest.lineFeeds children := by
  unfold Level.appendGroup
  split
  · rename_i hempty
    simp [List.isEmpty_iff.1 hempty]
  · simp [Level.append]

theorem lineFeeds_complete {state : State} {field : String} (hpending : state.pending = .field field) :
    (state.complete field).lineFeeds = state.lineFeeds := by
  cases hnegated : state.level.negated <;>
    simp [complete, lineFeeds, Level.append, pendingLineFeeds, hpending, hnegated,
      Operator.takesValue, Nat.add_assoc]

theorem lineFeeds_completeComparison_le {state : State} {field : String} {operator : Operator}
    (hpending : state.pending = .comparison field operator) (value : String) :
    (state.completeComparison field operator value).lineFeeds ≤
      state.lineFeeds + endLineFeed value := by
  have hvalue : (if operator.takesValue then endLineFeed value else 0) ≤ endLineFeed value := by
    split <;> omega
  unfold completeComparison
  split <;> simp [lineFeeds, Level.append, pendingLineFeeds, hpending] <;> omega

theorem lineFeeds_settle_le (state : State) : state.settle.lineFeeds ≤ state.lineFeeds := by
  unfold settle
  split
  · exact Nat.le_refl _
  · rename_i name hpending
    exact Nat.le_of_eq (lineFeeds_complete hpending)
  · rename_i name operator hpending
    exact lineFeeds_completeComparison_le hpending ""

theorem lineFeeds_advance_le {state : State} (hpending : state.pending = .nothing) (token : Token) :
    (state.advance token).lineFeeds ≤ state.lineFeeds + token.lineFeeds := by
  unfold advance
  split
  · exact Nat.le_add_right ..
  · exact Nat.le_add_right ..
  · exact Nat.le_add_right ..
  · simp [lineFeeds, outerLineFeeds, Level.empty]
    omega
  · split
    · exact Nat.le_add_right ..
    · rename_i id around outer houter
      simp [lineFeeds, outerLineFeeds, houter]
      omega
  · simp [lineFeeds, hpending, pendingLineFeeds, Token.lineFeeds]
  · simp [lineFeeds, hpending, pendingLineFeeds, Token.lineFeeds]

/-- A token adds no line feed but its own. -/
theorem Step.lineFeeds_le {state next : State} {token : Token} (hstep : Step state token next) :
    next.lineFeeds ≤ state.lineFeeds + token.lineFeeds := by
  cases hstep with
  | halted => exact Nat.le_add_right ..
  | value _ hpending => exact lineFeeds_completeComparison_le hpending token.content
  | operator _ hpending =>
    simp [lineFeeds, hpending, pendingLineFeeds]
  | advance =>
    have hsettle := state.lineFeeds_settle_le
    have hadvance := lineFeeds_advance_le state.pending_settle token
    omega

theorem lineFeeds_feedAll_le {state last : State} {tokens : List Token}
    (hfeed : state.feedAll tokens = .ok last) :
    last.lineFeeds ≤ state.lineFeeds + sumLineFeeds tokens := by
  induction tokens generalizing state with
  | nil =>
    cases hfeed
    exact Nat.le_add_right ..
  | cons token tokens ih =>
    obtain ⟨next, hstep, hrest⟩ := exists_step_of_feedAll_cons hfeed
    have hnext := hstep.lineFeeds_le
    have hlast := ih hrest
    rw [sumLineFeeds_cons]
    omega

theorem lineFeeds_closeAll (outer : List (Int × Level)) (level : Level) :
    Forest.lineFeeds (closeAll outer level).nodes =
      outerLineFeeds outer + Forest.lineFeeds level.nodes := by
  induction outer generalizing level with
  | nil => simp [closeAll, outerLineFeeds]
  | cons entry outer ih =>
    obtain ⟨id, around⟩ := entry
    rw [closeAll, ih, lineFeeds_appendGroup]
    simp [outerLineFeeds]
    omega

end Reading.State

/-- A reading has no line feeds but those of its tokens. -/
theorem Reading.lineFeeds_le_of_ofTokens {tokens : List Token} {firstId : Int} {reading : Reading}
    (hread : ofTokens tokens firstId = .ok reading) :
    Forest.lineFeeds reading.forest ≤ sumLineFeeds tokens := by
  obtain ⟨last, hlast, rfl⟩ := exists_of_ofTokens hread
  have hall := State.lineFeeds_feedAll_le hlast
  have hstart : (State.start firstId).lineFeeds = 0 := by
    simp [State.start, State.lineFeeds, State.outerLineFeeds, State.pendingLineFeeds, Level.empty]
  have hsettle := last.lineFeeds_settle_le
  have hclose := State.lineFeeds_closeAll last.settle.outer last.settle.level
  rw [State.lineFeeds, State.pending_settle, State.pendingLineFeeds] at hsettle
  change Forest.lineFeeds (State.closeAll last.settle.outer last.settle.level).nodes ≤ _
  omega

/-- Reading a canonical expression gains no line feed, and keeps their number only if none is lost. -/
theorem Reading.lineFeeds_ofText_text (forest : Forest) (firstId : Int) :
    Forest.lineFeeds (ofText (Forest.text forest) firstId).forest ≤ Forest.lineFeeds forest ∧
      (Forest.lineFeeds (ofText (Forest.text forest) firstId).forest = Forest.lineFeeds forest →
        forest.KeepsLineFeeds) := by
  have hread := lineFeeds_le_of_ofTokens (ofTokens_scan (Forest.text forest) firstId)
  rw [Token.scan_text] at hread
  obtain ⟨hle, heq⟩ := lineFeeds_siblingTokens true forest
  exact ⟨by omega, fun hsame => heq.1 (by omega)⟩

end DisplayFilter
