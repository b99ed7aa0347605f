import DisplayFilter.Proofs.Expression.Unambiguous
import DisplayFilter.Proofs.Text.Literal
import DisplayFilter.Tree.Outline
import Mathlib
/-!
# Outlines show the whole tree

An outline lists the nodes as a walk meets them, each on its level (`siblings_eq_map_line`), and two outlines
are the same only for forests that agree, numbers included (`outline_faithful`). Fields stand in a line as
they are, so a line is read from both ends: the combinator and the number from the left, and from the right
first what the line ends with, then the literal and the operator. The field is what is left. Between lines
the margin tells where the children of a group end.
-/

namespace DisplayFilter

namespace Outline

/-- A node in an outline: how many levels deep it stands, and whether it is a first sibling. -/
structure Entry where
  depth : Nat
  first : Bool
  node : Node

/-- What a line says of a node behind its number. -/
def text : Node → String
  | .condition _ _ field operator value => condition field operator value
  | .group _ _ negated _ => group negated

def Entry.line (entry : Entry) : String :=
  lead entry.depth entry.first entry.node.logic entry.node.id ++ text entry.node

/-- The blanks a line begins with. -/
def margin (line : String) : Nat :=
  (line.toList.takeWhile (· == ' ')).length

end Outline

mutual

/-- The node and all below it, each with its level. -/
def Node.entries (depth : Nat) (first : Bool) : Node → List Outline.Entry
  | .condition id logic field operator value => [⟨depth, first, .condition id logic field operator value⟩]
  | .group id logic negated children =>
    ⟨depth, first, .group id logic negated children⟩ :: Forest.entries (depth + 1) true children

/-- All nodes of a forest in the order of a walk, each with its level. -/
def Forest.entries (depth : Nat) (first : Bool) : List Node → List Outline.Entry
  | [] => []
  | node :: rest => node.entries depth first ++ Forest.entries depth false rest

end

namespace Outline

section Entries

variable (depth : Nat) (first : Bool)

@[simp] theorem entries_nil : Forest.entries depth first [] = [] := by
  rw [Forest.entries]

@[simp] theorem entries_condition_cons (id : Int) (logic : Logic) (field : String) (operator : Operator)
    (value : String) (rest : Forest) :
    Forest.entries depth first (.condition id logic field operator value :: rest) =
      ⟨depth, first, .condition id logic field operator value⟩ :: Forest.entries depth false rest := by
  rw [Forest.entries, Node.entries, List.singleton_append]

@[simp] theorem entries_group_cons (id : Int) (logic : Logic) (negated : Bool) (children rest : Forest) :
    Forest.entries depth first (.group id logic negated children :: rest) =
      ⟨depth, first, .group id logic negated children⟩ ::
        (Forest.entries (depth + 1) true children ++ Forest.entries depth false rest) := by
  rw [Forest.entries, Node.entries, List.cons_append]

theorem map_node_entries (forest : Forest) :
    (Forest.entries depth first forest).map (·.node) = Forest.walk forest := by
  induction forest using Forest.induction generalizing depth first with
  | nil => simp
  | condition id logic field operator value rest ih => simp [ih]
  | group id logic negated children rest ihchildren ihrest => simp [ihchildren, ihrest]

theorem siblings_eq_map_line (forest : Forest) :
    siblings depth first forest = (Forest.entries depth first forest).map Entry.line := by
  induction forest using Forest.induction generalizing depth first with
  | nil => simp [siblings]
  | condition id logic field operator value rest ih =>
    simp [siblings, node, Entry.line, text, Node.logic, Node.id, ih]
  | group id logic negated children rest ihchildren ihrest =>
    have hdeeper : siblings ((depth : Int) + 1) true children =
        (Forest.entries (depth + 1) true children).map Entry.line := ihchildren (depth + 1) true
    simp [siblings, node, Entry.line, text, Node.logic, Node.id, hdeeper, ihrest]

end Entries

/-! ### The left end of a line -/

theorem toList_line (entry : Entry) :
    entry.line.toList = List.replicate (2 * entry.depth) ' ' ++
      ((if entry.first then [] else entry.node.logic.symbol.toList ++ [' ']) ++
        '[' :: ((toString entry.node.id).toList ++ ']' :: ' ' :: (text entry.node).toList)) := by
  simp only [Entry.line, lead, pad, Int.toNat_natCast]
  cases entry.first <;> simp

theorem margin_line (entry : Entry) : margin entry.line = 2 * entry.depth := by
  have hlabel : ∀ rest : List Char, ((if entry.first then [] else entry.node.logic.symbol.toList ++ [' ']) ++
      '[' :: rest).takeWhile (· == ' ') = [] := by
    intro rest
    cases entry.first with
    | true => rfl
    | false => cases entry.node.logic <;> rfl
  rw [margin, toList_line, List.takeWhile_append_of_pos (by simp), hlabel, List.append_nil,
    List.length_replicate]

theorem bracket_not_mem_id (id : Int) : ']' ∉ (toString id).toList := by
  have hdigits : ∀ n : Nat, ']' ∉ n.repr.toList := by
    intro n hmem
    rw [Nat.repr_eq_ofList_toDigits, String.toList_ofList] at hmem
    cases Nat.isDigit_of_mem_toDigits (by decide) (by decide) hmem
  cases id with
  | ofNat n => exact hdigits n
  | negSucc n =>
    have hsigned : toString (Int.negSucc n) = "-" ++ (n + 1).repr := rfl
    rw [hsigned, String.toList_append, List.mem_append, not_or]
    exact ⟨by decide, hdigits (n + 1)⟩

/-- A line is read from the left as far as the number. -/
theorem line_inj {depth : Nat} {first : Bool} {node other : Node}
    (heq : Entry.line ⟨depth, first, node⟩ = Entry.line ⟨depth, first, other⟩) :
    (first = false → node.logic = other.logic) ∧ node.id = other.id ∧ text node = text other := by
  have hlabel := congrArg String.toList heq
  rw [toList_line, toList_line] at hlabel
  replace hlabel := List.append_cancel_left hlabel
  have hnumber : ∀ {rest more : List Char},
      '[' :: ((toString node.id).toList ++ ']' :: ' ' :: rest) =
        '[' :: ((toString other.id).toList ++ ']' :: ' ' :: more) →
      node.id = other.id ∧ rest = more := by
    intro rest more heq
    obtain ⟨hid, hrest⟩ := Printer.eq_of_append_separator_eq (bracket_not_mem_id node.id)
      (bracket_not_mem_id other.id) (List.cons.inj heq).2
    exact ⟨Int.repr_inj.1 (String.toList_injective hid), (List.cons.inj hrest).2⟩
  cases first with
  | true =>
    obtain ⟨hid, htext⟩ := hnumber hlabel
    exact ⟨nofun, hid, String.toList_injective htext⟩
  | false =>
    simp only [Bool.false_eq_true, if_false, List.append_assoc, List.singleton_append] at hlabel
    obtain ⟨hsymbol, hrest⟩ := Printer.eq_of_append_separator_eq (Printer.blank_not_mem_logic node.logic)
      (Printer.blank_not_mem_logic other.logic) hlabel
    obtain ⟨hid, htext⟩ := hnumber hrest
    exact ⟨fun _ => Logic.symbol_inj (String.toList_injective hsymbol), hid,
      String.toList_injective htext⟩

theorem line_congr (depth : Nat) {first : Bool} {node other : Node}
    (hlogic : first = false → node.logic = other.logic) (hid : node.id = other.id)
    (htext : text node = text other) :
    Entry.line ⟨depth, first, node⟩ = Entry.line ⟨depth, first, other⟩ := by
  cases first with
  | true => simp only [Entry.line, lead, hid, htext, if_true]
  | false => simp only [Entry.line, lead, hlogic rfl, hid, htext]

/-! ### The right end of a line -/

theorem toList_condition (field : String) (operator : Operator) (value : String) :
    (condition field operator value).toList =
      field.toList ++ ' ' :: (operator.symbol.toList ++
        if operator.takesValue then ' ' :: Text.literalChars value.toList else []) := by
  cases htakes : operator.takesValue <;> simp [condition, htakes, Text.literal]

/-- What the line of a condition ends with: its literal, or the symbol of a test of presence. -/
def ending (operator : Operator) (value : String) : Char :=
  match operator with
  | .exists => 's'
  | .negatedExists => '!'
  | _ => Text.literalMark value.toList

theorem getLast?_condition (field : String) (operator : Operator) (value : String) :
    (condition field operator value).toList.getLast? = some (ending operator value) := by
  rw [toList_condition]
  cases operator <;>
    simp [Operator.symbol, Operator.takesValue, ending, Text.literalChars, List.getLast?_append,
      List.getLast?_cons]

theorem isMark_ending_iff (operator : Operator) (value : String) :
    Text.IsMark (ending operator value) ↔ operator.takesValue = true := by
  cases operator with
  | «exists» | negatedExists => simp [ending, Text.IsMark, Operator.takesValue]
  | _ => simpa [ending, Operator.takesValue] using Text.isMark_literalMark value.toList

theorem ending_ne_parenthesis (operator : Operator) (value : String) : ending operator value ≠ ')' := by
  cases operator with
  | «exists» | negatedExists => simp [ending]
  | _ =>
    rcases Text.isMark_literalMark value.toList with hmark | hmark <;> simp [ending, hmark]

/-- A condition is read from the right: its ending, its literal if it has one, its operator. -/
theorem condition_inj {field otherField : String} {operator other : Operator} {value otherValue : String}
    (heq : condition field operator value = condition otherField other otherValue) :
    field = otherField ∧ operator = other ∧ (operator.takesValue = true → value = otherValue) := by
  have htakes : operator.takesValue = other.takesValue := by
    have hending := congrArg (·.toList.getLast?) heq
    simp only [getLast?_condition, Option.some.injEq] at hending
    rw [Bool.eq_iff_iff, ← isMark_ending_iff operator value, hending, isMark_ending_iff]
  have hchars := congrArg String.toList heq
  rw [toList_condition, toList_condition, ← htakes] at hchars
  have hword : field.toList ++ ' ' :: operator.symbol.toList =
      otherField.toList ++ ' ' :: other.symbol.toList →
      field = otherField ∧ operator = other := by
    intro hword
    obtain ⟨hfield, hsymbol⟩ := Text.eq_of_append_word_eq (Printer.blank_not_mem_operator operator)
      (Printer.blank_not_mem_operator other) hword
    exact ⟨String.toList_injective hfield, Operator.symbol_inj (String.toList_injective hsymbol)⟩
  cases hvalue : operator.takesValue with
  | false =>
    simp only [hvalue, Bool.false_eq_true, if_false, List.append_nil] at hchars
    obtain ⟨hfield, hoperator⟩ := hword hchars
    exact ⟨hfield, hoperator, nofun⟩
  | true =>
    simp only [hvalue, if_true, ← List.cons_append, ← List.append_assoc] at hchars
    obtain ⟨hfront, hliteral⟩ := Text.eq_of_append_literalChars_eq hchars
    obtain ⟨hfield, hoperator⟩ := hword hfront
    exact ⟨hfield, hoperator, fun _ => String.toList_injective hliteral⟩

theorem condition_ne_group (field : String) (operator : Operator) (value : String) (negated : Bool) :
    condition field operator value ≠ group negated := by
  intro heq
  have hgroup : (group negated).toList.getLast? = some ')' := by
    cases negated <;> rfl
  rw [← heq, getLast?_condition, Option.some.injEq] at hgroup
  exact ending_ne_parenthesis operator value hgroup

theorem group_inj {negated other : Bool} (heq : group negated = group other) : negated = other := by
  revert heq
  cases negated <;> cases other <;> decide

/-! ### Lines of a forest -/

/-- No line on this level or deeper comes next. -/
def EndsLevel (depth : Nat) (lines : List String) : Prop :=
  ∀ line, lines.head? = some line → margin line < 2 * depth

theorem endsLevel_map_line {depth : Nat} (first : Bool) (forest : Forest) {rest : List String}
    (hrest : EndsLevel depth rest) :
    EndsLevel (depth + 1) ((Forest.entries depth first forest).map Entry.line ++ rest) := by
  have hline : ∀ node more, EndsLevel (depth + 1) (Entry.line ⟨depth, first, node⟩ :: more) := by
    rintro node more line ⟨⟩
    rw [margin_line]
    show 2 * depth < 2 * (depth + 1)
    omega
  cases forest with
  | nil =>
    intro line hhead
    have hmargin := hrest line (by simpa using hhead)
    omega
  | cons node forest =>
    cases node with
    | condition id logic field operator value => simpa using hline _ _
    | group id logic negated children => simpa using hline _ _

/-- Siblings go on where lines of their level have ended. -/
theorem map_line_cons_append_ne (depth : Nat) (first : Bool) (node : Node) (tail : Forest)
    (rest : List String) {more : List String} (hmore : EndsLevel depth more) :
    (Forest.entries depth first (node :: tail)).map Entry.line ++ rest ≠ more := by
  rintro rfl
  have hmargin : margin (Entry.line ⟨depth, first, node⟩) < 2 * depth := by
    refine hmore _ ?_
    cases node <;> simp
  rw [margin_line] at hmargin
  exact Nat.lt_irrefl _ hmargin

/-- The lines of siblings are cut off in one way only, and forests with the same lines agree. -/
theorem agree_of_lines_eq (left right : Forest) {depth : Nat} {first : Bool} {rest more : List String}
    (hrest : EndsLevel depth rest) (hmore : EndsLevel depth more)
    (heq : (Forest.entries depth first left).map Entry.line ++ rest =
      (Forest.entries depth first right).map Entry.line ++ more) :
    Forest.Agree first left right ∧ Forest.ids left = Forest.ids right ∧ rest = more := by
  -- Over the forest on the left, for any lines behind: behind the children of a group are the lines of its
  -- next siblings, which stand one level up, so the children of both groups end together.
  induction left using Forest.induction generalizing right depth first rest more with
  | nil =>
    rw [entries_nil, List.map_nil, List.nil_append] at heq
    cases right with
    | nil => exact ⟨.nil first, rfl, by simpa using heq⟩
    | cons node tail => exact absurd heq.symm (map_line_cons_append_ne depth first node tail more hrest)
  | condition id logic field operator value tail ih =>
    cases right with
    | nil => exact absurd heq (map_line_cons_append_ne depth first _ tail rest (by simpa using hmore))
    | cons node otherTail =>
      cases node with
      | condition otherId otherLogic otherField other otherValue =>
        simp only [entries_condition_cons, List.map_cons, List.cons_append] at heq
        obtain ⟨hline, hbehind⟩ := List.cons.inj heq
        obtain ⟨hlogic, hid, htext⟩ := line_inj hline
        obtain ⟨rfl, rfl, hvalue⟩ := condition_inj htext
        obtain ⟨htail, hids, hend⟩ := ih otherTail hrest hmore hbehind
        refine ⟨.condition hlogic hvalue htail, ?_, hend⟩
        rw [Forest.ids_condition_cons, Forest.ids_condition_cons, hids, show id = otherId from hid]
      | group otherId otherLogic negated children =>
        simp only [entries_condition_cons, entries_group_cons, List.map_cons, List.cons_append] at heq
        exact absurd (line_inj (List.cons.inj heq).1).2.2 (condition_ne_group _ _ _ _)
  | group id logic negated children tail ihchildren ihtail =>
    cases right with
    | nil => exact absurd heq (map_line_cons_append_ne depth first _ tail rest (by simpa using hmore))
    | cons node otherTail =>
      cases node with
      | condition otherId otherLogic otherField other otherValue =>
        simp only [entries_condition_cons, entries_group_cons, List.map_cons, List.cons_append] at heq
        exact absurd (line_inj (List.cons.inj heq).1).2.2.symm (condition_ne_group _ _ _ _)
      | group otherId otherLogic otherNegated otherChildren =>
        simp only [entries_group_cons, List.map_cons, List.map_append, List.cons_append,
          List.append_assoc] at heq
        obtain ⟨hline, hinside⟩ := List.cons.inj heq
        obtain ⟨hlogic, hid, htext⟩ := line_inj hline
        obtain rfl := group_inj htext
        obtain ⟨hchildren, hinner, hbehind⟩ := ihchildren otherChildren
          (endsLevel_map_line false tail hrest) (endsLevel_map_line false otherTail hmore) hinside
        obtain ⟨htail, houter, hend⟩ := ihtail otherTail hrest hmore hbehind
        refine ⟨.group hlogic hchildren htail, ?_, hend⟩
        rw [Forest.ids_group_cons, Forest.ids_group_cons, hinner, houter, show id = otherId from hid]

end Outline

/-! ### Forests that agree -/

namespace Forest

variable {first : Bool} {left right : Forest}

theorem Agree.length_ids (hagree : Agree first left right) : (ids left).length = (ids right).length := by
  induction hagree with
  | nil first => rfl
  | condition _ _ _ ih => simp [ih]
  | group _ _ _ ihchildren ihrest => simp [ihchildren, ihrest]

theorem Agree.map_line_eq (hagree : Agree first left right) (hids : ids left = ids right) (depth : Nat) :
    (entries depth first left).map Outline.Entry.line = (entries depth first right).map Outline.Entry.line := by
  induction hagree generalizing depth with
  | nil first => rfl
  | @condition first id otherId logic otherLogic field operator value otherValue _ _ hlogic hvalue _ ih =>
    rw [ids_condition_cons, ids_condition_cons] at hids
    obtain ⟨hid, htail⟩ := List.cons.inj hids
    have htext : Outline.condition field operator value = Outline.condition field operator otherValue := by
      cases htakes : operator.takesValue with
      | false => simp only [Outline.condition, htakes, Bool.false_eq_true, if_false]
      | true => rw [hvalue htakes]
    have hline : Outline.Entry.line ⟨depth, first, .condition id logic field operator value⟩ =
        Outline.Entry.line ⟨depth, first, .condition otherId otherLogic field operator otherValue⟩ :=
      Outline.line_congr depth hlogic hid htext
    rw [Outline.entries_condition_cons, Outline.entries_condition_cons, List.map_cons, List.map_cons, hline,
      ih htail]
  | @group first id otherId logic otherLogic negated children otherChildren _ _ hlogic hchildren _ ihchildren
      ihtail =>
    rw [ids_group_cons, ids_group_cons] at hids
    obtain ⟨hid, hboth⟩ := List.cons.inj hids
    obtain ⟨hinner, houter⟩ := List.append_inj hboth hchildren.length_ids
    have hline : Outline.Entry.line ⟨depth, first, .group id logic negated children⟩ =
        Outline.Entry.line ⟨depth, first, .group otherId otherLogic negated otherChildren⟩ :=
      Outline.line_congr depth hlogic hid rfl
    rw [Outline.entries_group_cons, Outline.entries_group_cons, List.map_cons, List.map_cons,
      List.map_append, List.map_append, hline, ihchildren hinner, ihtail houter]

/-- An outline has one line for each node as a walk meets them, with two blanks more on each level, and two
forests have one outline exactly when they agree and their nodes have the same numbers. -/
theorem outline_faithful (left right : Forest) (indent : Nat) :
    (outline left indent = (entries indent true left).map Outline.Entry.line ∧
      (entries indent true left).map (·.node) = walk left ∧
      (outline left indent).map Outline.margin = (entries indent true left).map (2 * ·.depth)) ∧
    (outline left indent = outline right indent ↔ Agree true left right ∧ ids left = ids right) := by
  have hlines : ∀ forest : Forest,
      outline forest indent = (entries indent true forest).map Outline.Entry.line :=
    fun forest => Outline.siblings_eq_map_line indent true forest
  refine ⟨⟨hlines left, Outline.map_node_entries indent true left, ?_⟩, ?_⟩
  · rw [hlines, List.map_map]
    refine List.map_congr_left fun entry _ => ?_
    rw [Function.comp_apply, Outline.margin_line]
  · rw [hlines, hlines]
    constructor
    · intro heq
      have hends : Outline.EndsLevel indent [] := nofun
      obtain ⟨hagree, hids, _⟩ := Outline.agree_of_lines_eq left right hends hends (by simpa using heq)
      exact ⟨hagree, hids⟩
    · rintro ⟨hagree, hids⟩
      exact hagree.map_line_eq hids indent

end Forest

end DisplayFilter
