import DisplayFilter.Proofs.Expression.Descent
import DisplayFilter.Proofs.Expression.LineFeed
/-!
# Reading a canonical expression back

A canonical expression holds all of its forest but the numbers, the combinators of first siblings and the
values of tests of presence. `Forest.normalize` is the forest with these replaced by what a reading puts in
their place. Reading the canonical expression yields exactly that when no line feed is lost, and never
otherwise (`ofText_text_iff`): a lost line feed leaves the reading with fewer of them.
-/

namespace DisplayFilter

open Printer Token

/-! ### The normal form -/

mutual

/-- The node numbered from `id` upwards, with this combinator and no value that is not asked for. -/
def Node.renumber (logic : Logic) (id : Int) : Node → Node
  | .condition _ _ field operator value =>
    .condition id logic field operator (if operator.takesValue then value else "")
  | .group _ _ negated children => .group id logic negated (Forest.renumber true (id + 1) children)

/-- Siblings numbered depth first from `id` upwards; the first of all has *and* before it. -/
def Forest.renumber (first : Bool) (id : Int) : List Node → List Node
  | [] => []
  | node :: rest =>
    node.renumber (if first then .and else node.logic) id ::
      Forest.renumber false (id + node.walk.length) rest

end

/-- What a reading makes of the canonical expression of a forest. -/
def Forest.normalize (forest : Forest) (firstId : Int) : Forest :=
  Forest.renumber true firstId forest

namespace Forest

/-- So many numbers from `id` upwards. -/
def consecutive (id : Int) : Nat → List Int
  | 0 => []
  | count + 1 => id :: consecutive (id + 1) count

@[simp] theorem length_consecutive (id : Int) (count : Nat) :
    (consecutive id count).length = count := by
  induction count generalizing id with
  | zero => rfl
  | succ count ih => rw [consecutive, List.length_cons, ih]

theorem consecutive_add (id : Int) (left right : Nat) :
    consecutive id (left + right) = consecutive id left ++ consecutive (id + left) right := by
  induction left generalizing id with
  | zero => simp [consecutive]
  | succ left ih =>
    have hshift : id + 1 + (left : Int) = id + ((left + 1 : Nat) : Int) := by omega
    rw [Nat.add_right_comm, consecutive, ih, hshift]
    rfl

/-- The nodes of a normal form are numbered depth first, without gaps. -/
theorem ids_renumber (first : Bool) (id : Int) (forest : Forest) :
    ids (renumber first id forest) = consecutive id (walk forest).length := by
  induction forest using Forest.induction generalizing first id with
  | nil => simp [renumber, consecutive]
  | condition _ logic field operator value rest ih =>
    simp [renumber, Node.renumber, ih, consecutive]
  | group _ logic negated children rest ihchildren ihrest =>
    have hbehind : id + (((walk children).length + 1 : Nat) : Int) =
        id + 1 + ((walk children).length : Int) := by
      omega
    simp only [renumber, Node.renumber, ids_group_cons, ihchildren, ihrest, walk_cons,
      Node.walk_group, List.length_append, List.length_cons]
    rw [hbehind, Nat.add_right_comm, consecutive, consecutive_add]

theorem length_walk_renumber (first : Bool) (id : Int) (forest : Forest) :
    (walk (renumber first id forest)).length = (walk forest).length := by
  have hids := congrArg List.length (ids_renumber first id forest)
  simpa [ids] using hids

theorem lineFeeds_renumber (first : Bool) (id : Int) (forest : Forest) :
    lineFeeds (renumber first id forest) = lineFeeds forest := by
  induction forest using Forest.induction generalizing first id with
  | nil => simp [renumber]
  | condition _ logic field operator value rest ih =>
    simp only [renumber, Node.renumber, lineFeeds_condition_cons, ih]
    split <;> simp
  | group _ logic negated children rest ihchildren ihrest =>
    simp [renumber, Node.renumber, ihchildren, ihrest]

/-- Numbers, first combinators and values that are not asked for do not show. -/
theorem siblings_renumber (first : Bool) (id : Int) (forest : Forest) :
    Printer.siblings first (renumber first id forest) = Printer.siblings first forest := by
  induction forest using Forest.induction generalizing first id with
  | nil => simp [renumber]
  | condition _ logic field operator value rest ih =>
    have hcondition : Printer.condition field operator (if operator.takesValue then value else "") =
        Printer.condition field operator value := by
      cases operator <;> rfl
    cases first <;>
      simp [renumber, Node.renumber, Printer.siblings, Printer.node, Node.logic, hcondition, ih]
  | group _ logic negated children rest ihchildren ihrest =>
    cases first <;>
      simp [renumber, Node.renumber, Printer.siblings, Printer.node, Node.logic, ihchildren, ihrest]

theorem text_normalize (forest : Forest) (firstId : Int) :
    text (forest.normalize firstId) = text forest :=
  congrArg String.ofList (siblings_renumber true firstId forest)

end Forest

/-! ### Reading the tokens of siblings -/

namespace Reading.State

theorem endsCondition_siblings (forest : Forest) {tail : List Token} (htail : EndsCondition tail) :
    EndsCondition (siblingTokens false forest ++ tail) := by
  cases forest with
  | nil => simpa [siblingTokens] using htail
  | cons node rest =>
    have hconnective : (connectiveToken node.logic).isWord = false := by
      cases node.logic <;> decide
    simp only [siblingTokens, Bool.false_eq_true, if_false, List.cons_append]
    exact endsCondition_cons hconnective _

variable {outer : List (Int × Level)} {level : Level} {nextId : Int}

/-- Before a first sibling stands nothing and *and* is what is pending. -/
theorem run_connective {first : Bool} (hlogic : first = true → level.logic = .and) (logic : Logic)
    (tokens : List Token) :
    (between outer level nextId).run
        ((if first then [] else [connectiveToken logic]) ++ tokens) =
      (between outer { level with logic := if first then .and else logic } nextId).run tokens := by
  cases first with
  | true =>
    rw [← hlogic rfl]
    rfl
  | false =>
    cases logic with
    | and => exact run_and (by decide) tokens
    | or => exact run_or (by decide) tokens

theorem run_negation (hplain : level.negated = false) (negated : Bool) (tokens : List Token) :
    (between outer level nextId).run ((if negated then [plain ['!']] else []) ++ tokens) =
      (between outer { level with negated := negated } nextId).run tokens := by
  cases negated with
  | true =>
    have hnot : (between outer level nextId).run (plain ['!'] :: tokens) =
        (between outer { level with negated := !level.negated } nextId).run tokens :=
      run_not (by decide) tokens
    rw [hplain] at hnot
    exact hnot
  | false =>
    have hsame : { level with negated := false } = level := by
      rw [← hplain]
    rw [hsame]
    rfl

theorem comparisonAt_tail {tail : List Token} (htail : EndsCondition tail) :
    comparisonAt tail = .ok (none, tail) := by
  cases tail with
  | nil => rfl
  | cons token rest =>
    have hkind : token.kind ≠ .comparison := by
      intro hkind
      simpa [Token.isWord, hkind] using htail token rfl
    rw [comparisonAt, if_neg hkind]

/-- The symbol of a comparison is read as that comparison. -/
theorem operator_symbol {operator : Operator} (htakes : operator.takesValue = true) :
    (plain operator.symbol.toList).kind = .comparison ∧
      (plain operator.symbol.toList).operator? = some operator := by
  cases operator with
  | «exists» | negatedExists => cases htakes
  | _ => decide

theorem comparisonAt_comparison {operator : Operator} (htakes : operator.takesValue = true)
    {value : String} (hkeeps : ¬ IsNumberLine value.toList) (tail : List Token) :
    comparisonAt (plain operator.symbol.toList :: valueToken value :: tail) =
      .ok (some (operator, value), tail) := by
  obtain ⟨hkind, hoperator⟩ := operator_symbol htakes
  obtain ⟨hword, hcontent⟩ := word_valueToken hkeeps
  rw [comparisonAt, if_pos hkind, hoperator]
  simp only [valueAt, hword, if_true, hcontent]

/-- A condition is read up to what cannot continue it. -/
theorem run_condition (hplain : level.negated = false) (id : Int) (logic : Logic) (field : String)
    (operator : Operator) (value : String)
    (hkeeps : ¬ IsWordLine field.toList ∧
      (operator.takesValue = true → ¬ IsNumberLine value.toList))
    {tail : List Token} (htail : EndsCondition tail) :
    (between outer level nextId).run (conditionTokens field operator value ++ tail) =
      (between outer (level.append
        ((Node.condition id logic field operator value).renumber level.logic nextId))
        (nextId + 1)).run tail := by
  obtain ⟨hword, hcontent⟩ := word_fieldToken hkeeps.1
  have hcomparison : operator.takesValue = true →
      (between outer level nextId).run
          (fieldToken field :: plain operator.symbol.toList :: valueToken value :: tail) =
        (between outer (level.append (.condition nextId level.logic field operator value))
          (nextId + 1)).run tail := by
    intro htakes
    rw [run_word hword, comparisonAt_comparison htakes (hkeeps.2 htakes), hcontent, hplain]
    rfl
  cases operator with
  | «exists» =>
    change (between outer level nextId).run (fieldToken field :: tail) = _
    rw [run_word hword, comparisonAt_tail htail, hcontent, hplain]
    rfl
  | negatedExists =>
    change (between outer level nextId).run (plain ['!'] :: fieldToken field :: tail) = _
    rw [run_not (by decide), run_word hword, comparisonAt_tail htail, hcontent, hplain]
    rfl
  | _ => exact hcomparison rfl

mutual

theorem run_node (node : Node) (outer : List (Int × Level)) (level : Level) (nextId : Int)
    {tail : List Token} (hformed : node.wellFormed = true)
    (hkeeps : ∀ other ∈ node.walk, other.KeepsLineFeeds) (hplain : level.negated = false)
    (htail : EndsCondition tail) :
    (between outer level nextId).run (nodeTokens node ++ tail) =
      (between outer (level.append (node.renumber level.logic nextId))
        (nextId + node.walk.length)).run tail := by
  cases node with
  | condition id logic field operator value =>
    have hcondition := hkeeps _ (Node.mem_walk_self _)
    rw [nodeTokens, run_condition hplain id logic field operator value hcondition htail]
    simp
  | group id logic negated children =>
    obtain ⟨hne, hchildren⟩ := (Node.wellFormed_group id logic negated children).1 hformed
    have hkeepsChildren : Forest.KeepsLineFeeds children := by
      intro other hother
      exact hkeeps other (by simp [hother])
    have hclose : EndsCondition (plain [')'] :: tail) := endsCondition_cons (by decide) tail
    obtain ⟨last, hlast⟩ := run_siblings true children
      ((nextId, { level with negated := negated }) :: outer) .empty (nextId + 1) hchildren
      hkeepsChildren rfl (fun _ => rfl) hclose
    simp only [nodeTokens, List.append_assoc, List.cons_append, List.nil_append]
    rw [run_negation hplain, run_leftParen (by decide), hlast, run_rightParen (by decide)]
    have hkids : (Level.empty.nodes ++ Forest.renumber true (nextId + 1) children).isEmpty = false := by
      cases children with
      | nil => exact absurd rfl hne
      | cons child rest => rfl
    have hid : nextId + 1 + ((Forest.walk children).length : Int) =
        nextId + (Node.group id logic negated children).walk.length := by
      rw [Node.walk_group, List.length_cons]
      omega
    rw [Level.appendGroup, hkids, hid]
    rfl

/-- Siblings are read to the end of their level, with the groups around them untouched. -/
theorem run_siblings (first : Bool) (siblings : List Node) (outer : List (Int × Level))
    (level : Level) (nextId : Int) {tail : List Token}
    (hformed : Forest.wellFormed siblings = true) (hkeeps : Forest.KeepsLineFeeds siblings)
    (hplain : level.negated = false) (hlogic : first = true → level.logic = .and)
    (htail : EndsCondition tail) :
    ∃ logic, (between outer level nextId).run (siblingTokens first siblings ++ tail) =
      (between outer ⟨level.nodes ++ Forest.renumber first nextId siblings, logic, false⟩
        (nextId + (Forest.walk siblings).length)).run tail := by
  cases siblings with
  | nil =>
    refine ⟨level.logic, ?_⟩
    rw [← hplain]
    simp [siblingTokens, Forest.renumber]
  | cons node rest =>
    obtain ⟨hnode, hrest⟩ : node.wellFormed = true ∧ Forest.wellFormed rest = true := by
      simpa using hformed
    have hkeepsNode : ∀ other ∈ node.walk, other.KeepsLineFeeds := by
      intro other hother
      exact hkeeps other (by simp [hother])
    have hkeepsRest : Forest.KeepsLineFeeds rest := by
      intro other hother
      exact hkeeps other (by simp [hother])
    let joined : Level := { level with logic := if first then .and else node.logic }
    obtain ⟨last, hlast⟩ := run_siblings false rest outer
      (joined.append (node.renumber joined.logic nextId)) (nextId + node.walk.length) hrest
      hkeepsRest rfl (fun hfirst => by cases hfirst) htail
    refine ⟨last, ?_⟩
    simp only [siblingTokens, List.append_assoc]
    rw [run_connective hlogic]
    have hstep := run_node node outer joined nextId hnode hkeepsNode hplain
      (endsCondition_siblings rest htail)
    rw [hstep, hlast]
    simp [joined, Level.append, Forest.renumber, Int.add_assoc]

end

end Reading.State

namespace Reading

/-- Without a lost line feed a canonical expression is read as the normal form. -/
theorem ofText_text {forest : Forest} (hformed : Forest.wellFormed forest = true)
    (hkeeps : forest.KeepsLineFeeds) (firstId : Int) :
    ofText (Forest.text forest) firstId =
      ⟨forest.normalize firstId, firstId + (Forest.walk forest).length⟩ := by
  have hend : State.EndsCondition [] := by simp [State.EndsCondition]
  obtain ⟨last, hlast⟩ := State.run_siblings true forest [] .empty firstId hformed hkeeps rfl
    (fun _ => rfl) hend
  have hread := ofTokens_scan (Forest.text forest) firstId
  rw [Token.scan_text] at hread
  rw [List.append_nil] at hlast
  change (State.between [] .empty firstId).run (siblingTokens true forest) = _ at hread
  rw [hlast] at hread
  exact (Except.ok.inj hread).symm

end Reading

/-- Reading the canonical expression of a forest of non-empty groups yields its normal form exactly when
no field is a bare word with a line feed behind it, and no value a bare number with one. -/
theorem ofText_text_iff {forest : Forest} (hformed : Forest.wellFormed forest = true)
    (firstId : Int) :
    (Reading.ofText (Forest.text forest) firstId).forest = forest.normalize firstId ↔
      forest.KeepsLineFeeds := by
  constructor
  · intro hsame
    refine (Reading.lineFeeds_ofText_text forest firstId).2 ?_
    rw [hsame]
    exact Forest.lineFeeds_renumber true firstId forest
  · intro hkeeps
    rw [Reading.ofText_text hformed hkeeps]

/-- Blanks and further line feeds keep a field or a value in quotes; a keyword with one line feed behind
it is written bare and comes back as the keyword. -/
theorem ofText_text_iff_nested :
    let kept : Forest := [.group 9 .or true [.condition 3 .or "tcp port\n" .contains "7\n\n"],
      .condition 3 .or "and" .negatedExists "7\n"]
    let lost : Forest := [.presence 1 "tcp", .group 9 .or true [.presence 3 "and\n"]]
    Forest.wellFormed kept = true ∧
      (Reading.ofText (Forest.text kept) 5).forest = kept.normalize 5 ∧
      Forest.wellFormed lost = true ∧
      (Reading.ofText (Forest.text lost) 5).forest ≠ lost.normalize 5 := by
  intro kept lost
  have hkept : Forest.wellFormed kept = true := rfl
  have hlost : Forest.wellFormed lost = true := rfl
  exact ⟨hkept, (ofText_text_iff hkept 5).2 (by decide), hlost,
    (ofText_text_iff hlost 5).not.2 (by decide)⟩

end DisplayFilter
