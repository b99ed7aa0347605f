import DisplayFilter.Description.Phrasebook
import DisplayFilter.Proofs.Expression.Canonical
import DisplayFilter.Proofs.Filter.Walk
/-!
# One expression, one filter

Forests with one canonical expression agree in all that the expression is about (`text_eq_iff_agree`), also
where reading the expression back would lose a line feed. So the expression is taken apart as a text here and
not through its tokens: a field or value ends with its closing quote or at the first character that cannot
stand outside quotes, and what stands behind a node is nothing, a closing parenthesis or a combinator
between blanks. Each part of an expression is thus cut off in one way only, whatever follows it.
-/

namespace DisplayFilter

open Token

/-- Two runs of siblings are the same but for numbers, values no operator asks for, and the combinators of
first siblings, which `first` says of the two in front. -/
inductive Forest.Agree : Bool → Forest → Forest → Prop where
  | nil (first : Bool) : Agree first [] []
  | condition {first : Bool} {id otherId : Int} {logic otherLogic : Logic} {field : String}
      {operator : Operator} {value otherValue : String} {rest other : Forest}
      (hlogic : first = false → logic = otherLogic)
      (hvalue : operator.takesValue = true → value = otherValue) (hrest : Agree false rest other) :
      Agree first (.condition id logic field operator value :: rest)
        (.condition otherId otherLogic field operator otherValue :: other)
  | group {first : Bool} {id otherId : Int} {logic otherLogic : Logic} {negated : Bool}
      {children otherChildren rest other : Forest} (hlogic : first = false → logic = otherLogic)
      (hchildren : Agree true children otherChildren) (hrest : Agree false rest other) :
      Agree first (.group id logic negated children :: rest)
        (.group otherId otherLogic negated otherChildren :: other)

namespace Printer

/-! ### Fields and values -/

/-- Characters that stand outside quotes in a field or a value: those of a word, and a line feed. -/
def isBareChar (c : Char) : Bool :=
  isWordChar c || c == '\n'

/-- How a field or a value can be written. -/
inductive Written (text : List Char) : List Char → Prop where
  | bare (hne : text ≠ []) (hbare : ∀ c ∈ text, isBareChar c = true) : Written text text
  | quoted : Written text (quote text)

/-- No bare field or value goes on into this rest. -/
def Closed (rest : List Char) : Prop :=
  ∀ c, rest.head? = some c → isBareChar c = false

theorem isBareChar_of_dropFinalNewline {text : List Char}
    (hword : ∀ c ∈ dropFinalNewline text, isWordChar c = true) : ∀ c ∈ text, isBareChar c = true := by
  intro c hc
  rcases dropFinalNewline_eq text with hsame | hline
  · rw [hsame] at hword
    simp [isBareChar, hword c hc]
  · rw [hline, List.mem_append, List.mem_singleton] at hc
    rcases hc with hc | rfl
    · simp [isBareChar, hword c hc]
    · rfl

theorem written_field (text : List Char) : Written text (field text) := by
  unfold field
  split
  · rename_i hbare
    obtain ⟨hne, hchars, _⟩ := isBareField_iff.1 hbare
    refine .bare ?_ (isBareChar_of_dropFinalNewline fun c hc => isWordChar_of_isFieldChar (hchars c hc))
    rintro rfl
    exact hne rfl
  · exact .quoted

theorem written_value (text : List Char) : Written text (value text) := by
  unfold value
  split
  · rename_i hbare
    refine .bare ?_ (isBareChar_of_dropFinalNewline (isWordChar_of_isNumber hbare))
    rintro rfl
    cases hbare
  · exact .quoted

/-- Two texts of one class of characters, with nothing of the class right behind them, are cut off alike. -/
theorem eq_of_append_eq_of_class {inside : Char → Bool} {left right rest more : List Char}
    (hleft : ∀ c ∈ left, inside c = true) (hright : ∀ c ∈ right, inside c = true)
    (hrest : ∀ c, rest.head? = some c → inside c = false)
    (hmore : ∀ c, more.head? = some c → inside c = false) (heq : left ++ rest = right ++ more) :
    left = right ∧ rest = more := by
  have htake : ∀ {text tail : List Char}, (∀ c ∈ text, inside c = true) →
      (∀ c, tail.head? = some c → inside c = false) → (text ++ tail).takeWhile inside = text := by
    intro text tail htext htail
    rw [List.takeWhile_append_of_pos htext]
    cases tail with
    | nil => simp
    | cons c tail => simp [htail c rfl]
  have hsame := congrArg (List.takeWhile inside) heq
  rw [htake hleft hrest, htake hright hmore] at hsame
  subst hsame
  exact ⟨rfl, List.append_cancel_left heq⟩

/-- A field or a value is cut off from what follows in one way only. -/
theorem Written.eq_of_append_eq {left right shown other rest more : List Char}
    (hleft : Written left shown) (hright : Written right other) (hrest : Closed rest)
    (hmore : Closed more) (heq : shown ++ rest = other ++ more) : left = right ∧ rest = more := by
  have hmixed : ∀ {text : List Char}, text ≠ [] → (∀ c ∈ text, isBareChar c = true) →
      ∀ quoted rest more : List Char, text ++ rest ≠ quote quoted ++ more := by
    intro text hne hbare quoted rest more heq
    cases text with
    | nil => exact hne rfl
    | cons c text =>
      obtain ⟨rfl, _⟩ := List.cons.inj heq
      exact absurd (hbare _ List.mem_cons_self) (by decide)
  cases hleft with
  | bare hne hbare =>
    cases hright with
    | bare _ hother => exact eq_of_append_eq_of_class hbare hother hrest hmore heq
    | quoted => exact absurd heq (hmixed hne hbare _ _ _)
  | quoted =>
    cases hright with
    | bare hne hbare => exact absurd heq.symm (hmixed hne hbare _ _ _)
    | quoted =>
      have hshape : ∀ text rest : List Char,
          quote text ++ rest = '"' :: (text.flatMap escapeChar ++ '"' :: rest) := by
        intro text rest
        simp [quote]
      rw [hshape, hshape] at heq
      have hcut := congrArg cutString (List.cons.inj heq).2
      rw [cutString_escaped, cutString_escaped, Prod.mk.injEq] at hcut
      have hescaped := congrArg unescape (List.append_cancel_right hcut.1)
      rw [unescape_escaped, unescape_escaped] at hescaped
      exact ⟨hescaped, hcut.2⟩

/-- A field begins with none of the characters that have a meaning of their own, but a quote. -/
theorem head?_field_append_ne (name : List Char) {c : Char} (hspecial : isBareChar c = false)
    (hquote : c ≠ '"') (rest : List Char) : (field name ++ rest).head? ≠ some c := by
  have hwritten := written_field name
  generalize field name = shown at hwritten
  cases hwritten with
  | bare hne hbare =>
    cases name with
    | nil => exact absurd rfl hne
    | cons first name =>
      rintro ⟨⟩
      rw [hbare c List.mem_cons_self] at hspecial
      cases hspecial
  | quoted =>
    rintro ⟨⟩
    exact hquote rfl

theorem field_append_ne_nil (name rest : List Char) : field name ++ rest ≠ [] := by
  have hwritten := written_field name
  generalize field name = shown at hwritten
  cases hwritten with
  | bare hne _ => simp [hne]
  | quoted => simp [quote]

/-! ### Conditions -/

/-- What can stand behind a run of siblings. -/
def EndsSiblings (rest : List Char) : Prop :=
  rest = [] ∨ ∃ more, rest = ')' :: more

/-- What can stand behind a node. -/
def EndsNode (rest : List Char) : Prop :=
  EndsSiblings rest ∨ ∃ logic more, rest = connective logic ++ more

theorem endsNode_siblings (forest : Forest) {rest : List Char} (hrest : EndsSiblings rest) :
    EndsNode (siblings false forest ++ rest) := by
  cases forest with
  | nil => exact .inl (by simpa [siblings] using hrest)
  | cons node forest =>
    refine .inr ⟨node.logic, node.text.toList ++ siblings false forest ++ rest, ?_⟩
    simp [siblings, Node.text]

theorem closed_of_endsNode {rest : List Char} (hrest : EndsNode rest) : Closed rest := by
  intro c hc
  rcases hrest with (rfl | ⟨more, rfl⟩) | ⟨logic, more, rfl⟩ <;> cases hc <;> rfl

/-- What stands before the first separator is cut off in one way only. -/
theorem eq_of_append_separator_eq {separator : Char} {left right rest more : List Char}
    (hleft : separator ∉ left) (hright : separator ∉ right)
    (heq : left ++ separator :: rest = right ++ separator :: more) : left = right ∧ rest = more := by
  have hinside : ∀ {text : List Char}, separator ∉ text → ∀ c ∈ text, (c != separator) = true := by
    intro text hnot c hc
    refine bne_iff_ne.2 ?_
    rintro rfl
    exact hnot hc
  have hbehind : ∀ (tail : List Char) (c : Char), (separator :: tail).head? = some c →
      (c != separator) = false := by
    rintro tail c ⟨⟩
    simp
  obtain ⟨hsame, hrest⟩ := eq_of_append_eq_of_class (hinside hleft) (hinside hright) (hbehind rest)
    (hbehind more) heq
  exact ⟨hsame, (List.cons.inj hrest).2⟩

/-- A word between blanks is cut off in one way only. -/
theorem spaced_inj {word other : String} (hword : ' ' ∉ word.toList) (hother : ' ' ∉ other.toList)
    {rest more : List Char}
    (heq : ' ' :: word.toList ++ ' ' :: rest = ' ' :: other.toList ++ ' ' :: more) :
    word = other ∧ rest = more := by
  obtain ⟨hsame, hrest⟩ := eq_of_append_separator_eq hword hother (List.cons.inj heq).2
  exact ⟨String.toList_injective hsame, hrest⟩

theorem blank_not_mem_logic (logic : Logic) : ' ' ∉ logic.symbol.toList := by
  cases logic <;> decide

theorem blank_not_mem_operator (operator : Operator) : ' ' ∉ operator.symbol.toList := by
  cases operator <;> decide

theorem connective_append (logic : Logic) (rest : List Char) :
    connective logic ++ rest = ' ' :: logic.symbol.toList ++ ' ' :: rest := by
  simp [connective]

/-- What a condition has behind its field. -/
def comparison (operator : Operator) (text : String) : List Char :=
  if operator.takesValue then ' ' :: operator.symbol.toList ++ ' ' :: value text.toList else []

theorem condition_eq (name : String) (operator : Operator) (text : String) :
    condition name operator text =
      (if operator = .negatedExists then ['!'] else []) ++
        (field name.toList ++ comparison operator text) := by
  have hcomparison : operator.takesValue = true →
      field name.toList ++ ' ' :: operator.symbol.toList ++ ' ' :: value text.toList =
        field name.toList ++ comparison operator text := by
    intro htakes
    rw [comparison, if_pos htakes, List.append_assoc]
  cases operator with
  | «exists» => exact (List.append_nil _).symm
  | negatedExists => exact congrArg ('!' :: ·) (List.append_nil _).symm
  | _ => exact hcomparison rfl

theorem symbol_ne (operator : Operator) (logic : Logic) : operator.symbol ≠ logic.symbol := by
  cases operator <;> cases logic <;> decide

theorem closed_comparison (operator : Operator) (text : String) {rest : List Char}
    (hrest : EndsNode rest) : Closed (comparison operator text ++ rest) := by
  unfold comparison
  split
  · rintro c ⟨⟩
    rfl
  · exact closed_of_endsNode hrest

/-- No combinator passes for a comparison. -/
theorem not_endsNode_comparison {operator : Operator} (htakes : operator.takesValue = true)
    (text : String) (rest : List Char) : ¬ EndsNode (comparison operator text ++ rest) := by
  rw [comparison, if_pos htakes]
  rintro ((hnil | ⟨more, hparen⟩) | ⟨logic, more, hlogic⟩)
  · cases hnil
  · cases hparen
  · rw [connective_append, List.append_assoc, List.cons_append] at hlogic
    exact symbol_ne operator logic
      (spaced_inj (blank_not_mem_operator operator) (blank_not_mem_logic logic) hlogic).1

theorem comparison_inj {operator other : Operator} {text otherText : String} {rest more : List Char}
    (hrest : EndsNode rest) (hmore : EndsNode more)
    (heq : comparison operator text ++ rest = comparison other otherText ++ more) :
    operator.takesValue = other.takesValue ∧
      (operator.takesValue = true → operator = other ∧ text = otherText) ∧ rest = more := by
  cases htakes : operator.takesValue with
  | false =>
    cases hother : other.takesValue with
    | false => simpa [comparison, htakes, hother] using heq
    | true =>
      have hplain : comparison operator text ++ rest = rest := by simp [comparison, htakes]
      rw [← hplain, heq] at hrest
      exact absurd hrest (not_endsNode_comparison hother _ _)
  | true =>
    cases hother : other.takesValue with
    | false =>
      have hplain : comparison other otherText ++ more = more := by simp [comparison, hother]
      rw [← hplain, ← heq] at hmore
      exact absurd hmore (not_endsNode_comparison htakes _ _)
    | true =>
      rw [comparison, comparison, if_pos htakes, if_pos hother, List.append_assoc, List.append_assoc,
        List.cons_append, List.cons_append] at heq
      obtain ⟨hsymbol, hvalue⟩ :=
        spaced_inj (blank_not_mem_operator operator) (blank_not_mem_operator other) heq
      obtain ⟨htext, hbehind⟩ := (written_value text.toList).eq_of_append_eq
        (written_value otherText.toList) (closed_of_endsNode hrest) (closed_of_endsNode hmore) hvalue
      exact ⟨rfl, fun _ => ⟨Operator.symbol_inj hsymbol, String.toList_injective htext⟩, hbehind⟩

theorem eq_exists_of_not_takesValue {operator : Operator} (htakes : operator.takesValue = false)
    (hne : operator ≠ .negatedExists) : operator = .exists := by
  cases operator with
  | «exists» => rfl
  | negatedExists => exact absurd rfl hne
  | _ => cases htakes

theorem condition_inj {name otherName : String} {operator other : Operator} {text otherText : String}
    {rest more : List Char} (hrest : EndsNode rest) (hmore : EndsNode more)
    (heq : condition name operator text ++ rest = condition otherName other otherText ++ more) :
    name = otherName ∧ operator = other ∧ (operator.takesValue = true → text = otherText) ∧
      rest = more := by
  have hcut : (field name.toList ++ (comparison operator text ++ rest) =
      field otherName.toList ++ (comparison other otherText ++ more)) →
      name = otherName ∧ operator.takesValue = other.takesValue ∧
        (operator.takesValue = true → operator = other ∧ text = otherText) ∧ rest = more := by
    intro heq
    obtain ⟨hname, hbehind⟩ := (written_field name.toList).eq_of_append_eq
      (written_field otherName.toList) (closed_comparison operator text hrest)
      (closed_comparison other otherText hmore) heq
    exact ⟨String.toList_injective hname, comparison_inj hrest hmore hbehind⟩
  have hmark : ∀ name rest : List Char, (field name ++ rest).head? ≠ some '!' :=
    fun name rest => head?_field_append_ne name (by decide) (by decide) rest
  rw [condition_eq, condition_eq] at heq
  simp only [List.append_assoc] at heq
  by_cases habsent : operator = .negatedExists
  · by_cases hother : other = .negatedExists
    · rw [if_pos habsent, if_pos hother] at heq
      obtain ⟨hname, _, _, hbehind⟩ := hcut (List.append_cancel_left heq)
      subst habsent hother
      exact ⟨hname, rfl, (fun htakes => by cases htakes), hbehind⟩
    · rw [if_pos habsent, if_neg hother] at heq
      exact absurd (congrArg List.head? heq).symm (hmark _ _)
  · by_cases hother : other = .negatedExists
    · rw [if_neg habsent, if_pos hother] at heq
      exact absurd (congrArg List.head? heq) (hmark _ _)
    · rw [if_neg habsent, if_neg hother] at heq
      obtain ⟨hname, htakes, hsame, hbehind⟩ := hcut heq
      have hoperator : operator = other := by
        cases hvalue : operator.takesValue with
        | true => exact (hsame hvalue).1
        | false =>
          rw [eq_exists_of_not_takesValue hvalue habsent,
            eq_exists_of_not_takesValue (htakes ▸ hvalue) hother]
      exact ⟨hname, hoperator, fun hvalue => (hsame hvalue).2, hbehind⟩

/-! ### Nodes and siblings -/

theorem connective_inj {first : Bool} {logic other : Logic} {rest more : List Char}
    (heq : (if first then [] else connective logic) ++ rest =
      (if first then [] else connective other) ++ more) :
    (first = false → logic = other) ∧ rest = more := by
  cases first with
  | true => exact ⟨(fun hfirst => by cases hfirst), heq⟩
  | false =>
    simp only [Bool.false_eq_true, if_false, connective_append] at heq
    obtain ⟨hsymbol, hrest⟩ := spaced_inj (blank_not_mem_logic logic) (blank_not_mem_logic other) heq
    exact ⟨fun _ => Logic.symbol_inj hsymbol, hrest⟩

/-- What a node has in front of its children or its field. -/
theorem not_endsSiblings_node (node : Node) (rest : List Char) :
    ¬ EndsSiblings (Printer.node node ++ rest) := by
  have hfield : ∀ name rest : List Char, ¬ EndsSiblings (field name ++ rest) := by
    rintro name rest (hnil | ⟨more, hparen⟩)
    · exact field_append_ne_nil name rest hnil
    · exact head?_field_append_ne name (by decide) (by decide) rest (congrArg List.head? hparen)
  have hmark : ∀ (c : Char) (rest : List Char), c ≠ ')' → ¬ EndsSiblings (c :: rest) := by
    rintro c rest hne (hnil | ⟨more, hparen⟩)
    · cases hnil
    · exact hne (List.cons.inj hparen).1
  cases node with
  | condition id logic name operator text =>
    rw [Printer.node, condition_eq]
    split
    · exact hmark '!' _ (by decide)
    · rw [List.nil_append, List.append_assoc]
      exact hfield _ _
  | group id logic negated children =>
    rw [Printer.node]
    cases negated with
    | true => exact hmark '!' _ (by decide)
    | false => exact hmark '(' _ (by decide)

theorem condition_ne_group (name : String) (operator : Operator) (text : String) (negated : Bool)
    (rest more : List Char) :
    condition name operator text ++ rest ≠ (if negated then ['!'] else []) ++ '(' :: more := by
  have hfield : ∀ {name rest more : List Char} {c : Char}, isBareChar c = false → c ≠ '"' →
      field name ++ rest ≠ c :: more := by
    intro name rest more c hspecial hquote heq
    exact head?_field_append_ne name hspecial hquote rest (congrArg List.head? heq)
  intro heq
  rw [condition_eq, List.append_assoc, List.append_assoc] at heq
  split at heq
  · cases negated with
    | true => exact hfield (by decide) (by decide) (List.cons.inj heq).2
    | false => cases (List.cons.inj heq).1
  · cases negated with
    | true => exact hfield (by decide) (by decide) heq
    | false => exact hfield (by decide) (by decide) heq

theorem mark_inj {negated other : Bool} {rest more : List Char}
    (heq : (if negated then ['!'] else []) ++ '(' :: rest =
      (if other then ['!'] else []) ++ '(' :: more) : negated = other ∧ rest = more := by
  cases negated <;> cases other <;> simp_all

/-- A run of siblings begins with a combinator or a node, where an empty one has ended. -/
theorem siblings_cons_append_ne (first : Bool) (node : Node) (tail : Forest) (rest : List Char)
    {more : List Char} (hmore : EndsSiblings more) :
    siblings first (node :: tail) ++ rest ≠ siblings first [] ++ more := by
  rintro heq
  have hnil : siblings first [] ++ more = more := by simp [siblings]
  rw [← hnil, ← heq] at hmore
  simp only [siblings, List.append_assoc] at hmore
  cases first with
  | true => exact not_endsSiblings_node node _ hmore
  | false =>
    rcases hmore with hnil | ⟨more, hparen⟩
    · cases hnil
    · cases hparen

/-- A run of siblings is cut off in one way only, and runs of one text agree. -/
theorem agree_of_siblings_eq (left right : Forest) (first : Bool) {rest more : List Char}
    (hrest : EndsSiblings rest) (hmore : EndsSiblings more)
    (heq : siblings first left ++ rest = siblings first right ++ more) :
    Forest.Agree first left right ∧ rest = more := by
  induction left using Forest.induction generalizing right first rest more with
  | nil =>
    cases right with
    | nil => exact ⟨.nil first, by simpa [siblings] using heq⟩
    | cons node tail => exact absurd heq.symm (siblings_cons_append_ne first node tail more hrest)
  | condition id logic name operator text tail ih =>
    cases right with
    | nil => exact absurd heq (siblings_cons_append_ne first _ tail rest hmore)
    | cons node otherTail =>
      cases node with
      | condition otherId otherLogic otherName other otherText =>
        simp only [siblings, List.append_assoc, Node.logic] at heq
        obtain ⟨hlogic, hnode⟩ := connective_inj heq
        obtain ⟨rfl, rfl, hvalue, hbehind⟩ := condition_inj (endsNode_siblings tail hrest)
          (endsNode_siblings otherTail hmore) hnode
        obtain ⟨htail, hend⟩ := ih otherTail false hrest hmore hbehind
        exact ⟨.condition hlogic hvalue htail, hend⟩
      | group otherId otherLogic negated children =>
        simp only [siblings, Printer.node, List.append_assoc, Node.logic] at heq
        exact absurd (connective_inj heq).2 (condition_ne_group _ _ _ _ _ _)
  | group id logic negated children tail ihchildren ihtail =>
    cases right with
    | nil => exact absurd heq (siblings_cons_append_ne first _ tail rest hmore)
    | cons node otherTail =>
      cases node with
      | condition otherId otherLogic otherName other otherText =>
        simp only [siblings, Printer.node, List.append_assoc, Node.logic] at heq
        exact absurd (connective_inj heq).2.symm (condition_ne_group _ _ _ _ _ _)
      | group otherId otherLogic otherNegated otherChildren =>
        simp only [siblings, Printer.node, List.append_assoc, List.cons_append, Node.logic] at heq
        obtain ⟨hlogic, hnode⟩ := connective_inj heq
        obtain ⟨rfl, hinside⟩ := mark_inj hnode
        obtain ⟨hchildren, hbehind⟩ :=
          ihchildren otherChildren true (.inr ⟨_, rfl⟩) (.inr ⟨_, rfl⟩) hinside
        obtain ⟨htail, hend⟩ := ihtail otherTail false hrest hmore (List.cons.inj hbehind).2
        exact ⟨.group hlogic hchildren htail, hend⟩

end Printer

/-! ### Forests that agree -/

namespace Forest

variable {first : Bool} {left right : Forest}

theorem Agree.siblings_eq (hagree : Agree first left right) :
    Printer.siblings first left = Printer.siblings first right := by
  induction hagree with
  | nil first => rfl
  | @condition first _ _ _ _ field operator value otherValue _ _ hlogic hvalue _ ih =>
    have hcondition : Printer.condition field operator value =
        Printer.condition field operator otherValue := by
      cases operator with
      | «exists» | negatedExists => rfl
      | _ => rw [hvalue rfl]
    cases first with
    | true => simp [Printer.siblings, Printer.node, hcondition, ih]
    | false => simp [Printer.siblings, Printer.node, Node.logic, hcondition, ih, hlogic rfl]
  | @group first _ _ _ _ _ _ _ _ _ hlogic _ _ ihchildren ihtail =>
    cases first with
    | true => simp [Printer.siblings, Printer.node, ihchildren, ihtail]
    | false => simp [Printer.siblings, Printer.node, Node.logic, ihchildren, ihtail, hlogic rfl]

theorem Agree.describe_eq (phrasebook : Phrasebook) (hagree : Agree first left right) :
    phrasebook.siblings first left = phrasebook.siblings first right := by
  induction hagree with
  | nil first => rfl
  | @condition first _ _ _ _ field operator value otherValue _ _ hlogic hvalue _ ih =>
    have hcondition : phrasebook.condition field operator value =
        phrasebook.condition field operator otherValue := by
      cases operator with
      | «exists» | negatedExists => rfl
      | _ => rw [hvalue rfl]
    cases first with
    | true => simp [Phrasebook.siblings, Phrasebook.node, hcondition, ih]
    | false => simp [Phrasebook.siblings, Phrasebook.node, Node.logic, hcondition, ih, hlogic rfl]
  | @group first _ _ _ _ _ _ _ _ _ hlogic _ _ ihchildren ihtail =>
    cases first with
    | true => simp [Phrasebook.siblings, Phrasebook.node, ihchildren, ihtail]
    | false => simp [Phrasebook.siblings, Phrasebook.node, Node.logic, ihchildren, ihtail, hlogic rfl]

theorem agree_of_text_eq (heq : text left = text right) : Agree true left right := by
  refine (Printer.agree_of_siblings_eq left right true (.inl rfl) (.inl rfl) ?_).1
  rw [List.append_nil, List.append_nil]
  exact String.ofList_injective heq

end Forest

/-- Two forests have one canonical expression exactly when they agree, whatever fields and values end with,
and then they have one description in every phrasebook. -/
theorem text_eq_iff_agree (left right : Forest) :
    (Forest.text left = Forest.text right ↔ Forest.Agree true left right) ∧
      (Forest.text left = Forest.text right →
        ∀ phrasebook : Phrasebook, phrasebook.describe left = phrasebook.describe right) := by
  refine ⟨⟨Forest.agree_of_text_eq, fun hagree => congrArg String.ofList hagree.siblings_eq⟩, ?_⟩
  intro heq phrasebook
  exact (Forest.agree_of_text_eq heq).describe_eq phrasebook

/-- The line feed of a keyword, which no reading keeps, still counts; numbers, first combinators and the
value of a test of presence do not. -/
theorem text_eq_iff_agree_keyword :
    let left : Forest := [.group 1 .or true [.condition 2 .or "and\n" .exists "7"]]
    let right : Forest := [.group 8 .and true [.presence 5 "and\n"]]
    let other : Forest := [.group 1 .or true [.condition 2 .or "and" .exists "7"]]
    Forest.text left = Forest.text right ∧
      Phrasebook.english.describe left = Phrasebook.english.describe right ∧
      ¬ Forest.Agree true left other := by
  intro left right other
  have hsame : Forest.text left = Forest.text right := by decide
  have hother : Forest.text left ≠ Forest.text other := by decide
  exact ⟨hsame, (text_eq_iff_agree left right).2 hsame Phrasebook.english,
    fun hagree => hother ((text_eq_iff_agree left other).1.2 hagree)⟩

end DisplayFilter
