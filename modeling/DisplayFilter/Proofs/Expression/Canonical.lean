import DisplayFilter.Proofs.Expression.Lexeme
/-!
# The tokens of the canonical expression

The canonical expression of a forest is scanned into the tokens of its fields, operators, values,
combinators, negations and parentheses, in order (`scan_text`). A field or value that is written bare
with a line feed at its end comes back without the line feed; every other one comes back as it was.
-/

namespace DisplayFilter

namespace Printer

open Token

/-! ### Bare texts -/

theorem dropFinalNewline_eq (text : List Char) :
    dropFinalNewline text = text ∨ text = dropFinalNewline text ++ ['\n'] := by
  unfold dropFinalNewline
  split
  · rename_i hlast
    refine .inr ?_
    obtain ⟨init, rfl⟩ := List.getLast?_eq_some_iff.1 hlast
    simp
  · exact .inl rfl

theorem dropFinalNewline_append_newline (word : List Char) :
    dropFinalNewline (word ++ ['\n']) = word := by
  simp [dropFinalNewline]

/-- One line feed between a bare text and the rest is blank. -/
theorem scanChars_bare {text rest : List Char} (hne : dropFinalNewline text ≠ [])
    (hword : ∀ c ∈ dropFinalNewline text, isWordChar c = true) (hrest : Delimited rest) :
    scanChars (text ++ rest) = plain (dropFinalNewline text) :: scanChars rest := by
  rcases dropFinalNewline_eq text with hsame | hline
  · have hscan := scanChars_word hne hword hrest
    rwa [hsame] at hscan ⊢
  · have hscan : scanChars (dropFinalNewline text ++ '\n' :: rest) =
        plain (dropFinalNewline text) :: scanChars ('\n' :: rest) :=
      scanChars_word hne hword (delimited_cons rfl)
    rw [scanChars_blank (c := '\n') rfl] at hscan
    rw [← hscan]
    exact congrArg scanChars ((congrArg (· ++ rest) hline).trans (by simp))

theorem isWordChar_of_isFieldChar {c : Char} (hfield : isFieldChar c = true) :
    isWordChar c = true := by
  simp only [isFieldChar, Bool.and_eq_true] at hfield
  exact hfield.1

theorem isWordChar_of_isHexDigit {c : Char} (hdigit : isHexDigit c = true) :
    isWordChar c = true := by
  have hrange : (48 ≤ c.toNat ∧ c.toNat ≤ 57) ∨ (97 ≤ c.toNat ∧ c.toNat ≤ 102) ∨
      (65 ≤ c.toNat ∧ c.toNat ≤ 70) := by
    simpa [isHexDigit, Char.isDigit, Char.le_def, UInt32.le_iff_toNat_le, or_assoc] using hdigit
  refine isWordChar_of_isAlphanum ?_
  delta Char.isAlphanum Char.isAlpha Char.isUpper Char.isLower Char.isDigit
  simp [UInt32.le_iff_toNat_le]
  omega

/-- The characters of a number are those of a word. -/
theorem isWordChar_of_isNumber {digits : List Char} (hnumber : isNumber digits = true) :
    ∀ c ∈ digits, isWordChar c = true := by
  unfold isNumber at hnumber
  intro c hc
  split at hnumber
  · rcases List.mem_cons.1 hc with rfl | hc
    · rfl
    · rcases List.mem_cons.1 hc with rfl | hc
      · rfl
      · exact isWordChar_of_isHexDigit (List.all_eq_true.1 hnumber c hc)
  · rcases List.mem_cons.1 hc with rfl | hc
    · rfl
    · rcases List.mem_cons.1 hc with rfl | hc
      · rfl
      · exact isWordChar_of_isHexDigit (List.all_eq_true.1 hnumber c hc)
  · cases hnumber
  · have hc := List.all_eq_true.1 hnumber c hc
    simp only [Bool.or_eq_true, beq_iff_eq] at hc
    rcases hc with hdigit | rfl
    · exact isWordChar_of_isHexDigit (by simp [isHexDigit, hdigit])
    · rfl

/-- A number begins with a digit or a dot. -/
theorem exists_head_of_isNumber {digits : List Char} (hnumber : isNumber digits = true) :
    ∃ c rest, digits = c :: rest ∧ (c.isDigit = true ∨ c = '.') := by
  unfold isNumber at hnumber
  split at hnumber
  · exact ⟨_, _, rfl, .inl rfl⟩
  · exact ⟨_, _, rfl, .inl rfl⟩
  · cases hnumber
  · rename_i hne
    cases digits with
    | nil => exact absurd rfl hne
    | cons c rest =>
      simp only [List.all_cons, Bool.and_eq_true, Bool.or_eq_true, beq_iff_eq] at hnumber
      exact ⟨c, rest, rfl, hnumber.1⟩

theorem isBareField_iff {text : List Char} :
    isBareField text = true ↔ dropFinalNewline text ≠ [] ∧
      (∀ c ∈ dropFinalNewline text, isFieldChar c = true) ∧
        isReserved (Text.lower (String.ofList text)) = false := by
  simp [isBareField, and_assoc]

/-! ### Fields and values -/

/-- The token of a field. -/
def fieldToken (name : String) : Token :=
  if isBareField name.toList then plain (dropFinalNewline name.toList)
  else ofLiteral (quote name.toList)

/-- The token of a value. -/
def valueToken (text : String) : Token :=
  if isBareValue text.toList then plain (dropFinalNewline text.toList)
  else ofLiteral (quote text.toList)

theorem scanChars_field (name : String) {rest : List Char} (hrest : Delimited rest) :
    scanChars (field name.toList ++ rest) = fieldToken name :: scanChars rest := by
  unfold field fieldToken
  split
  · rename_i hbare
    obtain ⟨hne, hchars, _⟩ := isBareField_iff.1 hbare
    exact scanChars_bare hne (fun c hc => isWordChar_of_isFieldChar (hchars c hc)) hrest
  · exact scanChars_quote _ _

theorem scanChars_value (text : String) {rest : List Char} (hrest : Delimited rest) :
    scanChars (value text.toList ++ rest) = valueToken text :: scanChars rest := by
  unfold value valueToken
  split
  · rename_i hbare
    refine scanChars_bare ?_ (isWordChar_of_isNumber hbare) hrest
    obtain ⟨c, digits, hcons, _⟩ := exists_head_of_isNumber hbare
    simp [hcons]
  · exact scanChars_quote _ _

/-- No field begins with an equals sign, so a negation before it stays a negation. -/
theorem head?_field_ne (name rest : List Char) : (field name ++ rest).head? ≠ some '=' := by
  unfold field
  split
  · rename_i hbare
    obtain ⟨hne, hchars, _⟩ := isBareField_iff.1 hbare
    cases name with
    | nil => exact absurd rfl hne
    | cons c name =>
      simp only [List.cons_append, List.head?_cons, ne_eq, Option.some.injEq]
      rintro rfl
      rcases dropFinalNewline_eq ('=' :: name) with hsame | hline
      · rw [hsame] at hchars
        exact absurd (hchars '=' List.mem_cons_self) (by decide)
      · cases hword : dropFinalNewline ('=' :: name) with
        | nil => exact hne hword
        | cons d word =>
          rw [hword, List.cons_append] at hline
          obtain ⟨rfl, _⟩ := List.cons.inj hline
          exact absurd (hchars '=' (by rw [hword]; exact List.mem_cons_self)) (by decide)
  · simp [quote]

/-! ### Nodes and siblings -/

/-- The tokens of a condition. -/
def conditionTokens (name : String) (operator : Operator) (text : String) : List Token :=
  match operator with
  | .exists => [fieldToken name]
  | .negatedExists => [plain ['!'], fieldToken name]
  | _ => [fieldToken name, plain operator.symbol.toList, valueToken text]

/-- The token of a combinator. -/
def connectiveToken (logic : Logic) : Token :=
  plain logic.symbol.toList

mutual

/-- The tokens of a node, without the combinator before it. -/
def nodeTokens : Node → List Token
  | .condition _ _ name operator text => conditionTokens name operator text
  | .group _ _ negated children =>
    (if negated then [plain ['!']] else []) ++ plain ['('] :: siblingTokens true children ++
      [plain [')']]

/-- The tokens of siblings in order. -/
def siblingTokens (first : Bool) : List Node → List Token
  | [] => []
  | sibling :: rest =>
    (if first then [] else [connectiveToken sibling.logic]) ++ nodeTokens sibling ++
      siblingTokens false rest

end

theorem scanChars_condition (name : String) (operator : Operator) (text : String)
    {rest : List Char} (hrest : Delimited rest) :
    scanChars (condition name operator text ++ rest) =
      conditionTokens name operator text ++ scanChars rest := by
  have hcomparison : operator.takesValue = true →
      scanChars ((field name.toList ++ ' ' :: operator.symbol.toList ++
        ' ' :: value text.toList) ++ rest) =
      [fieldToken name, plain operator.symbol.toList, valueToken text] ++ scanChars rest := by
    intro htakes
    have hspace : Text.isBlank ' ' = true := rfl
    simp only [List.append_assoc, List.cons_append]
    rw [scanChars_field name (delimited_cons rfl), scanChars_blank hspace,
      scanChars_operator htakes, scanChars_value text hrest]
    rfl
  cases operator with
  | «exists» => exact scanChars_field name hrest
  | negatedExists =>
    change scanChars ('!' :: (field name.toList ++ rest)) = _
    rw [scanChars_not (head?_field_ne _ _), scanChars_field name hrest]
    rfl
  | _ => exact hcomparison rfl

theorem delimited_siblings (siblings : List Node) {rest : List Char} (hrest : Delimited rest) :
    Delimited (Printer.siblings false siblings ++ rest) := by
  cases siblings with
  | nil => simpa [Printer.siblings] using hrest
  | cons node others =>
    simp only [Printer.siblings, connective, Bool.false_eq_true, if_false, List.cons_append]
    exact delimited_cons rfl

mutual

theorem scanChars_node (node : Node) {rest : List Char} (hrest : Delimited rest) :
    scanChars (Printer.node node ++ rest) = nodeTokens node ++ scanChars rest := by
  cases node with
  | condition id logic name operator text =>
    simpa only [Printer.node, nodeTokens] using scanChars_condition name operator text hrest
  | group id logic negated children =>
    have hinner : scanChars ('(' :: Printer.siblings true children ++ [')'] ++ rest) =
        plain ['('] :: siblingTokens true children ++ [plain [')']] ++ scanChars rest := by
      simp only [List.cons_append, List.append_assoc, List.nil_append]
      rw [scanChars_leftParen, scanChars_siblings true children (delimited_cons rfl),
        scanChars_rightParen]
    simp only [Printer.node, nodeTokens]
    cases negated with
    | false => simpa using hinner
    | true =>
      simp only [if_true, List.cons_append, List.nil_append] at hinner ⊢
      rw [scanChars_not (by simp), hinner]

theorem scanChars_siblings (first : Bool) (siblings : List Node) {rest : List Char}
    (hrest : Delimited rest) :
    scanChars (Printer.siblings first siblings ++ rest) =
      siblingTokens first siblings ++ scanChars rest := by
  cases siblings with
  | nil => simp [Printer.siblings, siblingTokens]
  | cons node others =>
    have hnode : scanChars (Printer.node node ++ (Printer.siblings false others ++ rest)) =
        nodeTokens node ++ (siblingTokens false others ++ scanChars rest) := by
      rw [scanChars_node node (delimited_siblings others hrest),
        scanChars_siblings false others hrest]
    simp only [Printer.siblings, siblingTokens, List.append_assoc]
    cases first with
    | true => simpa using hnode
    | false =>
      simp only [Bool.false_eq_true, if_false, scanChars_connective, hnode, connectiveToken,
        List.cons_append, List.nil_append]

end

end Printer

/-- The tokens of the canonical expression. -/
theorem Token.scan_text (forest : Forest) :
    Token.scan forest.text = Printer.siblingTokens true forest := by
  have hscan := Printer.scanChars_siblings true forest Token.delimited_nil
  rw [List.append_nil, Token.scanChars_nil, List.append_nil] at hscan
  rw [Token.scan, Forest.text, String.toList_ofList, hscan]

end DisplayFilter
