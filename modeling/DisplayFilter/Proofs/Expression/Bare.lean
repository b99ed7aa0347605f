import Mathlib.Tactic.Tauto
import DisplayFilter.Proofs.Expression.Canonical
import DisplayFilter.Proofs.Expression.Step
import DisplayFilter.Proofs.Filter.Walk
/-!
# Bare fields and values

The one thing the canonical expression does not keep is a line feed behind a bare word or a bare number:
it is written outside quotes, where it is blank. Every other field and every other value comes back from
its token as it was (`word_fieldToken`, `word_valueToken`), since a word that is not reserved and a number
are literals. A canonical expression is a single line exactly when no line feed is lost
(`Forest.text_single_line_iff`).
-/

namespace DisplayFilter

open Printer Token

/-! ### What a bare text loses -/

namespace Printer

/-- A word with one line feed behind it, which is written bare. -/
def IsWordLine (text : List Char) : Prop :=
  ∃ word, word ≠ [] ∧ (∀ c ∈ word, isFieldChar c = true) ∧ text = word ++ ['\n']

/-- A number with one line feed behind it, which is written bare. -/
def IsNumberLine (text : List Char) : Prop :=
  ∃ digits, isNumber digits = true ∧ text = digits ++ ['\n']

end Printer

/-- The condition has no line feed that its canonical expression loses. -/
def Node.KeepsLineFeeds : Node → Prop
  | .condition _ _ field operator value =>
    ¬ IsWordLine field.toList ∧ (operator.takesValue = true → ¬ IsNumberLine value.toList)
  | .group .. => True

/-- No condition of the forest has a line feed that the canonical expression loses. -/
def Forest.KeepsLineFeeds (forest : Forest) : Prop :=
  ∀ node ∈ Forest.walk forest, node.KeepsLineFeeds

/-! ### Words that are no keywords -/

/-- Every text that is a token of some kind other than a literal. -/
def TokenKind.keywords : List String :=
  ["&&", "and", "||", "or", "(", ")", "!", "not"] ++ Operator.spellings.map Prod.fst

namespace Token

theorem ofText_of_not_mem {text : String} (hnot : Text.lower text ∉ TokenKind.keywords) :
    TokenKind.ofText text = .atom := by
  have hspelling : Operator.ofSpelling? (Text.lower text) = none := by
    refine List.lookup_eq_none_iff.2 fun entry hentry => ?_
    refine bne_iff_ne.2 fun heq => hnot ?_
    rw [heq]
    exact List.mem_append_right _ (List.mem_map_of_mem hentry)
  have hne : ∀ word ∈ TokenKind.keywords, Text.lower text ≠ word := by
    rintro word hword rfl
    exact hnot hword
  unfold TokenKind.ofText
  split
  case h_9 => rw [hspelling]; rfl
  all_goals exact absurd ‹_› (hne _ (by decide))

theorem toLower_eq_self_of_lt {c d : Char} (hlower : c.toLower = d)
    (hd : d.toNat < 97 ∨ 122 < d.toNat) : c = d := by
  delta Char.toLower at hlower
  split at hlower
  · rename_i hcapital
    have hlow : 65 ≤ c.val.toNat := UInt32.le_iff_toNat_le.1 hcapital.1
    have hhigh : c.val.toNat ≤ 90 := UInt32.le_iff_toNat_le.1 hcapital.2
    have hsum : (c.val + 32).toNat = (c.val.toNat + 32) % 2 ^ 32 := UInt32.toNat_add ..
    have hval : (c.val + 32).toNat = d.toNat := by
      rw [← hlower]
      rfl
    omega
  · exact hlower

theorem toLower_of_lt {c : Char} (hlow : c.toNat < 65) : c.toLower = c := by
  delta Char.toLower
  refine dif_neg fun hcapital => ?_
  have hcapital' : 65 ≤ c.toNat := UInt32.le_iff_toNat_le.1 hcapital.1
  omega

theorem isSpecial_of_toLower {c : Char} (hspecial : isSpecial c.toLower = true) :
    isSpecial c = true := by
  have hsame : c = c.toLower := by
    refine toLower_eq_self_of_lt rfl ?_
    simp only [isSpecial, List.contains_eq_mem, decide_eq_true_eq, List.mem_cons,
      List.not_mem_nil, or_false] at hspecial
    generalize c.toLower = d at hspecial
    rcases hspecial with rfl | rfl | rfl | rfl | rfl | rfl | rfl | rfl | rfl | rfl <;> decide
  rwa [hsame]

theorem toList_lower (text : List Char) :
    (Text.lower (String.ofList text)).toList = text.map Char.toLower := by
  simp [Text.lower]

theorem kind_plain (text : List Char) :
    (plain text).kind = TokenKind.ofText (String.ofList text) := by
  simp only [plain]

/-- A word that is not reserved is a literal. -/
theorem kind_word {word : List Char} (hword : ∀ c ∈ word, isWordChar c = true)
    (hreserved : isReserved (Text.lower (String.ofList word)) = false) :
    (plain word).kind = .atom := by
  rw [kind_plain]
  refine ofText_of_not_mem fun hmem => ?_
  have hkeyword : ∀ keyword ∈ TokenKind.keywords,
      isReserved keyword = true ∨ keyword.toList.head?.any isSpecial = true := by
    decide
  rcases hkeyword _ hmem with hyes | hspecial
  · rw [hreserved] at hyes
    cases hyes
  · rw [toList_lower] at hspecial
    cases word with
    | nil => cases hspecial
    | cons c word =>
      have hplain := (isWordChar_eq_true_iff.1 (hword c List.mem_cons_self)).2
      rw [isSpecial_of_toLower (by simpa using hspecial)] at hplain
      cases hplain

/-- A number is a literal: no keyword begins as a number does. -/
theorem kind_number {digits : List Char} (hnumber : isNumber digits = true) :
    (plain digits).kind = .atom := by
  obtain ⟨c, rest, rfl, hfirst⟩ := exists_head_of_isNumber hnumber
  rw [kind_plain]
  refine ofText_of_not_mem fun hmem => ?_
  have hkeyword : ∀ keyword ∈ TokenKind.keywords,
      keyword.toList.head?.any (fun c => c.isDigit || c == '.') = false := by
    decide
  have hhead := hkeyword _ hmem
  have hlow : c.toNat < 65 := by
    rcases hfirst with hdigit | rfl
    · have hrange : 48 ≤ c.toNat ∧ c.toNat ≤ 57 := by
        simpa [Char.isDigit, UInt32.le_iff_toNat_le] using hdigit
      omega
    · decide
  rw [toList_lower, List.map_cons, toLower_of_lt hlow] at hhead
  simp only [List.head?_cons, Option.any_some, Bool.or_eq_false_iff, beq_eq_false_iff_ne] at hhead
  rcases hfirst with hdigit | hdot
  · rw [hdigit] at hhead
    cases hhead.1
  · exact hhead.2 hdot

theorem content_plain {text : List Char} (hquote : text.head? ≠ some '"') :
    (plain text).content = String.ofList text := by
  have hunquoted : (plain text).isQuoted = false := by
    simp [isQuoted, plain, hquote]
  rw [content, hunquoted]
  rfl

theorem head?_ne_quote {word : List Char} (hword : ∀ c ∈ word, isWordChar c = true) :
    word.head? ≠ some '"' := by
  cases word with
  | nil => simp
  | cons c word =>
    intro hquote
    cases hquote
    exact absurd (hword '"' List.mem_cons_self) (by decide)

theorem word_quote (text : String) :
    (ofLiteral (quote text.toList)).isWord = true ∧
      (ofLiteral (quote text.toList)).content = text :=
  ⟨rfl, by rw [content_quote, String.ofList_toList]⟩

end Token

/-! ### Fields and values that come back -/

namespace Printer

theorem mem_keywords_of_isReserved {word : String} (hreserved : isReserved word = true) :
    word ∈ TokenKind.keywords := by
  simp only [isReserved, Bool.or_eq_true, List.contains_eq_mem, decide_eq_true_eq] at hreserved
  rcases hreserved with hmem | hspelling
  · revert word
    decide
  · obtain ⟨entry, hentry, heq⟩ := List.lookup_isSome_iff.1 hspelling
    rw [eq_of_beq heq]
    exact List.mem_append_right _ (List.mem_map_of_mem hentry)

/-- With a line feed behind it no word is reserved. -/
theorem isReserved_line (word : List Char) :
    isReserved (Text.lower (String.ofList (word ++ ['\n']))) = false := by
  refine Bool.eq_false_iff.2 fun hreserved => ?_
  have hkeyword : ∀ keyword ∈ TokenKind.keywords, keyword.toList.getLast? ≠ some '\n' := by
    decide
  refine hkeyword _ (mem_keywords_of_isReserved hreserved) ?_
  rw [toList_lower]
  simp

theorem isBareField_line {word : List Char} (hne : word ≠ [])
    (hword : ∀ c ∈ word, isFieldChar c = true) : isBareField (word ++ ['\n']) = true := by
  rw [isBareField_iff, dropFinalNewline_append_newline]
  exact ⟨hne, hword, isReserved_line word⟩

/-- The fields that lose a line feed are the bare ones that end with one. -/
theorem isWordLine_iff {text : List Char} :
    IsWordLine text ↔ text.getLast? = some '\n' ∧ isBareField text = true := by
  constructor
  · rintro ⟨word, hne, hword, rfl⟩
    exact ⟨by simp, isBareField_line hne hword⟩
  · rintro ⟨hlast, hbare⟩
    obtain ⟨word, rfl⟩ := List.getLast?_eq_some_iff.1 hlast
    rw [isBareField_iff, dropFinalNewline_append_newline] at hbare
    exact ⟨word, hbare.1, hbare.2.1, rfl⟩

theorem isNumberLine_iff {text : List Char} :
    IsNumberLine text ↔ text.getLast? = some '\n' ∧ isBareValue text = true := by
  constructor
  · rintro ⟨digits, hnumber, rfl⟩
    exact ⟨by simp, by rwa [isBareValue, dropFinalNewline_append_newline]⟩
  · rintro ⟨hlast, hbare⟩
    obtain ⟨digits, rfl⟩ := List.getLast?_eq_some_iff.1 hlast
    rw [isBareValue, dropFinalNewline_append_newline] at hbare
    exact ⟨digits, hbare, rfl⟩

instance (text : List Char) : Decidable (IsWordLine text) :=
  decidable_of_iff _ isWordLine_iff.symm

instance (text : List Char) : Decidable (IsNumberLine text) :=
  decidable_of_iff _ isNumberLine_iff.symm

theorem word_fieldToken {name : String} (hkeeps : ¬ IsWordLine name.toList) :
    (fieldToken name).isWord = true ∧ (fieldToken name).content = name := by
  unfold fieldToken
  split
  · rename_i hbare
    obtain ⟨hne, hchars, hreserved⟩ := isBareField_iff.1 hbare
    have hsame : dropFinalNewline name.toList = name.toList :=
      (dropFinalNewline_eq _).resolve_right fun hline => hkeeps ⟨_, hne, hchars, hline⟩
    rw [hsame] at hchars ⊢
    have hword : ∀ c ∈ name.toList, isWordChar c = true :=
      fun c hc => isWordChar_of_isFieldChar (hchars c hc)
    refine ⟨by simp [isWord, kind_word hword hreserved], ?_⟩
    rw [content_plain (head?_ne_quote hword), String.ofList_toList]
  · exact word_quote name

theorem word_valueToken {text : String} (hkeeps : ¬ IsNumberLine text.toList) :
    (valueToken text).isWord = true ∧ (valueToken text).content = text := by
  unfold valueToken
  split
  · rename_i hbare
    have hsame : dropFinalNewline text.toList = text.toList :=
      (dropFinalNewline_eq _).resolve_right fun hline => hkeeps ⟨_, hbare, hline⟩
    rw [isBareValue, hsame] at hbare
    rw [hsame]
    refine ⟨by simp [isWord, kind_number hbare], ?_⟩
    rw [content_plain (head?_ne_quote (isWordChar_of_isNumber hbare)), String.ofList_toList]
  · exact word_quote text

end Printer

instance : (node : Node) → Decidable node.KeepsLineFeeds
  | .condition _ _ field operator value =>
    inferInstanceAs (Decidable (¬ IsWordLine field.toList ∧
      (operator.takesValue = true → ¬ IsNumberLine value.toList)))
  | .group .. => inferInstanceAs (Decidable True)

instance (forest : Forest) : Decidable forest.KeepsLineFeeds :=
  inferInstanceAs (Decidable (∀ node ∈ Forest.walk forest, node.KeepsLineFeeds))

namespace Forest

@[simp] theorem keepsLineFeeds_nil : KeepsLineFeeds [] := by
  simp [KeepsLineFeeds]

@[simp] theorem keepsLineFeeds_condition_cons (id : Int) (logic : Logic) (field : String)
    (operator : Operator) (value : String) (rest : Forest) :
    KeepsLineFeeds (.condition id logic field operator value :: rest) ↔
      (¬ IsWordLine field.toList ∧ (operator.takesValue = true → ¬ IsNumberLine value.toList)) ∧
        KeepsLineFeeds rest := by
  simp [KeepsLineFeeds, Node.KeepsLineFeeds]

@[simp] theorem keepsLineFeeds_group_cons (id : Int) (logic : Logic) (negated : Bool)
    (children rest : Forest) :
    KeepsLineFeeds (.group id logic negated children :: rest) ↔
      KeepsLineFeeds children ∧ KeepsLineFeeds rest := by
  simp [KeepsLineFeeds, Node.KeepsLineFeeds, or_imp, forall_and]

end Forest

/-! ### Line breaks of a canonical expression -/

namespace Printer

/-- The characters that end a line or part its columns. Quoted texts have letters for them. -/
def IsBreak (c : Char) : Prop :=
  c = '\n' ∨ c = '\r' ∨ c = '\t'

variable {c : Char}

theorem IsBreak.not_isWordChar (hbreak : IsBreak c) : isWordChar c = false := by
  rcases hbreak with rfl | rfl | rfl <;> decide

/-- What stands between fields and values is made of blanks, parentheses and words of operators. -/
theorem IsBreak.not_mem_fixed (hbreak : IsBreak c) :
    (c ≠ ' ' ∧ c ≠ '!' ∧ c ≠ '(' ∧ c ≠ ')') ∧ (∀ operator : Operator, c ∉ operator.symbol.toList) ∧
      ∀ logic : Logic, c ∉ connective logic := by
  rcases hbreak with rfl | rfl | rfl <;>
    exact ⟨by decide, fun operator => by cases operator <;> decide,
      fun logic => by cases logic <;> decide⟩

theorem not_mem_quote (hbreak : IsBreak c) (text : List Char) : c ∉ quote text := by
  have hescape : ∀ d, c ∉ escapeChar d := by
    intro d hmem
    unfold escapeChar at hmem
    rcases hbreak with rfl | rfl | rfl <;> split at hmem <;> simp_all [eq_comm]
  have hmark : c ≠ '"' := by
    rcases hbreak with rfl | rfl | rfl <;> decide
  simp [quote, hescape, hmark]

theorem mem_line_iff (hbreak : IsBreak c) {text : List Char}
    (hword : ∀ d ∈ dropFinalNewline text, isWordChar d = true) :
    c ∈ text ↔ c = '\n' ∧ text.getLast? = some '\n' := by
  have hnot : c ∉ dropFinalNewline text := by
    intro hmem
    have hinside := hword c hmem
    rw [hbreak.not_isWordChar] at hinside
    cases hinside
  rcases dropFinalNewline_eq text with hsame | hline
  · rw [hsame] at hnot
    refine iff_of_false hnot ?_
    rintro ⟨rfl, hlast⟩
    exact hnot (List.mem_of_getLast? hlast)
  · rw [hline, List.mem_append]
    simp [hnot]

theorem mem_field_iff (hbreak : IsBreak c) (text : List Char) :
    c ∈ field text ↔ c = '\n' ∧ IsWordLine text := by
  rw [isWordLine_iff, field]
  split
  · rename_i hbare
    obtain ⟨_, hchars, _⟩ := isBareField_iff.1 hbare
    rw [mem_line_iff hbreak fun d hd => isWordChar_of_isFieldChar (hchars d hd)]
    simp only [hbare, and_true]
  · rename_i hquoted
    exact iff_of_false (not_mem_quote hbreak text) fun hline => hquoted hline.2.2

theorem mem_value_iff (hbreak : IsBreak c) (text : List Char) :
    c ∈ value text ↔ c = '\n' ∧ IsNumberLine text := by
  rw [isNumberLine_iff, value]
  split
  · rename_i hbare
    have hword : ∀ d ∈ dropFinalNewline text, isWordChar d = true := isWordChar_of_isNumber hbare
    rw [mem_line_iff hbreak hword]
    simp only [hbare, and_true]
  · rename_i hquoted
    exact iff_of_false (not_mem_quote hbreak text) fun hline => hquoted hline.2.2

theorem mem_condition_iff (hbreak : IsBreak c) (name : String) (operator : Operator) (text : String) :
    c ∈ condition name operator text ↔ c = '\n' ∧
      ¬ (¬ IsWordLine name.toList ∧ (operator.takesValue = true → ¬ IsNumberLine text.toList)) := by
  have hname := mem_field_iff hbreak name.toList
  have htext := mem_value_iff hbreak text.toList
  obtain ⟨⟨hblank, hmark, -, -⟩, hsymbol, -⟩ := hbreak.not_mem_fixed
  have hcomparison : operator.takesValue = true →
      (c ∈ field name.toList ++ ' ' :: operator.symbol.toList ++ ' ' :: value text.toList ↔ c = '\n' ∧
        ¬ (¬ IsWordLine name.toList ∧
          (operator.takesValue = true → ¬ IsNumberLine text.toList))) := by
    intro htakes
    simp only [List.mem_append, List.mem_cons, hname, htext, hblank, hsymbol operator, htakes]
    tauto
  cases operator with
  | «exists» =>
    change c ∈ field name.toList ↔ _
    simp only [hname, Operator.takesValue, Bool.false_eq_true, false_implies, and_true, not_not]
  | negatedExists =>
    change c ∈ '!' :: field name.toList ↔ _
    simp only [List.mem_cons, hmark, hname, Operator.takesValue, Bool.false_eq_true, false_implies,
      false_or, and_true, not_not]
  | _ => exact hcomparison rfl

/-- The only break a canonical expression can have is a line feed that it loses. -/
theorem not_mem_siblings_iff (hbreak : IsBreak c) (first : Bool) (forest : Forest) :
    c ∉ siblings first forest ↔ (c = '\n' → forest.KeepsLineFeeds) := by
  obtain ⟨⟨-, hmark, hleft, hright⟩, -, hlogic⟩ := hbreak.not_mem_fixed
  have hconnective : ∀ (first : Bool) (logic : Logic), c ∉ (if first then [] else connective logic) := by
    intro first logic
    cases first with
    | true => exact List.not_mem_nil
    | false => exact hlogic logic
  induction forest using Forest.induction generalizing first with
  | nil => simp [siblings]
  | condition id logic name operator text rest ih =>
    have hcondition := mem_condition_iff hbreak name operator text
    have hrest := ih false
    rw [Forest.keepsLineFeeds_condition_cons]
    simp only [siblings, node, List.mem_append, hcondition, hconnective, false_or]
    tauto
  | group id logic negated children rest ihchildren ihrest =>
    have hnegation : c ∉ (if negated then ['!'] else []) := by
      cases negated <;> simp [hmark]
    have hchildren := ihchildren true
    have hrest := ihrest false
    rw [Forest.keepsLineFeeds_group_cons]
    simp only [siblings, node, List.mem_append, List.mem_cons, hconnective, hnegation, hleft,
      hright, List.not_mem_nil, false_or, or_false]
    tauto

/-- A canonical expression is a single line exactly when it loses no line feed. -/
theorem newline_not_mem_siblings_iff (first : Bool) (forest : Forest) :
    '\n' ∉ siblings first forest ↔ forest.KeepsLineFeeds := by
  rw [not_mem_siblings_iff (.inl rfl), forall_prop_of_true rfl]

end Printer

/-- A canonical expression is a single line, without breaks of any kind, exactly when no field is a bare word
with a line feed behind it and no value a bare number with one. Other breaks than line feeds never occur. -/
theorem Forest.text_single_line_iff (forest : Forest) :
    ((∀ c, IsBreak c → c ∉ (text forest).toList) ↔ forest.KeepsLineFeeds) ∧
      '\r' ∉ (text forest).toList ∧ '\t' ∉ (text forest).toList := by
  rw [text, String.toList_ofList]
  refine ⟨⟨fun hnone => ?_, fun hkeeps c hbreak => ?_⟩, ?_, ?_⟩
  · exact (newline_not_mem_siblings_iff true forest).1 (hnone '\n' (.inl rfl))
  · exact (not_mem_siblings_iff hbreak true forest).2 fun _ => hkeeps
  · exact (not_mem_siblings_iff (.inr (.inl rfl)) true forest).2 (by simp)
  · exact (not_mem_siblings_iff (.inr (.inr rfl)) true forest).2 (by simp)

/-- A word with a line feed behind it is written in two lines. -/
theorem Forest.newline_mem_text_word :
    '\n' ∈ (Forest.text [.presence 1 "tcp.port\n"]).toList := by
  decide

end DisplayFilter
