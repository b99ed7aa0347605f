import DisplayFilter.Expression.Printer
/-!
# The lexemes of an expression

What the scanner makes of a blank, a word, a quoted text, an operator, a combinator, a parenthesis and a
negation at the front of an expression. Each fact leaves the rest of the expression open, up to the one
character that could extend the lexeme, so an expression is scanned lexeme by lexeme.
-/

namespace DisplayFilter.Token

open Printer

/-- No word at the end of an expression goes on into this rest. -/
def Delimited (rest : List Char) : Prop :=
  ∀ c, rest.head? = some c → isWordChar c = false

theorem delimited_nil : Delimited [] := by
  simp [Delimited]

theorem delimited_cons {c : Char} {rest : List Char} (hend : isWordChar c = false) :
    Delimited (c :: rest) := by
  intro first hfirst
  cases hfirst
  exact hend

theorem scanChars_nil : scanChars [] = [] := by
  rw [scanChars.eq_def]

theorem scanChars_blank {c : Char} {rest : List Char} (hblank : Text.isBlank c = true) :
    scanChars (c :: rest) = scanChars rest := by
  rw [scanChars.eq_def]
  simp only [hblank, if_true]

theorem scanChars_cons {c : Char} {rest : List Char} (hblank : Text.isBlank c = false) :
    scanChars (c :: rest) = (scanOne c rest).1 :: scanChars (scanOne c rest).2 := by
  rw [scanChars.eq_def]
  simp only [hblank, Bool.false_eq_true, if_false]

/-! ### Words -/

theorem isWordChar_eq_true_iff {c : Char} :
    isWordChar c = true ↔ Text.isBlank c = false ∧ isSpecial c = false := by
  simp [isWordChar]

/-- Special characters are no blanks. -/
theorem isBlank_eq_false_of_isSpecial {c : Char} (hspecial : isSpecial c = true) :
    Text.isBlank c = false := by
  simp only [isSpecial, List.contains_eq_mem, decide_eq_true_eq, List.mem_cons,
    List.not_mem_nil, or_false] at hspecial
  rcases hspecial with rfl | rfl | rfl | rfl | rfl | rfl | rfl | rfl | rfl | rfl <;> rfl

/-- Digits and letters are characters of words. -/
theorem isWordChar_of_isAlphanum {c : Char} (halphanum : c.isAlphanum = true) : isWordChar c = true := by
  have hrange : (65 ≤ c.toNat ∧ c.toNat ≤ 90) ∨ (97 ≤ c.toNat ∧ c.toNat ≤ 122) ∨
      (48 ≤ c.toNat ∧ c.toNat ≤ 57) := by
    delta Char.isAlphanum Char.isAlpha Char.isUpper Char.isLower Char.isDigit at halphanum
    simpa [UInt32.le_iff_toNat_le, or_assoc] using halphanum
  refine isWordChar_eq_true_iff.2 ⟨?_, ?_⟩
  · simp [Text.isBlank]
    omega
  · refine Bool.eq_false_iff.2 fun hspecial => ?_
    simp only [isSpecial, List.contains_eq_mem, decide_eq_true_eq, List.mem_cons,
      List.not_mem_nil, or_false] at hspecial
    rcases hspecial with rfl | rfl | rfl | rfl | rfl | rfl | rfl | rfl | rfl | rfl <;>
      revert hrange <;> decide

theorem isSpecial_of_isDoubleSymbol {first second : Char} (hdouble : isDoubleSymbol first second = true) :
    (isSpecial first = true ∧ first ≠ '"') ∧ isSpecial second = true := by
  simp only [isDoubleSymbol, List.contains_eq_mem, decide_eq_true_eq, List.mem_cons, Prod.mk.injEq,
    List.not_mem_nil, or_false] at hdouble
  rcases hdouble with ⟨rfl, rfl⟩ | ⟨rfl, rfl⟩ | ⟨rfl, rfl⟩ | ⟨rfl, rfl⟩ | ⟨rfl, rfl⟩ | ⟨rfl, rfl⟩ <;>
    decide

theorem isDoubleSymbol_eq_false {c : Char} (second : Char) (hplain : isSpecial c = false) :
    isDoubleSymbol c second = false := by
  refine Bool.eq_false_iff.2 fun hdouble => ?_
  rw [(isSpecial_of_isDoubleSymbol hdouble).1.1] at hplain
  cases hplain

theorem isSymbol_eq_false {c : Char} (hplain : isSpecial c = false) : isSymbol c = false := by
  refine Bool.eq_false_iff.2 fun hsymbol => ?_
  simp only [isSymbol, List.contains_eq_mem, decide_eq_true_eq,
    List.mem_cons, List.not_mem_nil, or_false] at hsymbol
  rcases hsymbol with rfl | rfl | rfl | rfl | rfl | rfl <;> simp [isSpecial] at hplain

/-- A character that begins neither a string nor a symbol of two characters stands for itself or
begins a word. -/
theorem scanOne_eq_scanShort {c : Char} {rest : List Char} (hquote : c ≠ '"')
    (hsingle : ∀ second after, rest = second :: after → isDoubleSymbol c second = false) :
    scanOne c rest = scanShort c rest := by
  unfold scanOne
  rw [if_neg hquote]
  cases rest with
  | nil => rfl
  | cons second after => simp only [hsingle second after rfl, Bool.false_eq_true, if_false]

theorem takeWhile_eq_nil_of_delimited {rest : List Char} (hrest : Delimited rest) :
    rest.takeWhile isWordChar = [] := by
  cases rest with
  | nil => rfl
  | cons c rest => simp [hrest c rfl]

theorem dropWhile_eq_self_of_delimited {rest : List Char} (hrest : Delimited rest) :
    rest.dropWhile isWordChar = rest := by
  cases rest with
  | nil => rfl
  | cons c rest => simp [hrest c rfl]

/-- A word that cannot be extended is one token. -/
theorem scanChars_word {word rest : List Char} (hne : word ≠ [])
    (hword : ∀ c ∈ word, isWordChar c = true) (hrest : Delimited rest) :
    scanChars (word ++ rest) = plain word :: scanChars rest := by
  cases word with
  | nil => exact absurd rfl hne
  | cons c tail =>
    have hfirst : isWordChar c = true := hword c List.mem_cons_self
    have htail : ∀ d ∈ tail, isWordChar d = true :=
      fun d hd => hword d (List.mem_cons_of_mem c hd)
    obtain ⟨hblank, hplain⟩ := isWordChar_eq_true_iff.1 hfirst
    have hquote : c ≠ '"' := by
      rintro rfl
      simp [isSpecial] at hplain
    rw [List.cons_append, scanChars_cons hblank,
      scanOne_eq_scanShort hquote fun second _ _ => isDoubleSymbol_eq_false second hplain]
    simp only [scanShort, isSymbol_eq_false hplain, hfirst, Bool.false_eq_true, if_false, if_true,
      List.takeWhile_append_of_pos htail, List.dropWhile_append_of_pos htail,
      takeWhile_eq_nil_of_delimited hrest, dropWhile_eq_self_of_delimited hrest, List.append_nil]

/-! ### Symbols -/

theorem scanChars_double {first second : Char} {rest : List Char}
    (hdouble : isDoubleSymbol first second = true) :
    scanChars (first :: second :: rest) = plain [first, second] :: scanChars rest := by
  obtain ⟨⟨hspecial, hquote⟩, _⟩ := isSpecial_of_isDoubleSymbol hdouble
  rw [scanChars_cons (isBlank_eq_false_of_isSpecial hspecial)]
  simp only [scanOne, if_neg hquote, hdouble, if_true]

theorem scanShort_special {c : Char} {rest : List Char} (hspecial : isSpecial c = true)
    (hquote : c ≠ '"') : scanShort c rest = (plain [c], rest) := by
  simp only [isSpecial, List.contains_eq_mem, decide_eq_true_eq, List.mem_cons,
    List.not_mem_nil, or_false] at hspecial
  rcases hspecial with rfl | rfl | rfl | rfl | rfl | rfl | rfl | rfl | rfl | rfl
  case inr.inr.inl => exact absurd rfl hquote
  all_goals rfl

/-- A special character that begins neither a string nor a symbol of two characters is one token. -/
theorem scanChars_single {c : Char} {rest : List Char} (hspecial : isSpecial c = true) (hquote : c ≠ '"')
    (hsingle : ∀ second after, rest = second :: after → isDoubleSymbol c second = false) :
    scanChars (c :: rest) = plain [c] :: scanChars rest := by
  rw [scanChars_cons (isBlank_eq_false_of_isSpecial hspecial), scanOne_eq_scanShort hquote hsingle,
    scanShort_special hspecial hquote]

theorem scanChars_leftParen (rest : List Char) :
    scanChars ('(' :: rest) = plain ['('] :: scanChars rest :=
  scanChars_single rfl (by decide) fun _ _ _ => rfl

theorem scanChars_rightParen (rest : List Char) :
    scanChars (')' :: rest) = plain [')'] :: scanChars rest :=
  scanChars_single rfl (by decide) fun _ _ _ => rfl

/-- A negation is a token by itself unless an equals sign follows. -/
theorem scanChars_not {rest : List Char} (hrest : rest.head? ≠ some '=') :
    scanChars ('!' :: rest) = plain ['!'] :: scanChars rest := by
  refine scanChars_single rfl (by decide) fun second after heq => ?_
  have hne : second ≠ '=' := by
    rintro rfl
    exact hrest (by rw [heq]; rfl)
  simp [isDoubleSymbol, hne]

/-- A combinator with a blank on both sides. -/
theorem scanChars_connective (logic : Logic) (rest : List Char) :
    scanChars (connective logic ++ rest) = plain logic.symbol.toList :: scanChars rest := by
  have hspace : Text.isBlank ' ' = true := rfl
  cases logic with
  | and =>
    change scanChars (' ' :: '&' :: '&' :: ' ' :: rest) = plain ['&', '&'] :: _
    rw [scanChars_blank hspace, scanChars_double rfl, scanChars_blank hspace]
  | or =>
    change scanChars (' ' :: '|' :: '|' :: ' ' :: rest) = plain ['|', '|'] :: _
    rw [scanChars_blank hspace, scanChars_double rfl, scanChars_blank hspace]

/-- The symbol of a comparison before a blank. -/
theorem scanChars_operator {op : Operator} (htakes : op.takesValue = true) (rest : List Char) :
    scanChars (op.symbol.toList ++ ' ' :: rest) = plain op.symbol.toList :: scanChars rest := by
  have hspace : Text.isBlank ' ' = true := rfl
  have hword : ∀ word : List Char, word ≠ [] → (word.all isWordChar) = true →
      scanChars (word ++ ' ' :: rest) = plain word :: scanChars rest := by
    intro word hne hall
    rw [scanChars_word hne (List.all_eq_true.1 hall) (delimited_cons rfl), scanChars_blank hspace]
  cases op with
  | equals =>
    change scanChars ('=' :: '=' :: ' ' :: rest) = plain ['=', '='] :: _
    rw [scanChars_double rfl, scanChars_blank hspace]
  | notEquals =>
    change scanChars ('!' :: '=' :: ' ' :: rest) = plain ['!', '='] :: _
    rw [scanChars_double rfl, scanChars_blank hspace]
  | contains => exact hword _ (by decide) (by decide)
  | isMatch => exact hword _ (by decide) (by decide)
  | greaterThan =>
    change scanChars ('>' :: ' ' :: rest) = plain ['>'] :: _
    rw [scanChars_single rfl (by decide) (by rintro _ _ ⟨⟩; rfl), scanChars_blank hspace]
  | lessThan =>
    change scanChars ('<' :: ' ' :: rest) = plain ['<'] :: _
    rw [scanChars_single rfl (by decide) (by rintro _ _ ⟨⟩; rfl), scanChars_blank hspace]
  | greaterOrEqual =>
    change scanChars ('>' :: '=' :: ' ' :: rest) = plain ['>', '='] :: _
    rw [scanChars_double rfl, scanChars_blank hspace]
  | lessOrEqual =>
    change scanChars ('<' :: '=' :: ' ' :: rest) = plain ['<', '='] :: _
    rw [scanChars_double rfl, scanChars_blank hspace]
  | «exists» => cases htakes
  | negatedExists => cases htakes

/-! ### Quoted texts -/

/-- Escaping a character gives a backslash with a letter that stands for the character, or the character
itself, which then is neither a backslash nor a quote. -/
theorem escapeChar_eq (c : Char) :
    (∃ letter, escapeChar c = ['\\', letter] ∧ unescapeChar letter = c) ∨
      (escapeChar c = [c] ∧ c ≠ '\\' ∧ c ≠ '"') := by
  unfold escapeChar
  split
  · exact .inl ⟨'\\', rfl, rfl⟩
  · exact .inl ⟨'"', rfl, rfl⟩
  · exact .inl ⟨'n', rfl, rfl⟩
  · exact .inl ⟨'r', rfl, rfl⟩
  · exact .inl ⟨'t', rfl, rfl⟩
  · exact .inr ⟨rfl, ‹_›, ‹_›⟩

/-- A string ends at the quote after an escaped text. -/
theorem cutString_escaped (text rest : List Char) :
    cutString (text.flatMap escapeChar ++ '"' :: rest) =
      (text.flatMap escapeChar ++ ['"'], rest) := by
  induction text with
  | nil => simp [cutString]
  | cons c text ih =>
    rw [List.flatMap_cons, List.append_assoc]
    rcases escapeChar_eq c with ⟨letter, hescape, _⟩ | ⟨hescape, hbackslash, _⟩
    · simp [hescape, cutString, ih]
    · simp [hescape, cutString, ih, hbackslash]

/-- A quoted text is one token, whatever follows. -/
theorem scanChars_quote (text rest : List Char) :
    scanChars (quote text ++ rest) = ofLiteral (quote text) :: scanChars rest := by
  have hshape : quote text ++ rest = '"' :: (text.flatMap escapeChar ++ '"' :: rest) := by
    simp [quote]
  rw [hshape, scanChars_cons rfl]
  simp only [scanOne, if_true, cutString_escaped]
  rfl

theorem unescape_escaped (text : List Char) : unescape (text.flatMap escapeChar) = text := by
  induction text with
  | nil => rfl
  | cons c text ih =>
    rw [List.flatMap_cons]
    rcases escapeChar_eq c with ⟨letter, hescape, hletter⟩ | ⟨hescape, hbackslash, _⟩
    · simp [hescape, unescape, hletter, ih]
    · simp [hescape, unescape, hbackslash, ih]

theorem endsInEscape_cons {c : Char} (hc : c ≠ '\\') (front : List Char) :
    endsInEscape (c :: front) = endsInEscape front := by
  simp only [endsInEscape, List.reverse_cons, List.takeWhile_append]
  split
  · simp [*]
  · rfl

theorem endsInEscape_pair (c : Char) (front : List Char) :
    endsInEscape ('\\' :: c :: front) = endsInEscape front := by
  simp only [endsInEscape, List.reverse_cons, List.append_assoc, List.cons_append, List.nil_append,
    List.takeWhile_append]
  split
  · by_cases hc : c = '\\' <;> simp [*]
  · rfl

/-- The backslashes at the end of an escaped text come in pairs, so none is left over. -/
theorem endsInEscape_escaped (text : List Char) : endsInEscape (text.flatMap escapeChar) = false := by
  induction text with
  | nil => rfl
  | cons c text ih =>
    rw [List.flatMap_cons]
    rcases escapeChar_eq c with ⟨letter, hescape, _⟩ | ⟨hescape, hbackslash, _⟩
    · rw [hescape]
      exact (endsInEscape_pair letter _).trans ih
    · rw [hescape]
      exact (endsInEscape_cons hbackslash _).trans ih

/-- A quoted text stands for itself. -/
theorem content_quote (text : List Char) :
    (ofLiteral (quote text)).content = String.ofList text := by
  have hquoted : (ofLiteral (quote text)).isQuoted = true := by
    simp [isQuoted, ofLiteral, quote]
  have hstrip : stripQuotes (quote text) = text.flatMap escapeChar := by
    simp [stripQuotes, quote, endsInEscape_escaped]
  rw [content, if_pos hquoted]
  simp only [ofLiteral, String.toList_ofList, hstrip, unescape_escaped]

end DisplayFilter.Token
