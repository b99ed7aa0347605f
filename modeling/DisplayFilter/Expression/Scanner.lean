import DisplayFilter.Expression.Token
import DisplayFilter.Text.Blank
/-!
# Scanning

`Token.scan` cuts an expression into tokens and never fails. A double quote opens a string that ends at
the first double quote no backslash consumes, or with the expression. The symbols of two characters come
before those of one, a word extends as far as it can, and any other character is a token by itself.
-/

namespace DisplayFilter

namespace Token

/-- Characters that end a word. -/
def isSpecial (c : Char) : Bool :=
  ['(', ')', '"', '!', '<', '>', '=', '~', '&', '|'].contains c

/-- Characters a word is made of. -/
def isWordChar (c : Char) : Bool :=
  !Text.isBlank c && !isSpecial c

/-- The rest of a string after its opening quote, up to and including the quote that closes it, and what
follows the string. -/
def cutString : List Char → List Char × List Char
  | [] => ([], [])
  | '"' :: rest => (['"'], rest)
  | '\\' :: c :: rest =>
    let (body, after) := cutString rest
    ('\\' :: c :: body, after)
  | c :: rest =>
    let (body, after) := cutString rest
    (c :: body, after)

/-- An unquoted token of this text. -/
def plain (text : List Char) : Token :=
  ⟨TokenKind.ofText (String.ofList text), String.ofList text⟩

/-- A literal of this text. -/
def ofLiteral (text : List Char) : Token :=
  ⟨.atom, String.ofList text⟩

def isDoubleSymbol (first second : Char) : Bool :=
  [('&', '&'), ('|', '|'), ('<', '='), ('>', '='), ('=', '='), ('!', '=')].contains (first, second)

def isSymbol (c : Char) : Bool :=
  ['(', ')', '!', '<', '>', '~'].contains c

/-- The token that does not begin a symbol of two characters, and what follows it. -/
def scanShort (c : Char) (rest : List Char) : Token × List Char :=
  if isSymbol c then (plain [c], rest)
  else if isWordChar c then (plain (c :: rest.takeWhile isWordChar), rest.dropWhile isWordChar)
  else (ofLiteral [c], rest)

/-- The token that begins with a character other than a blank, and what follows it. -/
def scanOne (c : Char) (rest : List Char) : Token × List Char :=
  if c = '"' then
    let (body, after) := cutString rest
    (ofLiteral ('"' :: body), after)
  else match rest with
    | [] => scanShort c []
    | second :: after =>
      if isDoubleSymbol c second then (plain [c, second], after) else scanShort c (second :: after)

theorem cutString_append (text : List Char) :
    (cutString text).1 ++ (cutString text).2 = text := by
  fun_induction cutString text <;> simp_all

theorem length_cutString_le (text : List Char) : (cutString text).2.length ≤ text.length := by
  have happend := congrArg List.length (cutString_append text)
  rw [List.length_append] at happend
  omega

theorem length_dropWhile_le (p : Char → Bool) (text : List Char) :
    (text.dropWhile p).length ≤ text.length :=
  (List.dropWhile_suffix p).length_le

theorem length_scanShort_le (c : Char) (rest : List Char) :
    (scanShort c rest).2.length ≤ rest.length := by
  unfold scanShort
  split
  · simp
  · split
    · exact length_dropWhile_le _ _
    · simp

theorem length_scanOne_le (c : Char) (rest : List Char) :
    (scanOne c rest).2.length ≤ rest.length := by
  unfold scanOne
  split
  · exact length_cutString_le rest
  · split
    · exact length_scanShort_le _ _
    · split
      · simp
      · exact length_scanShort_le _ _

/-- The tokens of a text, as characters. -/
def scanChars : List Char → List Token
  | [] => []
  | c :: rest =>
    if Text.isBlank c then scanChars rest
    else (scanOne c rest).1 :: scanChars (scanOne c rest).2
  termination_by text => text.length
  decreasing_by
  · simp
  · have hshorter := length_scanOne_le c rest
    simp only [List.length_cons]
    omega

def scan (text : String) : List Token :=
  scanChars text.toList

/-- Scanning yields no comparison without a known spelling. -/
theorem operator?_isSome_of_scanOne {c : Char} {rest : List Char}
    (hkind : (scanOne c rest).1.kind = .comparison) : (scanOne c rest).1.operator?.isSome := by
  have hplain : ∀ text : List Char, (plain text).kind = .comparison →
      (plain text).operator?.isSome := by
    intro text htext
    simp only [plain, TokenKind.ofText] at htext
    simp only [plain, operator?]
    split at htext <;> simp_all [Option.isSome_iff_ne_none]
  have hliteral : ∀ text : List Char, (ofLiteral text).kind ≠ .comparison := by
    intro text
    simp [ofLiteral]
  have hshort : ∀ rest : List Char, (scanShort c rest).1.kind = .comparison →
      (scanShort c rest).1.operator?.isSome := by
    intro rest htext
    unfold scanShort at htext ⊢
    split at htext
    · rw [if_pos ‹_›]; exact hplain _ htext
    · rw [if_neg ‹_›]
      split at htext
      · rw [if_pos ‹_›]; exact hplain _ htext
      · exact absurd htext (hliteral _)
  unfold scanOne at hkind ⊢
  split at hkind
  · exact absurd hkind (hliteral _)
  · rw [if_neg ‹_›]
    cases rest with
    | nil => exact hshort _ hkind
    | cons second after =>
      simp only at hkind ⊢
      split at hkind
      · rw [if_pos ‹_›]; exact hplain _ hkind
      · rw [if_neg ‹_›]; exact hshort _ hkind

theorem operator?_isSome_of_mem_scanChars {text : List Char} {token : Token}
    (hmem : token ∈ scanChars text) (hkind : token.kind = .comparison) :
    token.operator?.isSome := by
  fun_induction scanChars text with
  | case1 => simp at hmem
  | case2 c rest _ ih => exact ih hmem
  | case3 c rest _ ih =>
    rcases List.mem_cons.1 hmem with rfl | hrest
    · exact operator?_isSome_of_scanOne hkind
    · exact ih hrest

theorem operator?_isSome_of_mem_scan {text : String} {token : Token} (hmem : token ∈ scan text)
    (hkind : token.kind = .comparison) : token.operator?.isSome :=
  operator?_isSome_of_mem_scanChars hmem hkind

end Token

end DisplayFilter
