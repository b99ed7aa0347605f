import Mathlib.Data.List.TakeWhile
import DisplayFilter.Proofs.Expression.Lexeme
/-!
# How a text is cut into tokens

A text is its tokens with blanks between them, and no other run of tokens takes as much as it can at every
place (`scan_eq_iff`). `Munch` says what taking as much as it can means for one token in front of the rest of
the text. It has a rule for strings, for words and for symbols, and one for the kind, and does not mention the
scanner. The forms a token can have (`Lexeme`) stand between the two: the scanner takes a lexeme at each
turn, a lexeme is taken whole, and the rules of `Munch` leave no other form.
-/

namespace DisplayFilter

namespace TokenKind

/-- The spellings of a kind of token, in small letters. Every other text is an atom. -/
def spellings : TokenKind → List String
  | .and => ["&&", "and"]
  | .or => ["||", "or"]
  | .leftParen => ["("]
  | .rightParen => [")"]
  | .not => ["!", "not"]
  | .comparison => Operator.spellings.map (·.1)
  | .atom => []

theorem isSome_ofSpelling?_iff {word : String} :
    (Operator.ofSpelling? word).isSome = true ↔ word ∈ spellings .comparison := by
  simp only [Operator.ofSpelling?, List.lookup_isSome_iff, spellings, List.mem_map, beq_iff_eq]
  exact ⟨fun ⟨entry, hentry, heq⟩ => ⟨entry, hentry, heq.symm⟩,
    fun ⟨entry, hentry, heq⟩ => ⟨entry, hentry, heq.symm⟩⟩

theorem ofText_eq_iff {text : String} {kind : TokenKind} (hkind : kind ≠ .atom) :
    ofText text = kind ↔ Text.lower text ∈ kind.spellings := by
  unfold ofText
  generalize Text.lower text = word
  split
  -- the last case is a text that is no combinator, parenthesis or negation
  case h_9 =>
    cases kind with
    | atom => exact absurd rfl hkind
    | comparison =>
      rw [← isSome_ofSpelling?_iff]
      split <;> simp [*]
    | _ => split <;> simp_all [spellings]
  all_goals cases kind <;> first | exact absurd rfl hkind | decide

theorem head?_ne_of_mem_spellings {kind : TokenKind} :
    ∀ word ∈ kind.spellings, word.toList.head? ≠ some '"' := by
  cases kind <;> decide

/-- What begins with a quote spells nothing. -/
theorem ofText_quoted {text : String} (hquoted : text.toList.head? = some '"') :
    ofText text = .atom := by
  by_contra hkind
  refine head?_ne_of_mem_spellings _ ((ofText_eq_iff hkind).1 rfl) ?_
  simp only [Text.lower, String.toList_ofList, List.head?_map, hquoted]
  rfl

end TokenKind

namespace Token

/-! ### Quotes and backslashes -/

/-- Every quote in the text is consumed by a backslash. -/
def QuotesEscaped (text : List Char) : Prop :=
  ∀ front back, text = front ++ '"' :: back → endsInEscape front = true

theorem quotesEscaped_nil : QuotesEscaped [] := by
  intro front back heq
  cases front <;> cases heq

theorem not_quotesEscaped_quote (text : List Char) : ¬ QuotesEscaped ('"' :: text) := by
  intro hall
  cases hall [] text rfl

theorem quotesEscaped_cons {c : Char} {text : List Char} (hquote : c ≠ '"') (hbackslash : c ≠ '\\') :
    QuotesEscaped (c :: text) ↔ QuotesEscaped text := by
  constructor
  · intro hall front back heq
    rw [← endsInEscape_cons hbackslash]
    exact hall (c :: front) back (by rw [heq]; rfl)
  · intro hall front back heq
    cases front with
    | nil => exact absurd (List.cons.inj heq).1 hquote
    | cons first front =>
      obtain ⟨rfl, hrest⟩ := List.cons.inj heq
      rw [endsInEscape_cons hbackslash]
      exact hall front back hrest

theorem quotesEscaped_pair {c : Char} {text : List Char} :
    QuotesEscaped ('\\' :: c :: text) ↔ QuotesEscaped text := by
  constructor
  · intro hall front back heq
    rw [← endsInEscape_pair c]
    exact hall ('\\' :: c :: front) back (by rw [heq]; rfl)
  · intro hall front back heq
    match front with
    | [] => cases heq
    | [first] =>
      obtain ⟨hfirst, _⟩ := List.cons.inj heq
      rw [← hfirst]
      rfl
    | first :: second :: front =>
      obtain ⟨hfirst, heq⟩ := List.cons.inj heq
      rw [← hfirst, endsInEscape_pair]
      exact hall front back (List.cons.inj heq).2

/-- A text is a quote and more, a backslash alone, or a character, escaped or not, and more. -/
theorem cutString_induction {motive : List Char → Prop} (nil : motive [])
    (quote : ∀ text, motive ('"' :: text)) (backslash : motive ['\\'])
    (pair : ∀ c text, motive text → motive ('\\' :: c :: text))
    (cons : ∀ c text, c ≠ '"' → c ≠ '\\' → motive text → motive (c :: text)) (text : List Char) :
    motive text := by
  induction text using cutString.induct with
  | case1 => exact nil
  | case2 text => exact quote text
  | case3 c text _ _ _ ih => exact pair c text ih
  | case4 c text hquote hpair _ _ _ ih =>
    by_cases hbackslash : c = '\\'
    · obtain rfl : text = [] := by
        cases text with
        | nil => rfl
        | cons second text => exact (hpair second text hbackslash rfl).elim
      rw [hbackslash]
      exact backslash
    · exact cons c text hquote hbackslash ih

theorem cutString_of_closed {inner : List Char} (hinner : QuotesEscaped inner)
    (hends : endsInEscape inner = false) (rest : List Char) :
    cutString (inner ++ '"' :: rest) = (inner ++ ['"'], rest) := by
  induction inner using cutString_induction with
  | nil => rfl
  | quote inner => exact absurd hinner (not_quotesEscaped_quote inner)
  | backslash => cases hends
  | pair c inner ih =>
    rw [endsInEscape_pair] at hends
    simp [cutString, ih (quotesEscaped_pair.1 hinner) hends]
  | cons c inner hquote hbackslash ih =>
    rw [endsInEscape_cons hbackslash] at hends
    simp [cutString, hbackslash, ih ((quotesEscaped_cons hquote hbackslash).1 hinner) hends]

theorem cutString_of_unclosed {inner : List Char} (hinner : QuotesEscaped inner) :
    cutString inner = (inner, []) := by
  induction inner using cutString_induction with
  | nil => rfl
  | quote inner => exact absurd hinner (not_quotesEscaped_quote inner)
  | backslash => rfl
  | pair c inner ih => simp [cutString, ih (quotesEscaped_pair.1 hinner)]
  | cons c inner hquote hbackslash ih =>
    simp [cutString, hbackslash, ih ((quotesEscaped_cons hquote hbackslash).1 hinner)]

/-- A string ends at the first quote no backslash consumes, or takes all there is. -/
theorem cutString_cases (text : List Char) :
    (∃ inner rest, text = inner ++ '"' :: rest ∧ QuotesEscaped inner ∧ endsInEscape inner = false) ∨
      QuotesEscaped text := by
  induction text using cutString_induction with
  | nil => exact .inr quotesEscaped_nil
  | quote text => exact .inl ⟨[], text, rfl, quotesEscaped_nil, rfl⟩
  | backslash =>
    refine .inr fun front back heq => ?_
    cases front with
    | nil => cases heq
    | cons first front => cases front <;> cases heq
  | pair c text ih =>
    rcases ih with ⟨inner, rest, rfl, hinner, hends⟩ | hall
    · exact .inl ⟨'\\' :: c :: inner, rest, rfl, quotesEscaped_pair.2 hinner,
        (endsInEscape_pair c inner).trans hends⟩
    · exact .inr (quotesEscaped_pair.2 hall)
  | cons c text hquote hbackslash ih =>
    rcases ih with ⟨inner, rest, rfl, hinner, hends⟩ | hall
    · exact .inl ⟨c :: inner, rest, rfl, (quotesEscaped_cons hquote hbackslash).2 hinner,
        (endsInEscape_cons hbackslash inner).trans hends⟩
    · exact .inr ((quotesEscaped_cons hquote hbackslash).2 hall)

/-! ### Lexemes -/

/-- The characters a token can have in front of a rest of the text. -/
inductive Lexeme : List Char → List Char → Prop where
  | closed {inner rest : List Char} (hinner : QuotesEscaped inner) (hends : endsInEscape inner = false) :
      Lexeme ('"' :: (inner ++ ['"'])) rest
  | unclosed {inner : List Char} (hinner : QuotesEscaped inner) : Lexeme ('"' :: inner) []
  | double {first second : Char} {rest : List Char} (hdouble : isDoubleSymbol first second = true) :
      Lexeme [first, second] rest
  | word {text rest : List Char} (hne : text ≠ []) (hword : ∀ c ∈ text, isWordChar c = true)
      (hrest : Delimited rest) : Lexeme text rest
  | single {c : Char} {rest : List Char} (hspecial : isSpecial c = true) (hquote : c ≠ '"')
      (hsingle : ∀ second, rest.head? = some second → isDoubleSymbol c second = false) :
      Lexeme [c] rest

theorem plain_quoted (inner : List Char) : plain ('"' :: inner) = ofLiteral ('"' :: inner) := by
  have hquoted : (String.ofList ('"' :: inner)).toList.head? = some '"' := by
    rw [String.toList_ofList, List.head?_cons]
  rw [plain, ofLiteral, TokenKind.ofText_quoted hquoted]

/-- A lexeme is taken as one token. -/
theorem Lexeme.scanChars_append {text rest : List Char} (hlexeme : Lexeme text rest) :
    scanChars (text ++ rest) = plain text :: scanChars rest := by
  cases hlexeme with
  | @closed inner _ hinner hends =>
    rw [plain_quoted, List.cons_append, List.append_assoc, scanChars_cons rfl]
    simp only [scanOne, if_true, List.cons_append, List.nil_append, cutString_of_closed hinner hends]
  | @unclosed inner hinner =>
    rw [plain_quoted, List.append_nil, scanChars_cons rfl]
    simp only [scanOne, if_true, cutString_of_unclosed hinner]
  | double hdouble => exact scanChars_double hdouble
  | word hne hword hrest => exact scanChars_word hne hword hrest
  | single hspecial hquote hsingle =>
    refine scanChars_single hspecial hquote ?_
    rintro second after rfl
    exact hsingle second rfl

/-- What does not begin with a blank begins with a lexeme. -/
theorem exists_lexeme {c : Char} {rest : List Char} (hblank : Text.isBlank c = false) :
    ∃ text after, c :: rest = text ++ after ∧ Lexeme text after := by
  by_cases hquote : c = '"'
  · subst hquote
    rcases cutString_cases rest with ⟨inner, after, rfl, hinner, hends⟩ | hall
    · exact ⟨'"' :: (inner ++ ['"']), after, by simp, .closed hinner hends⟩
    · exact ⟨'"' :: rest, [], by simp, .unclosed hall⟩
  by_cases hspecial : isSpecial c = true
  · cases rest with
    | nil => exact ⟨[c], [], rfl, .single hspecial hquote nofun⟩
    | cons second after =>
      cases hdouble : isDoubleSymbol c second with
      | true => exact ⟨[c, second], after, rfl, .double hdouble⟩
      | false =>
        refine ⟨[c], second :: after, rfl, .single hspecial hquote ?_⟩
        rintro _ ⟨⟩
        exact hdouble
  · have hfirst : isWordChar c = true := isWordChar_eq_true_iff.2 ⟨hblank, by simpa using hspecial⟩
    refine ⟨c :: rest.takeWhile isWordChar, rest.dropWhile isWordChar,
      by rw [List.cons_append, List.takeWhile_append_dropWhile], .word (by simp) ?_ ?_⟩
    · intro d hd
      rcases List.mem_cons.1 hd with rfl | hd
      · exact hfirst
      · exact List.mem_takeWhile_imp hd
    · intro d hd
      have hstops := List.find?_some ((List.find?_not_eq_head?_dropWhile isWordChar rest).trans hd)
      simpa using hstops

/-- A lexeme is one in front of less of the text. -/
theorem Lexeme.of_append {text rest tail : List Char} (hlexeme : Lexeme text (rest ++ tail)) :
    Lexeme text rest := by
  have hhead : ∀ c, rest.head? = some c → (rest ++ tail).head? = some c := by
    intro c hc
    rw [List.head?_append, hc, Option.some_or]
  generalize hbehind : rest ++ tail = behind at hlexeme hhead
  cases hlexeme with
  | closed hinner hends => exact .closed hinner hends
  | unclosed hall =>
    obtain rfl := (List.append_eq_nil_iff.1 hbehind).1
    exact .unclosed hall
  | double hdouble => exact .double hdouble
  | word hne hword hrest => exact .word hne hword fun c hc => hrest c (hhead c hc)
  | single hspecial hquote hsingle =>
    exact .single hspecial hquote fun c hc => hsingle c (hhead c hc)

theorem Lexeme.ne_nil {text rest : List Char} (hlexeme : Lexeme text rest) : text ≠ [] := by
  cases hlexeme with
  | word hne => exact hne
  | _ => exact List.cons_ne_nil _ _

theorem not_isWordChar_of_isSpecial {c : Char} (hspecial : isSpecial c = true) : ¬ isWordChar c = true := by
  intro hword
  rw [(isWordChar_eq_true_iff.1 hword).2] at hspecial
  cases hspecial

theorem Lexeme.isBlank_eq_false {text rest : List Char} (hlexeme : Lexeme text rest)
    (hquote : text.head? ≠ some '"') {c : Char} (hc : c ∈ text) : Text.isBlank c = false := by
  cases hlexeme with
  | closed => exact absurd rfl hquote
  | unclosed => exact absurd rfl hquote
  | double hdouble =>
    obtain ⟨⟨hfirst, _⟩, hsecond⟩ := isSpecial_of_isDoubleSymbol hdouble
    rcases List.mem_cons.1 hc with rfl | hc
    · exact isBlank_eq_false_of_isSpecial hfirst
    · exact isBlank_eq_false_of_isSpecial (List.mem_singleton.1 hc ▸ hsecond)
  | word _ hword => exact (isWordChar_eq_true_iff.1 (hword c hc)).1
  | single hspecial => exact isBlank_eq_false_of_isSpecial (List.mem_singleton.1 hc ▸ hspecial)

theorem Lexeme.cases_quoted {body rest : List Char} (hlexeme : Lexeme ('"' :: body) rest) :
    (∃ inner, body = inner ++ ['"'] ∧ QuotesEscaped inner ∧ endsInEscape inner = false) ∨
      QuotesEscaped body ∧ rest = [] := by
  cases hlexeme with
  | closed hinner hends => exact .inl ⟨_, rfl, hinner, hends⟩
  | unclosed hall => exact .inr ⟨hall, rfl⟩
  | double hdouble => exact absurd rfl (isSpecial_of_isDoubleSymbol hdouble).1.2
  | word _ hword => cases hword '"' List.mem_cons_self
  | single _ hquote => exact absurd rfl hquote

theorem Lexeme.delimited {text rest : List Char} (hlexeme : Lexeme text rest)
    (hplain : ∀ c ∈ text, isSpecial c = false) : Delimited rest := by
  cases hlexeme with
  | closed => cases hplain '"' List.mem_cons_self
  | unclosed => exact delimited_nil
  | @double first _ _ hdouble =>
    have hfirst := hplain first List.mem_cons_self
    rw [(isSpecial_of_isDoubleSymbol hdouble).1.1] at hfirst
    cases hfirst
  | word _ _ hrest => exact hrest
  | @single c _ hspecial =>
    rw [hplain c List.mem_cons_self] at hspecial
    cases hspecial

theorem Lexeme.eq_double {text rest more : List Char} {first second : Char} (hlexeme : Lexeme text rest)
    (heq : text ++ rest = first :: second :: more) (hdouble : isDoubleSymbol first second = true) :
    text = [first, second] := by
  obtain ⟨⟨hspecial, hquote⟩, _⟩ := isSpecial_of_isDoubleSymbol hdouble
  cases hlexeme with
  | closed => exact absurd (List.cons.inj heq).1.symm hquote
  | unclosed => exact absurd (List.cons.inj heq).1.symm hquote
  | double =>
    obtain ⟨rfl, htail⟩ := List.cons.inj heq
    rw [(List.cons.inj htail).1]
  | word hne hword =>
    cases text with
    | nil => exact absurd rfl hne
    | cons c text =>
      obtain ⟨rfl, _⟩ := List.cons.inj heq
      exact absurd (hword c List.mem_cons_self) (not_isWordChar_of_isSpecial hspecial)
  | single _ _ hsingle =>
    obtain ⟨rfl, rfl⟩ := List.cons.inj heq
    rw [hsingle second rfl] at hdouble
    cases hdouble

theorem Lexeme.eq_symbol {text rest : List Char} (hlexeme : Lexeme text rest) {c : Char} (hc : c ∈ text)
    (hspecial : isSpecial c = true) (hquote : text.head? ≠ some '"') :
    text = [c] ∨ ∃ first second, isDoubleSymbol first second = true ∧ text = [first, second] := by
  cases hlexeme with
  | closed => exact absurd rfl hquote
  | unclosed => exact absurd rfl hquote
  | double hdouble => exact .inr ⟨_, _, hdouble, rfl⟩
  | word _ hword => exact absurd (hword c hc) (not_isWordChar_of_isSpecial hspecial)
  | single =>
    obtain rfl := List.mem_singleton.1 hc
    exact .inl rfl

/-! ### Cuts -/

/-- A token takes all it can in front of this rest of the text, and its kind is right. A string holds no quote
but escaped ones before its end, which is a quote no backslash consumes, or the end of the text. -/
structure Munch (token : Token) (rest : List Char) : Prop where
  nonempty : token.text.toList ≠ []
  blank : token.text.toList.head? ≠ some '"' → ∀ c ∈ token.text.toList, Text.isBlank c = false
  quoted : ∀ body, token.text.toList = '"' :: body →
    (∃ inner, body = inner ++ ['"'] ∧ QuotesEscaped inner ∧ endsInEscape inner = false) ∨
      QuotesEscaped body ∧ rest = []
  word : (∀ c ∈ token.text.toList, isSpecial c = false) → Delimited rest
  double : ∀ first second more, token.text.toList ++ rest = first :: second :: more →
    isDoubleSymbol first second = true → token.text.toList = [first, second]
  symbol : ∀ c ∈ token.text.toList, isSpecial c = true → token.text.toList.head? ≠ some '"' →
    token.text.toList = [c] ∨
      ∃ first second, isDoubleSymbol first second = true ∧ token.text.toList = [first, second]
  kind : ∀ kind, kind ≠ .atom → (token.kind = kind ↔ Text.lower token.text ∈ kind.spellings)
  literal : token.text.toList.head? = some '"' → token.kind = .atom

/-- The text that tokens with gaps behind them make. -/
def assemble (pieces : List (Token × List Char)) : List Char :=
  pieces.flatMap fun piece => piece.1.text.toList ++ piece.2

/-- Each token takes all it can, and the gaps are blank. -/
def Cut : List (Token × List Char) → Prop
  | [] => True
  | (token, gap) :: pieces =>
    token.Munch (gap ++ assemble pieces) ∧ (∀ c ∈ gap, Text.isBlank c = true) ∧ Cut pieces

theorem Munch.eq_plain {token : Token} {rest : List Char} (hmunch : token.Munch rest) :
    plain token.text.toList = token := by
  have hkind : TokenKind.ofText token.text = token.kind := by
    by_cases hatom : token.kind = .atom
    · by_contra hne
      have hother : TokenKind.ofText token.text ≠ .atom := fun heq => hne (heq.trans hatom.symm)
      exact hne ((hmunch.kind _ hother).2 ((TokenKind.ofText_eq_iff hother).1 rfl)).symm
    · exact (TokenKind.ofText_eq_iff hatom).2 ((hmunch.kind _ hatom).1 rfl)
  rw [plain, String.ofList_toList, hkind]

theorem Munch.lexeme {token : Token} {rest : List Char} (hmunch : token.Munch rest) :
    Lexeme token.text.toList rest := by
  obtain ⟨hne, hblank, hquoted, hword, hdouble, hsymbol, -, -⟩ := hmunch
  generalize token.text.toList = text at *
  by_cases hquote : text.head? = some '"'
  · obtain ⟨body, rfl⟩ : ∃ body, text = '"' :: body := List.head?_eq_some_iff.1 hquote
    rcases hquoted body rfl with ⟨inner, rfl, hinner, hends⟩ | ⟨hall, rfl⟩
    · exact .closed hinner hends
    · exact .unclosed hall
  -- outside strings a special character stands alone or in a symbol of two characters
  by_cases hplain : ∀ c ∈ text, isSpecial c = false
  · exact .word hne (fun c hc => isWordChar_eq_true_iff.2 ⟨hblank hquote c hc, hplain c hc⟩) (hword hplain)
  · obtain ⟨c, hc, hspecial⟩ : ∃ c ∈ text, isSpecial c = true := by simpa using hplain
    rcases hsymbol c hc hspecial hquote with rfl | ⟨first, second, hboth, rfl⟩
    · refine .single hspecial (fun heq => hquote (by rw [heq]; rfl)) fun second hsecond => ?_
      obtain ⟨more, rfl⟩ := List.head?_eq_some_iff.1 hsecond
      refine Bool.eq_false_iff.2 fun htrue => ?_
      cases hdouble c second more rfl htrue
    · exact .double hboth

theorem Lexeme.munch {token : Token} {rest : List Char} (hlexeme : Lexeme token.text.toList rest)
    (hkind : token.kind = TokenKind.ofText token.text) : token.Munch rest where
  nonempty := hlexeme.ne_nil
  blank hquote _ hc := hlexeme.isBlank_eq_false hquote hc
  quoted body hbody := Lexeme.cases_quoted (hbody ▸ hlexeme)
  word := hlexeme.delimited
  double _ _ _ heq hdouble := hlexeme.eq_double heq hdouble
  symbol _ hc hspecial hquote := hlexeme.eq_symbol hc hspecial hquote
  kind kind hne := by
    rw [hkind]
    exact TokenKind.ofText_eq_iff hne
  literal hquoted := hkind.trans (TokenKind.ofText_quoted hquoted)

theorem assemble_cons (token : Token) (gap : List Char) (pieces : List (Token × List Char)) :
    assemble ((token, gap) :: pieces) = token.text.toList ++ (gap ++ assemble pieces) := by
  simp [assemble]

theorem scanChars_blanks {gap : List Char} (hgap : ∀ c ∈ gap, Text.isBlank c = true)
    (rest : List Char) : scanChars (gap ++ rest) = scanChars rest := by
  induction gap with
  | nil => rfl
  | cons c gap ih =>
    obtain ⟨hblank, hgap⟩ := List.forall_mem_cons.1 hgap
    rw [List.cons_append, scanChars_blank hblank, ih hgap]

/-- Every text is cut into the tokens the scanner finds. -/
theorem exists_cut : (text : List Char) → ∃ front pieces, (∀ c ∈ front, Text.isBlank c = true) ∧
    text = front ++ assemble pieces ∧ Cut pieces ∧ pieces.map (·.1) = scanChars text
  | [] => ⟨[], [], nofun, rfl, trivial, scanChars_nil.symm⟩
  | c :: rest => by
    cases hblank : Text.isBlank c with
    | true =>
      obtain ⟨front, pieces, hfront, hrest, hcut, hscan⟩ := exists_cut rest
      exact ⟨c :: front, pieces, List.forall_mem_cons.2 ⟨hblank, hfront⟩, congrArg (c :: ·) hrest, hcut,
        hscan.trans (scanChars_blank hblank).symm⟩
    | false =>
      obtain ⟨text, after, heq, hlexeme⟩ := exists_lexeme hblank
      have hshorter : after.length < (c :: rest).length := by
        have hpos := List.length_pos_iff.2 hlexeme.ne_nil
        rw [heq, List.length_append]
        omega
      obtain ⟨gap, pieces, hgap, hafter, hcut, hscan⟩ := exists_cut after
      have htext : (plain text).text.toList = text := String.toList_ofList
      have hmunch : (plain text).Munch after := Lexeme.munch (by rwa [htext]) rfl
      refine ⟨[], (plain text, gap) :: pieces, nofun, ?_, ⟨hafter ▸ hmunch, hgap, hcut⟩, ?_⟩
      · rw [heq, hafter, List.nil_append, assemble_cons, htext]
      · rw [heq, hlexeme.scanChars_append, List.map_cons, hscan]
  termination_by text => text.length
  decreasing_by
  · exact hshorter
  · exact Nat.lt_succ_self _

/-- A token that takes all it can is the first one found. -/
theorem Munch.scanChars_append {token : Token} {rest : List Char} (hmunch : token.Munch rest) :
    scanChars (token.text.toList ++ rest) = token :: scanChars rest := by
  rw [hmunch.lexeme.scanChars_append, hmunch.eq_plain]

theorem scanChars_assemble {pieces : List (Token × List Char)} (hcut : Cut pieces) :
    scanChars (assemble pieces) = pieces.map (·.1) := by
  induction pieces with
  | nil => exact scanChars_nil
  | cons piece pieces ih =>
    obtain ⟨token, gap⟩ := piece
    obtain ⟨hmunch, hgap, hcut⟩ := hcut
    rw [assemble_cons, hmunch.scanChars_append, scanChars_blanks hgap, ih hcut, List.map_cons]

/-- A text is its tokens with blanks around them, and each token takes all it can. No other tokens do
that. -/
theorem scan_eq_iff {text : String} {tokens : List Token} :
    scan text = tokens ↔ ∃ front pieces, (∀ c ∈ front, Text.isBlank c = true) ∧
      text.toList = front ++ assemble pieces ∧ Cut pieces ∧ pieces.map (·.1) = tokens := by
  constructor
  · rintro rfl
    exact exists_cut text.toList
  · rintro ⟨front, pieces, hfront, htext, hcut, rfl⟩
    rw [scan, htext, scanChars_blanks hfront, scanChars_assemble hcut]

end Token

end DisplayFilter
