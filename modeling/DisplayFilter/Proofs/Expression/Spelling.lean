import DisplayFilter.Proofs.Expression.Bare
import DisplayFilter.Proofs.Expression.Negation
import DisplayFilter.Proofs.Expression.Offset
import DisplayFilter.Proofs.Expression.Spacing
/-!
# Spellings

Connectives, negations and operators can be written in any of their spellings (`ofText_respelled`). A spelling
in place of a token is scanned as one token of the same kind, since it is a word or a symbol as a whole, so the
texts of the tokens with blanks between them have the same kinds of tokens again. A reading looks at the kind
of a connective or negation and at nothing else of it, and at the operator that a comparison spells where it
waits for one. So both texts take it through the same states, token by token.
-/

namespace DisplayFilter

namespace Token

/-! ### Spellings are tokens -/

/-- Only letters have capitals. -/
theorem toLower_of_not_isWordChar {c : Char} (hword : isWordChar c = false) : c.toLower = c := by
  delta Char.toLower
  refine dif_neg fun hcapital => ?_
  have hletter : c.isAlphanum = true := by
    delta Char.isAlphanum Char.isAlpha Char.isUpper
    rw [decide_eq_true hcapital, Bool.true_or, Bool.true_or]
  rw [isWordChar_of_isAlphanum hletter] at hword
  cases hword

/-- A symbol of one character or of two. -/
def isSymbolText : List Char → Bool
  | [c] => isSpecial c && c != '"'
  | [first, second] => isDoubleSymbol first second
  | _ => false

theorem lexeme_of_isSymbolText {text : List Char} (hsymbol : isSymbolText text = true) : Lexeme text [] := by
  unfold isSymbolText at hsymbol
  split at hsymbol
  · rw [Bool.and_eq_true, bne_iff_ne] at hsymbol
    exact .single hsymbol.1 hsymbol.2 nofun
  · exact .double hsymbol
  · cases hsymbol

/-- A character that is no small letter. -/
def isCaseless (c : Char) : Bool :=
  c.toNat < 97 || 122 < c.toNat

/-- Every spelling is a word, or a symbol without letters. -/
theorem spelling_cases {kind : TokenKind} : ∀ spelling ∈ kind.spellings, spelling.toList ≠ [] ∧
    (spelling.toList.all isWordChar = true ∨
      spelling.toList.all isCaseless = true ∧ isSymbolText spelling.toList = true) := by
  cases kind <;> decide

/-- A spelling in any letter case is one token. -/
theorem lexeme_of_spelling {kind : TokenKind} {word : String}
    (hspelling : Text.lower word ∈ kind.spellings) : Lexeme word.toList [] := by
  obtain ⟨hne, hcases⟩ := spelling_cases _ hspelling
  have hlower : (Text.lower word).toList = word.toList.map Char.toLower := by
    simp [Text.lower]
  rw [hlower] at hne hcases
  rcases hcases with hword | ⟨hcaseless, hsymbol⟩
  · refine .word (by simpa using hne) (fun c hc => ?_) delimited_nil
    have hsmall := List.all_eq_true.1 hword c.toLower (List.mem_map_of_mem hc)
    by_contra hnot
    rw [toLower_of_not_isWordChar (Bool.eq_false_iff.2 hnot)] at hsmall
    exact hnot hsmall
  · have hsame : word.toList.map Char.toLower = word.toList := by
      refine (List.map_congr_left fun c hc => ?_).trans (List.map_id word.toList)
      have hlow := List.all_eq_true.1 hcaseless c.toLower (List.mem_map_of_mem hc)
      rw [isCaseless, Bool.or_eq_true, decide_eq_true_eq, decide_eq_true_eq] at hlow
      exact (toLower_eq_self_of_lt rfl hlow).symm
    rw [hsame] at hsymbol
    exact lexeme_of_isSymbolText hsymbol

theorem scan_spelling {kind : TokenKind} {word : String} (hspelling : Text.lower word ∈ kind.spellings) :
    scan word = [⟨kind, word⟩] := by
  have hkind : kind ≠ .atom := by
    rintro rfl
    cases hspelling
  have hscan := (lexeme_of_spelling hspelling).scanChars_append
  rw [List.append_nil, scanChars_nil] at hscan
  rw [scan, hscan, plain, String.ofList_toList, (TokenKind.ofText_eq_iff hkind).2 hspelling]

theorem not_isUnclosed_spelling {kind : TokenKind} {word : String}
    (hspelling : Text.lower word ∈ kind.spellings) : ¬ IsUnclosed word.toList := by
  rintro ⟨body, hword, -⟩
  refine TokenKind.head?_ne_of_mem_spellings _ hspelling ?_
  simp only [Text.lower, String.toList_ofList, hword]
  rfl

end Token

namespace Reading

open Token

/-- The token at a place is read as the operator of the field right in front of it. -/
def ReadsOperator (tokens : List Token) (i : Nat) : Prop :=
  ∃ state field token, (State.start 1).feedAll (tokens.take i) = .ok state ∧ state.halted = false ∧
    state.pending = .field field ∧ tokens[i]? = some token ∧ token.kind = .comparison

/-- What may be written in the place of a token: a connective, a negation or an operator in any spelling, in any
letter case, and everything else as it was. -/
inductive Respells (tokens : List Token) (i : Nat) (token : Token) : String → Prop where
  | same : Respells tokens i token token.text
  | modifier {word : String} (hmodifier : token.isModifier = true)
      (hspelling : Text.lower word ∈ token.kind.spellings) : Respells tokens i token word
  | operator {word : String} (hreads : ReadsOperator tokens i)
      (hspelling : Operator.ofSpelling? (Text.lower word) = token.operator?) : Respells tokens i token word

/-- The words are the texts of the tokens, some of them respelled. -/
structure Respelling (tokens : List Token) (words : List String) : Prop where
  length : words.length = tokens.length
  word (i : Nat) (hi : i < tokens.length) (hword : i < words.length) :
    Respells tokens i tokens[i] words[i]

/-- The token that a word in the place of another token is. -/
def respelled (token : Token) (word : String) : Token :=
  ⟨token.kind, word⟩

/-! ### Readings of respelled tokens -/

/-- Tokens that are taken alike one by one are read alike. -/
theorem State.feedAll_congr {state : State} {left right : List Token} (hlength : left.length = right.length)
    (hfeed : ∀ i (hleft : i < left.length) (hright : i < right.length) (before : State),
      state.feedAll (left.take i) = .ok before → before.feed left[i] = before.feed right[i]) :
    state.feedAll left = state.feedAll right := by
  induction left generalizing state right with
  | nil =>
    cases right with
    | nil => rfl
    | cons => cases hlength
  | cons token left ih =>
    cases right with
    | nil => cases hlength
    | cons other right =>
      have hfirst : state.feed token = state.feed other := hfeed 0 (by simp) (by simp) state rfl
      rw [feedAll_cons, feedAll_cons, ← hfirst]
      cases hnext : state.feed token with
      | error fault => rfl
      | ok next =>
        refine ih (Nat.succ.inj hlength) fun i hleft hright before hbefore => ?_
        refine hfeed (i + 1) (Nat.succ_lt_succ hleft) (Nat.succ_lt_succ hright) before ?_
        rw [List.take_succ_cons, feedAll_cons, hnext]
        exact hbefore

theorem ReadsOperator.exists_operator {tokens : List Token} (hknown : KnowsComparisons tokens) {i : Nat}
    (hi : i < tokens.length) (hreads : ReadsOperator tokens i) :
    tokens[i].kind = .comparison ∧ ∃ operator, tokens[i].operator? = some operator := by
  obtain ⟨_, _, token, _, _, _, htoken, hkind⟩ := hreads
  obtain rfl : tokens[i] = token := Option.some.inj ((List.getElem?_eq_getElem hi).symm.trans htoken)
  exact ⟨hkind, Option.isSome_iff_exists.1 (hknown _ (List.getElem_mem hi) hkind)⟩

section Respelled

variable {tokens : List Token} {i : Nat} (hi : i < tokens.length) {word : String}

theorem Respells.feed_eq (hknown : KnowsComparisons tokens) (hrespells : Respells tokens i tokens[i] word)
    {before : State} (hbefore : (State.start 1).feedAll (tokens.take i) = .ok before) :
    before.feed tokens[i] = before.feed (respelled tokens[i] word) := by
  cases hrespells with
  | same => rfl
  | modifier hmodifier =>
    refine before.feed_congr rfl ?_
    simp only [isModifier, isWord] at hmodifier ⊢
    cases hkind : tokens[i].kind <;> simp_all
  | operator hreads hspelling =>
    obtain ⟨hkind, operator, hoperator⟩ := hreads.exists_operator hknown hi
    obtain ⟨state, field, _, hstate, hactive, hpending, _⟩ := hreads
    obtain rfl : before = state := Except.ok.inj (hbefore.symm.trans hstate)
    have hkind' : (respelled tokens[i] word).kind = .comparison := hkind
    have hoperator' : (respelled tokens[i] word).operator? = some operator := hspelling.trans hoperator
    rw [State.feed_operator hactive hpending hkind hoperator,
      State.feed_operator hactive hpending hkind' hoperator']

/-- What is not the token itself is one of the spellings of its kind. -/
theorem Respells.eq_or_mem_spellings (hknown : KnowsComparisons tokens)
    (hrespells : Respells tokens i tokens[i] word) :
    word = tokens[i].text ∨ Text.lower word ∈ tokens[i].kind.spellings := by
  cases hrespells with
  | same => exact .inl rfl
  | modifier _ hspelling => exact .inr hspelling
  | operator hreads hspelling =>
    obtain ⟨hkind, operator, hoperator⟩ := hreads.exists_operator hknown hi
    rw [hkind]
    refine .inr (TokenKind.isSome_ofSpelling?_iff.1 ?_)
    rw [hspelling, hoperator]
    rfl

theorem Respells.scan_text {text : String} {i : Nat} (hi : i < (scan text).length)
    (hrespells : Respells (scan text) i (scan text)[i] word) :
    scan word = [respelled (scan text)[i] word] := by
  rcases hrespells.eq_or_mem_spellings hi (knowsComparisons_scan text) with rfl | hspelling
  · exact scan_text_of_mem_scan (List.getElem_mem hi)
  · exact scan_spelling hspelling

theorem Respells.not_isUnclosed {text : String} {i : Nat} (hi : i < (scan text).length)
    (hrespells : Respells (scan text) i (scan text)[i] word)
    (hclosed : ¬ IsUnclosed (scan text)[i].text.toList) : ¬ IsUnclosed word.toList := by
  rcases hrespells.eq_or_mem_spellings hi (knowsComparisons_scan text) with rfl | hspelling
  · exact hclosed
  · exact not_isUnclosed_spelling hspelling

end Respelled

namespace Respelling

variable {tokens : List Token} {words : List String}

theorem feedAll_eq (hwords : Respelling tokens words) (hknown : KnowsComparisons tokens) :
    (State.start 1).feedAll tokens = (State.start 1).feedAll (List.zipWith respelled tokens words) := by
  refine State.feedAll_congr ?_ fun i hleft hright before hbefore => ?_
  · simp [hwords.length]
  · rw [List.getElem_zipWith]
    exact (hwords.word i hleft (hwords.length ▸ hleft)).feed_eq hleft hknown hbefore

/-- The words with blanks between them are scanned as the tokens in whose places they are. -/
theorem scan_intercalate {text : String} (hwords : Respelling (scan text) words) :
    scan (" ".intercalate words) = List.zipWith respelled (scan text) words := by
  have htexts : (List.zipWith respelled (scan text) words).map (·.text) = words := by
    refine List.ext_getElem (by simp [hwords.length]) fun i _ hi => ?_
    simp [respelled]
  have hgap : Text.IsGap " " := by
    refine ⟨by decide, fun c hc => ?_⟩
    obtain rfl : c = ' ' := List.mem_singleton.1 hc
    rfl
  have hscan : scan (spaced (fun _ => " ") (List.zipWith respelled (scan text) words)) =
      List.zipWith respelled (scan text) words := by
    refine scan_spaced (fun _ => hgap) (fun token htoken => ?_) fun token htoken => ?_
    · obtain ⟨i, hi, rfl⟩ := List.mem_iff_getElem.1 htoken
      rw [List.length_zipWith] at hi
      rw [List.getElem_zipWith]
      exact (hwords.word i (by omega) (by omega)).scan_text (by omega)
    · obtain ⟨i, hi, rfl⟩ := List.mem_iff_getElem.1 htoken
      rw [List.length_dropLast, List.length_zipWith] at hi
      rw [List.getElem_dropLast, List.getElem_zipWith]
      refine (hwords.word i (by omega) (by omega)).not_isUnclosed (by omega) ?_
      have hdrop : i < (scan text).dropLast.length := by
        rw [List.length_dropLast]
        omega
      rw [← List.getElem_dropLast hdrop]
      exact not_isUnclosed_of_mem_dropLast (List.getElem_mem hdrop)
  rwa [spaced_eq_intercalate, htexts] at hscan

end Respelling

/-- Connectives and negations in any of their spellings, and operators in any of theirs where they are read as
operators: the texts of the tokens with a blank between them are read as the text they come from. -/
theorem ofText_respelled {text : String} {words : List String} (hwords : Respelling (scan text) words)
    (firstId : Int) : ofText (" ".intercalate words) firstId = ofText text firstId := by
  have hread : ofText (" ".intercalate words) 1 = ofText text 1 := by
    refine Except.ok.inj (ε := UnknownOperator) ?_
    rw [← ofTokens_scan, ← ofTokens_scan, hwords.scan_intercalate, ofTokens, ofTokens,
      hwords.feedAll_eq (knowsComparisons_scan text)]
  have hfirst : firstId = 1 + (firstId - 1) := by omega
  rw [hfirst, ofText_add, ofText_add, hread]

theorem ofText_respelled_negated_match :
    Respelling (scan "!eq~ge&&\"x y") ["not", "eq", "Matches", "ge", "AND", "\"x y"] ∧
      ofText (" ".intercalate ["not", "eq", "Matches", "ge", "AND", "\"x y"]) 3 = ofText "!eq~ge&&\"x y" 3 := by
  have hwords : Respelling (scan "!eq~ge&&\"x y") ["not", "eq", "Matches", "ge", "AND", "\"x y"] := by
    have hscan : scan "!eq~ge&&\"x y" = [⟨.not, "!"⟩, ⟨.comparison, "eq"⟩, ⟨.comparison, "~"⟩,
        ⟨.comparison, "ge"⟩, ⟨.and, "&&"⟩, ⟨.atom, "\"x y"⟩] := by
      decide +kernel
    have hnegation : Text.lower "not" ∈ TokenKind.not.spellings := by decide
    have hconjunction : Text.lower "AND" ∈ TokenKind.and.spellings := by decide
    have hmatch : Operator.ofSpelling? (Text.lower "Matches") = Operator.ofSpelling? (Text.lower "~") := by
      decide
    rw [hscan]
    refine ⟨rfl, fun i hi _ => ?_⟩
    match i, hi with
    | 0, _ => exact .modifier rfl hnegation
    | 1, _ => exact .same
    | 2, _ => exact .operator ⟨_, _, _, rfl, rfl, rfl, rfl, rfl⟩ hmatch
    | 3, _ => exact .same
    | 4, _ => exact .modifier rfl hconjunction
    | 5, _ => exact .same
  exact ⟨hwords, ofText_respelled hwords 3⟩

end Reading

end DisplayFilter
