import DisplayFilter.Expression.Parser
import DisplayFilter.Proofs.Expression.Munch
/-!
# Blanks between tokens

Blanks outside strings part an expression: what stands before them and what stands behind them are scanned
apart (`scan_append`). For no lexeme goes on over a blank, except a string that is still open, and such a
string is the last lexeme of its text. So the tokens of a text can be written with any blanks between them,
and the new text has the same tokens and the same reading.
-/

namespace DisplayFilter

/-- A text of blanks, at least one. -/
structure Text.IsGap (text : String) : Prop where
  nonempty : text ≠ ""
  blank : ∀ c ∈ text.toList, Text.isBlank c = true

namespace Token

/-- A string that no quote closes. -/
def IsUnclosed (text : List Char) : Prop :=
  ∃ body, text = '"' :: body ∧ QuotesEscaped body

/-- The last token of a text is a string that no quote closes. -/
def EndsInString (text : String) : Prop :=
  ∃ token, (scan text).getLast? = some token ∧ IsUnclosed token.text.toList

/-- The texts of tokens with the gaps between them. -/
def spaced : (Nat → String) → List Token → String
  | _, [] => ""
  | _, [token] => token.text
  | gaps, token :: next :: rest =>
    token.text ++ gaps 0 ++ spaced (fun i => gaps (i + 1)) (next :: rest)

theorem spaced_eq_intercalate (gap : String) (tokens : List Token) :
    spaced (fun _ => gap) tokens = gap.intercalate (tokens.map (·.text)) := by
  induction tokens with
  | nil => rfl
  | cons token tokens ih =>
    cases tokens with
    | nil => exact String.intercalate_singleton.symm
    | cons next tokens =>
      rw [spaced, ih]
      exact String.intercalate_cons_cons.symm

/-! ### Lexemes before blanks -/

theorem endsInEscape_of_isUnclosed {inner : List Char} (hopen : IsUnclosed ('"' :: (inner ++ ['"']))) :
    endsInEscape inner = true := by
  obtain ⟨body, heq, hall⟩ := hopen
  exact hall inner [] (List.cons.inj heq).2.symm

theorem not_isUnclosed_cons {c : Char} (hquote : c ≠ '"') (text : List Char) :
    ¬ IsUnclosed (c :: text) := by
  rintro ⟨body, heq, _⟩
  exact hquote (List.cons.inj heq).1

namespace Lexeme

variable {text rest : List Char}

/-- A string without an end has nothing behind it. -/
theorem not_isUnclosed (hlexeme : Lexeme text rest) (hrest : rest ≠ []) : ¬ IsUnclosed text := by
  cases hlexeme with
  | closed _ hends =>
    intro hopen
    rw [endsInEscape_of_isUnclosed hopen] at hends
    cases hends
  | unclosed => exact absurd rfl hrest
  | double hdouble => exact not_isUnclosed_cons (isSpecial_of_isDoubleSymbol hdouble).1.2 _
  | word _ hword =>
    rintro ⟨body, rfl, _⟩
    cases hword '"' List.mem_cons_self
  | single _ hquote => exact not_isUnclosed_cons hquote _

theorem alone (hlexeme : Lexeme text rest) : Lexeme text [] :=
  of_append (show Lexeme text ([] ++ rest) from hlexeme)

/-- A lexeme stays one where blanks follow the rest. -/
theorem append (hlexeme : Lexeme text rest) (hclosed : ¬ IsUnclosed text) {c : Char}
    (hblank : Text.isBlank c = true) (tail : List Char) : Lexeme text (rest ++ c :: tail) := by
  -- what stands right behind the lexeme is as before, or it is the blank
  have hhead : ∀ d, (rest ++ c :: tail).head? = some d → d = c ∨ rest.head? = some d := by
    intro d hd
    cases rest with
    | nil => exact .inl (Option.some.inj hd).symm
    | cons => exact .inr hd
  cases hlexeme with
  | closed hinner hends => exact .closed hinner hends
  | unclosed hall => exact absurd ⟨_, rfl, hall⟩ hclosed
  | double hdouble => exact .double hdouble
  | word hne hword hrest =>
    refine .word hne hword fun d hd => ?_
    rcases hhead d hd with rfl | hd
    · simp [isWordChar, hblank]
    · exact hrest d hd
  | single hspecial hquote hsingle =>
    refine .single hspecial hquote fun d hd => ?_
    rcases hhead d hd with rfl | hd
    · refine Bool.eq_false_iff.2 fun hdouble => ?_
      rw [isBlank_eq_false_of_isSpecial (isSpecial_of_isDoubleSymbol hdouble).2] at hblank
      cases hblank
    · exact hsingle d hd

end Lexeme

/-! ### Tokens before blanks -/

theorem append_assemble_ne_nil (gap : List Char) {piece : Token × List Char}
    {pieces : List (Token × List Char)} (hcut : Cut (piece :: pieces)) :
    gap ++ assemble (piece :: pieces) ≠ [] := by
  intro hnil
  rw [assemble_cons, List.append_eq_nil_iff, List.append_eq_nil_iff] at hnil
  exact hcut.1.nonempty hnil.2.1

/-- Tokens are cut off alike where a blank follows them, unless the last of them is an open string. -/
theorem scanChars_assemble_append {pieces : List (Token × List Char)} (hcut : Cut pieces)
    (hclosed : ∀ token, (pieces.map (·.1)).getLast? = some token → ¬ IsUnclosed token.text.toList)
    {c : Char} (hblank : Text.isBlank c = true) (tail : List Char) :
    scanChars (assemble pieces ++ c :: tail) = pieces.map (·.1) ++ scanChars (c :: tail) := by
  induction pieces with
  | nil => rfl
  | cons piece pieces ih =>
    obtain ⟨token, gap⟩ := piece
    obtain ⟨hmunch, hgap, hcut⟩ := hcut
    have hends : ¬ IsUnclosed token.text.toList := by
      cases pieces with
      | nil => exact hclosed token rfl
      | cons next pieces => exact hmunch.lexeme.not_isUnclosed (append_assemble_ne_nil gap hcut)
    have hlater : ∀ last, (pieces.map (·.1)).getLast? = some last → ¬ IsUnclosed last.text.toList := by
      intro last hlast
      refine hclosed last ?_
      rw [List.map_cons, List.getLast?_cons, hlast, Option.getD_some]
    have hlexeme := hmunch.lexeme.append hends hblank tail
    rw [assemble_cons, List.append_assoc, hlexeme.scanChars_append, hmunch.eq_plain,
      List.append_assoc, scanChars_blanks hgap, ih hcut hlater, List.map_cons, List.cons_append]

theorem scan_append {left gap : String} (hgap : Text.IsGap gap) (hclosed : ¬ EndsInString left)
    (right : String) : scan (left ++ gap ++ right) = scan left ++ scan right := by
  obtain ⟨front, pieces, hfront, hleft, hcut, htokens⟩ := exists_cut left.toList
  have hlast : ∀ token, (pieces.map (·.1)).getLast? = some token → ¬ IsUnclosed token.text.toList := by
    intro token htoken hopen
    rw [htokens] at htoken
    exact hclosed ⟨token, htoken, hopen⟩
  obtain ⟨c, blanks, hchars⟩ : ∃ c blanks, gap.toList = c :: blanks :=
    List.exists_cons_of_ne_nil fun hnil => hgap.nonempty (String.toList_eq_nil_iff.1 hnil)
  have hblank : Text.isBlank c = true := hgap.blank c (hchars ▸ List.mem_cons_self)
  calc scanChars (left ++ gap ++ right).toList
      = scanChars (front ++ (assemble pieces ++ c :: (blanks ++ right.toList))) := by
        rw [String.toList_append, String.toList_append, hleft, hchars]
        simp
    _ = pieces.map (·.1) ++ scanChars (gap.toList ++ right.toList) := by
        rw [scanChars_blanks hfront, scanChars_assemble_append hcut hlast hblank, hchars,
          List.cons_append]
    _ = scanChars left.toList ++ scanChars right.toList := by
        rw [htokens, scanChars_blanks hgap.blank]

/-! ### Spaced tokens -/

/-- By itself a token is scanned as the same token. -/
theorem Munch.scan_text {token : Token} {rest : List Char} (hmunch : token.Munch rest) :
    scan token.text = [token] := by
  have hscan := hmunch.lexeme.alone.scanChars_append
  rwa [List.append_nil, scanChars_nil, hmunch.eq_plain] at hscan

/-- Tokens that are each scanned alone are scanned alike with gaps between them, if only the last of them can
be an open string. -/
theorem scan_spaced {gaps : Nat → String} (hgaps : ∀ i, Text.IsGap (gaps i)) {tokens : List Token}
    (halone : ∀ token ∈ tokens, scan token.text = [token])
    (hclosed : ∀ token ∈ tokens.dropLast, ¬ IsUnclosed token.text.toList) :
    scan (spaced gaps tokens) = tokens := by
  induction tokens generalizing gaps with
  | nil => exact scanChars_nil
  | cons token tokens ih =>
    obtain ⟨htoken, halone⟩ := List.forall_mem_cons.1 halone
    cases tokens with
    | nil => exact htoken
    | cons next tokens =>
      rw [List.dropLast_cons_cons, List.forall_mem_cons] at hclosed
      have hends : ¬ EndsInString token.text := by
        rintro ⟨last, hlast, hopen⟩
        rw [htoken] at hlast
        cases hlast
        exact hclosed.1 hopen
      rw [spaced, scan_append (hgaps 0) hends, htoken, ih (fun i => hgaps (i + 1)) halone hclosed.2,
        List.singleton_append]

theorem Cut.scan_text {pieces : List (Token × List Char)} (hcut : Cut pieces) :
    ∀ token ∈ pieces.map (·.1), scan token.text = [token] := by
  induction pieces with
  | nil => exact nofun
  | cons piece pieces ih =>
    obtain ⟨hmunch, _, hcut⟩ := hcut
    exact List.forall_mem_cons.2 ⟨hmunch.scan_text, ih hcut⟩

/-- Only the last token of a text can be an open string. -/
theorem Cut.not_isUnclosed {pieces : List (Token × List Char)} (hcut : Cut pieces) :
    ∀ token ∈ (pieces.map (·.1)).dropLast, ¬ IsUnclosed token.text.toList := by
  induction pieces with
  | nil => exact nofun
  | cons piece pieces ih =>
    obtain ⟨token, gap⟩ := piece
    obtain ⟨hmunch, _, hcut⟩ := hcut
    cases pieces with
    | nil => exact nofun
    | cons next pieces =>
      have hends := hmunch.lexeme.not_isUnclosed (append_assemble_ne_nil gap hcut)
      exact List.forall_mem_cons.2 ⟨hends, ih hcut⟩

theorem scan_text_of_mem_scan {text : String} {token : Token} (htoken : token ∈ scan text) :
    scan token.text = [token] := by
  obtain ⟨front, pieces, _, _, hcut, htokens⟩ := exists_cut text.toList
  exact hcut.scan_text token (htokens ▸ htoken)

theorem not_isUnclosed_of_mem_dropLast {text : String} {token : Token}
    (htoken : token ∈ (scan text).dropLast) : ¬ IsUnclosed token.text.toList := by
  obtain ⟨front, pieces, _, _, hcut, htokens⟩ := exists_cut text.toList
  refine hcut.not_isUnclosed token ?_
  rw [htokens]
  exact htoken

/-- Blanks behind anything but an open string part a text, and a text written anew from its tokens, with any
blanks between them, has the same tokens and the same reading. -/
theorem tokens_free_of_spacing :
    (∀ left gap right : String, Text.IsGap gap → ¬ EndsInString left →
      scan (left ++ gap ++ right) = scan left ++ scan right) ∧
    ∀ (text : String) (gaps : Nat → String), (∀ i, Text.IsGap (gaps i)) →
      scan (spaced gaps (scan text)) = scan text ∧
        ∀ firstId, Reading.ofText (spaced gaps (scan text)) firstId = Reading.ofText text firstId := by
  refine ⟨fun left gap right hgap hclosed => scan_append hgap hclosed right, fun text gaps hgaps => ?_⟩
  have hscan : scan (spaced gaps (scan text)) = scan text :=
    scan_spaced hgaps (fun _ => scan_text_of_mem_scan) fun _ => not_isUnclosed_of_mem_dropLast
  refine ⟨hscan, fun firstId => ?_⟩
  have hreading := Reading.ofTokens_scan (spaced gaps (scan text)) firstId
  rw [hscan, Reading.ofTokens_scan] at hreading
  exact (Except.ok.inj hreading).symm

/-- The string with the escaped quote is closed in the first text and open in the second. Without the blank
the exclamation mark would join the first of the equals signs. -/
theorem tokens_free_of_spacing_escaped :
    Text.IsGap "\u3000" ∧ ¬ EndsInString "a==\"x\\\" y\"!" ∧
      scan ("a==\"x\\\" y\"!" ++ "\u3000" ++ "== b") = scan "a==\"x\\\" y\"!" ++ scan "== b" ∧
      scan (spaced (fun _ => "\u3000") (scan "a==\"x\\\" y")) = scan "a==\"x\\\" y" ∧
      Reading.ofText (spaced (fun _ => "\u3000") (scan "a==\"x\\\" y")) 1 =
        Reading.ofText "a==\"x\\\" y" 1 := by
  have hgap : Text.IsGap "\u3000" := by
    refine ⟨by decide, fun c hc => ?_⟩
    obtain rfl : c = '\u3000' := List.mem_singleton.1 hc
    rfl
  have hclosed : ¬ EndsInString "a==\"x\\\" y\"!" := by
    rintro ⟨token, hlast, hopen⟩
    have hnot : (scan "a==\"x\\\" y\"!").getLast? = some ⟨.not, "!"⟩ := by decide +kernel
    cases hnot.symm.trans hlast
    exact not_isUnclosed_cons (by decide) [] hopen
  obtain ⟨hscan, hreading⟩ := tokens_free_of_spacing.2 "a==\"x\\\" y" _ fun _ => hgap
  exact ⟨hgap, hclosed, tokens_free_of_spacing.1 _ _ "== b" hgap hclosed, hscan, hreading 1⟩

end Token

end DisplayFilter
