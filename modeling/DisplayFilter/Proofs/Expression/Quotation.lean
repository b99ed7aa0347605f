import DisplayFilter.Proofs.Expression.Munch
/-!
# Strings and what they stand for

A string is read from the left: a backslash takes the character behind it, and every other character but a
quote stands for itself (`Decodes`). So the scanner goes through a string, and it stops at the first quote that
no backslash takes, or at the end of the text (`stopOf`). What a token stands for is found from the other end,
by the number of backslashes before its last quote. Both agree on where the string is closed
(`stripQuotes_eq`), for the backslashes before a quote are paired alike from the left and from the right, and
so a quoted text comes back as it was, whatever is written behind it (`quoted_tokens_decode`).
-/

namespace DisplayFilter.Token

/-- The inside of a string, and what it stands for. -/
inductive Decodes : List Char → List Char → Prop where
  | nil : Decodes [] []
  | plain {c : Char} {inner meaning : List Char} (hquote : c ≠ '"') (hbackslash : c ≠ '\\')
      (hdecodes : Decodes inner meaning) : Decodes (c :: inner) (c :: meaning)
  | escape (c : Char) {inner meaning : List Char} (hdecodes : Decodes inner meaning) :
      Decodes ('\\' :: c :: inner) (unescapeChar c :: meaning)

/-- What ends a string: its closing quote, or the end of the text, with or without a backslash before it that
has nothing to take. -/
inductive Stop where
  | quote
  | backslash
  | nothing
  deriving DecidableEq

namespace Stop

/-- What ends the string in the text. -/
def mark : Stop → List Char
  | .quote => ['"']
  | .backslash => ['\\']
  | .nothing => []

/-- What the end of the string stands for. -/
def kept : Stop → List Char
  | .backslash => ['\\']
  | _ => []

end Stop

/-- What ends the string that has this behind its opening quote. -/
def stopOf : List Char → Stop
  | [] => .nothing
  | '"' :: _ => .quote
  | ['\\'] => .backslash
  | '\\' :: _ :: rest => stopOf rest
  | _ :: rest => stopOf rest

theorem stopOf_cons {c : Char} (hquote : c ≠ '"') (hbackslash : c ≠ '\\') (text : List Char) :
    stopOf (c :: text) = stopOf text := by
  rw [stopOf.eq_def]
  split <;> simp_all

/-- A text behind an opening quote is the inside of the string, what ends it, and the rest, and there is a rest
only behind a closing quote. -/
theorem exists_decodes (text : List Char) : ∃ inner meaning rest, Decodes inner meaning ∧
    text = inner ++ (stopOf text).mark ++ rest ∧ (stopOf text ≠ .quote → rest = []) ∧
      cutString text = (inner ++ (stopOf text).mark, rest) := by
  induction text using cutString_induction with
  | nil => exact ⟨[], [], [], .nil, rfl, fun _ => rfl, rfl⟩
  | quote text => exact ⟨[], [], text, .nil, rfl, fun hne => absurd rfl hne, rfl⟩
  | backslash => exact ⟨[], [], [], .nil, rfl, fun _ => rfl, rfl⟩
  | pair c text ih =>
    obtain ⟨inner, meaning, rest, hdecodes, htext, hrest, hcut⟩ := ih
    refine ⟨'\\' :: c :: inner, _, rest, .escape c hdecodes, ?_, hrest, ?_⟩
    · exact congrArg (fun tail => '\\' :: c :: tail) htext
    · rw [cutString, hcut]
      rfl
  | cons c text hquote hbackslash ih =>
    obtain ⟨inner, meaning, rest, hdecodes, htext, hrest, hcut⟩ := ih
    rw [stopOf_cons hquote hbackslash]
    refine ⟨c :: inner, _, rest, .plain hquote hbackslash hdecodes, congrArg (c :: ·) htext, hrest, ?_⟩
    simp [cutString, hbackslash, hcut]

/-! ### Taking the quotes off -/

theorem Decodes.endsInEscape_eq {inner meaning : List Char} (hdecodes : Decodes inner meaning) :
    endsInEscape inner = false := by
  induction hdecodes with
  | nil => rfl
  | plain _ hbackslash _ ih => exact (endsInEscape_cons hbackslash _).trans ih
  | escape c _ ih => exact (endsInEscape_pair c _).trans ih

theorem Decodes.quotesEscaped {inner meaning : List Char} (hdecodes : Decodes inner meaning) :
    QuotesEscaped inner := by
  induction hdecodes with
  | nil => exact quotesEscaped_nil
  | plain hquote hbackslash _ ih => exact (quotesEscaped_cons hquote hbackslash).2 ih
  | escape _ _ ih => exact quotesEscaped_pair.2 ih

/-- From the inside of a string and from what ends it the closing quote is gone and nothing else. -/
theorem stripQuotes_eq {inner meaning : List Char} (hdecodes : Decodes inner meaning) (stop : Stop) :
    stripQuotes ('"' :: (inner ++ stop.mark)) = inner ++ stop.kept := by
  cases stop with
  | quote => simp [stripQuotes, Stop.mark, Stop.kept, hdecodes.endsInEscape_eq]
  | backslash => simp [stripQuotes, Stop.mark, Stop.kept]
  | nothing =>
    -- a quote at the end of the inside is one that a backslash takes
    have hends : inner.getLast? = some '"' → endsInEscape inner.dropLast = true := by
      intro hlast
      obtain ⟨front, rfl⟩ := List.getLast?_eq_some_iff.1 hlast
      rw [List.dropLast_concat]
      exact hdecodes.quotesEscaped front [] rfl
    simp only [stripQuotes, Stop.mark, Stop.kept, List.append_nil, List.tail_cons]
    refine if_neg fun hboth => ?_
    rw [Bool.and_eq_true, beq_iff_eq, Bool.not_eq_true'] at hboth
    rw [hends hboth.1] at hboth
    cases hboth.2

theorem unescape_append_kept {inner meaning : List Char} (hdecodes : Decodes inner meaning) (stop : Stop) :
    unescape (inner ++ stop.kept) = meaning ++ stop.kept := by
  induction hdecodes with
  | nil => cases stop <;> rfl
  | plain _ hbackslash _ ih => simp [unescape, hbackslash, ih]
  | escape c _ ih => simp [unescape, ih]

/-! ### Tokens in a text -/

theorem Munch.of_append {token : Token} {rest tail : List Char} (hmunch : token.Munch (rest ++ tail)) :
    token.Munch rest := by
  have hkind : token.kind = TokenKind.ofText token.text := by
    have hplain := congrArg Token.kind hmunch.eq_plain
    rw [plain, String.ofList_toList] at hplain
    exact hplain.symm
  exact hmunch.lexeme.of_append.munch hkind

theorem assemble_append (front back : List (Token × List Char)) :
    assemble (front ++ back) = assemble front ++ assemble back :=
  List.flatMap_append

theorem Cut.of_append {front back : List (Token × List Char)} (hcut : Cut (front ++ back)) :
    Cut front ∧ Cut back := by
  induction front with
  | nil => exact ⟨trivial, hcut⟩
  | cons piece front ih =>
    obtain ⟨token, gap⟩ := piece
    obtain ⟨hmunch, hgap, hcut⟩ := hcut
    obtain ⟨hfront, hback⟩ := ih hcut
    have hbefore : token.Munch (gap ++ assemble front ++ assemble back) := by
      rw [List.append_assoc, ← assemble_append]
      exact hmunch
    exact ⟨⟨hbefore.of_append, hgap, hfront⟩, hback⟩

/-- Before a token and behind it the text is scanned by itself. -/
theorem exists_of_scan_eq {text : String} {before after : List Token} {token : Token}
    (hscan : scan text = before ++ token :: after) :
    ∃ front behind, text.toList = front ++ token.text.toList ++ behind ∧ scanChars front = before ∧
      scanChars behind = after ∧ token.Munch behind := by
  obtain ⟨blanks, pieces, hblanks, htext, hcut, htokens⟩ := exists_cut text.toList
  rw [← scan, hscan] at htokens
  obtain ⟨first, second, rfl, rfl, hsecond⟩ := List.map_eq_append_iff.1 htokens
  obtain ⟨⟨_, gap⟩, last, rfl, rfl, rfl⟩ := List.map_eq_cons_iff.1 hsecond
  obtain ⟨hfirst, hmunch, hgap, hlast⟩ := hcut.of_append
  refine ⟨blanks ++ assemble first, gap ++ assemble last, ?_, ?_, ?_, hmunch⟩
  · rw [htext, assemble_append, assemble_cons]
    simp
  · rw [scanChars_blanks hblanks, scanChars_assemble hfirst]
  · rw [scanChars_blanks hgap, scanChars_assemble hlast]

/-- The scanner cuts a string where its token ends. -/
theorem Munch.cutString_eq {token : Token} {body rest : List Char} (hmunch : token.Munch rest)
    (hbody : token.text.toList = '"' :: body) : cutString (body ++ rest) = (body, rest) := by
  rcases hmunch.quoted body hbody with ⟨inner, rfl, hinner, hends⟩ | ⟨hall, rfl⟩
  · rw [List.append_assoc]
    exact cutString_of_closed hinner hends rest
  · rw [List.append_nil]
    exact cutString_of_unclosed hall

/-- A string in front of the rest of a text, from the left: its inside, what that stands for, and what ends it,
which is where the scanner cuts. -/
structure IsString (token : Token) (rest inner meaning : List Char) (stop : Stop) : Prop where
  text : token.text.toList = '"' :: (inner ++ stop.mark)
  cut : cutString (inner ++ stop.mark ++ rest) = (inner ++ stop.mark, rest)
  stops : stopOf (inner ++ stop.mark ++ rest) = stop
  rest_eq_nil : stop ≠ .quote → rest = []
  decodes : Decodes inner meaning

theorem Munch.exists_isString {token : Token} {rest : List Char} (hmunch : token.Munch rest)
    (hquoted : token.isQuoted = true) : ∃ inner meaning stop, token.IsString rest inner meaning stop := by
  obtain ⟨body, hbody⟩ : ∃ body, token.text.toList = '"' :: body := by
    rw [isQuoted, Bool.and_eq_true, beq_iff_eq, beq_iff_eq] at hquoted
    exact List.head?_eq_some_iff.1 hquoted.2
  have hcut : cutString (body ++ rest) = (body, rest) := hmunch.cutString_eq hbody
  obtain ⟨inner, meaning, behind, hdecodes, -, hnil, hstring⟩ := exists_decodes (body ++ rest)
  obtain ⟨hinner, rfl⟩ := Prod.mk.inj (hcut.symm.trans hstring)
  generalize hstop : stopOf (body ++ rest) = stop at hnil hinner
  subst hinner
  exact ⟨inner, meaning, stop, hbody, hcut, hstop, hnil, hdecodes⟩

/-- A quoted text is one token whatever follows, and stands for the text. Of any string in a text the quote at
the end is taken off exactly when the scanner ended the string there, and what is left is decoded from the left,
where a backslash at the end of the text stands for itself. -/
theorem quoted_tokens_decode :
    (∀ text rest : String,
      scan (String.ofList (Printer.quote text.toList) ++ rest) =
          ofLiteral (Printer.quote text.toList) :: scan rest ∧
        (ofLiteral (Printer.quote text.toList)).content = text) ∧
    ∀ (text : String) (before after : List Token) (token : Token),
      scan text = before ++ token :: after → token.isQuoted = true →
        ∃ front rest inner meaning stop,
          text.toList = front ++ token.text.toList ++ rest ∧ scanChars front = before ∧
            scanChars rest = after ∧ token.IsString rest inner meaning stop ∧
            (token.text.toList.tail = stripQuotes token.text.toList ++ ['"'] ↔ stop = .quote) ∧
            (token.text.toList.tail = stripQuotes token.text.toList ↔ stop ≠ .quote) ∧
            token.content = String.ofList (meaning ++ stop.kept) := by
  refine ⟨fun text rest => ⟨?_, ?_⟩, fun text before after token hscan hquoted => ?_⟩
  · rw [scan, String.toList_append, String.toList_ofList]
    exact scanChars_quote text.toList rest.toList
  · exact (content_quote text.toList).trans String.ofList_toList
  obtain ⟨front, rest, htext, hfront, hrest, hmunch⟩ := exists_of_scan_eq hscan
  obtain ⟨inner, meaning, stop, hstring⟩ := hmunch.exists_isString hquoted
  have hstrip : stripQuotes token.text.toList = inner ++ stop.kept := by
    rw [hstring.text, stripQuotes_eq hstring.decodes]
  have hcontent : token.content = String.ofList (meaning ++ stop.kept) := by
    rw [content, if_pos hquoted, hstrip, unescape_append_kept hstring.decodes]
  refine ⟨front, rest, inner, meaning, stop, htext, hfront, hrest, hstring, ?_, ?_, hcontent⟩
  all_goals
    rw [hstrip, hstring.text]
    cases stop <;> simp [Stop.mark, Stop.kept]

/-- The first string holds a quote that a backslash takes, and two backslashes before the quote that closes it.
The second one ends with the text, behind a backslash. -/
theorem quoted_tokens_decode_backslashes :
    let text := "a == \"x\\\"y\\\\\" \"z\\"
    let first : Token := ⟨.atom, "\"x\\\"y\\\\\""⟩
    let last : Token := ⟨.atom, "\"z\\"⟩
    scan text = [⟨.atom, "a"⟩, ⟨.comparison, "=="⟩] ++ first :: [last] ∧
      scan text = [⟨.atom, "a"⟩, ⟨.comparison, "=="⟩, first] ++ last :: [] ∧
      (∃ front rest inner meaning, text.toList = front ++ first.text.toList ++ rest ∧
        first.IsString rest inner meaning .quote ∧ first.content = String.ofList meaning ∧
        first.content = "x\"y\\") ∧
      ∃ front inner meaning stop, text.toList = front ++ last.text.toList ∧
        last.IsString [] inner meaning stop ∧ stop ≠ .quote ∧
        last.content = String.ofList (meaning ++ stop.kept) ∧ last.content = "z\\" := by
  intro text first last
  have hscan : scan text = [⟨.atom, "a"⟩, ⟨.comparison, "=="⟩, first, last] := by decide +kernel
  refine ⟨hscan, hscan, ?_, ?_⟩
  · obtain ⟨front, rest, inner, meaning, stop, htext, -, -, hstring, hclosed, -, hcontent⟩ :=
      quoted_tokens_decode.2 text [⟨.atom, "a"⟩, ⟨.comparison, "=="⟩] [last] first hscan (by decide)
    obtain rfl : stop = .quote := hclosed.1 (by decide)
    simp only [Stop.kept, List.append_nil] at hcontent
    exact ⟨front, rest, inner, meaning, htext, hstring, hcontent, by decide⟩
  · obtain ⟨front, rest, inner, meaning, stop, htext, -, -, hstring, -, hopen, hcontent⟩ :=
      quoted_tokens_decode.2 text [⟨.atom, "a"⟩, ⟨.comparison, "=="⟩, first] [] last hscan (by decide)
    have hstop : stop ≠ .quote := hopen.1 (by decide)
    obtain rfl := hstring.rest_eq_nil hstop
    rw [List.append_nil] at htext
    exact ⟨front, inner, meaning, stop, htext, hstring, hstop, hcontent, by decide⟩

end DisplayFilter.Token
