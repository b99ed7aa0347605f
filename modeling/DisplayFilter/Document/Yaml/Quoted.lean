import DisplayFilter.Document.Yaml.Cursor
import DisplayFilter.Document.Yaml.Scalar
/-!
# Texts that run over lines

Scalars may run over several lines. A single line end inside one counts as a blank, further ones stay.
Between apostrophes only the apostrophe is doubled; between double quotes a backslash begins an escape.
-/

namespace DisplayFilter.Yaml

/-- What a letter after a backslash stands for. -/
def escape? : Char → Option Char
  | '0' => some '\x00'
  | 'a' => some '\x07'
  | 'b' => some '\x08'
  | 't' => some '\t'
  | '\t' => some '\t'
  | 'n' => some '\n'
  | 'v' => some '\x0b'
  | 'f' => some '\x0c'
  | 'r' => some '\r'
  | 'e' => some '\x1b'
  | ' ' => some ' '
  | '"' => some '"'
  | '\\' => some '\\'
  | '/' => some '/'
  | 'N' => some '\x85'
  | '_' => some '\u00A0'
  | 'L' => some '\u2028'
  | 'P' => some '\u2029'
  | _ => none

/-- How many hexadecimal digits follow a letter after a backslash. -/
def escapeWidth? : Char → Option Nat
  | 'x' => some 2
  | 'u' => some 4
  | 'U' => some 8
  | _ => none

/-- The character of a number in hexadecimal digits. A surrogate is no character and counts as the
replacement character. -/
def numbered? (width : Nat) (digits : List Char) : Option Char :=
  if digits.length = width ∧ digits.all isHexDigit = true then
    let n := ofDigits 16 digits
    if n.isValidChar then some (Char.ofNat n)
    else if n ≤ 0xDFFF then some '\uFFFD'
    else none
  else none

/-- What a run of line ends comes to: the first one folds into a blank when no other follows. -/
def fold (first : Char) (others : List Char) : List Char :=
  (if first != '\n' then [first] else if others.isEmpty then [' '] else []) ++ others

/-- The line ends after the first one inside quotes, past the blanks around them. A document may not end
there. -/
def quotedBreaks? : Nat → Cursor → Option (List Char × Cursor)
  | 0, _ => none
  | fuel + 1, cursor =>
    if cursor.atDocumentMark then none
    else
      let cursor := cursor.skipWhile isSpace
      match cursor.lineBreak? with
      | none => some ([], cursor)
      | some (lineEnd, cursor) =>
        (quotedBreaks? fuel cursor).map fun (breaks, cursor) => (lineEnd :: breaks, cursor)

/-- Blanks inside quotes: they stay within a line and vanish around line ends. -/
def quotedSpaces? (fuel : Nat) (cursor : Cursor) : Option (List Char × Cursor) :=
  let (spaces, cursor) := cursor.takeWhile isSpace
  match cursor.peek?, cursor.lineBreak? with
  | none, _ => none
  | _, none => some (spaces, cursor)
  | _, some (lineEnd, cursor) =>
    (quotedBreaks? fuel cursor).map fun (breaks, cursor) => (fold lineEnd breaks, cursor)

/-- Characters that stand for themselves inside quotes. -/
def isQuotedText (c : Char) : Bool :=
  !(c == '\'' || c == '"' || c == '\\' || isSpace c || isBreak c)

/-- What a backslash begins between double quotes. -/
def escaped? (fuel : Nat) (cursor : Cursor) : Option (List Char × Cursor) :=
  match cursor.rest with
  | c :: rest =>
    match escape? c, escapeWidth? c with
    | some meaning, _ => some ([meaning], cursor.advance)
    | none, some width =>
      (numbered? width (rest.take width)).map fun meaning =>
        ([meaning], cursor.advanceBy (width + 1))
    | none, none =>
      if isBreak c then quotedBreaks? fuel cursor.advance else none
  | [] => none

/-- A text up to its closing quote, and the place after the quote. -/
def quoted? (double : Bool) : Nat → Cursor → List Char → Option (List Char × Cursor)
  | 0, _, _ => none
  | fuel + 1, cursor, text =>
    match cursor.rest with
    | [] => none
    | c :: rest =>
      if c == '\'' && !double then
        if rest.head? == some '\'' then quoted? double fuel (cursor.advanceBy 2) (text ++ ['\''])
        else some (text, cursor.advance)
      else if c == '"' && double then some (text, cursor.advance)
      else if c == '\\' && double then
        match escaped? fuel cursor.advance with
        | some (meaning, cursor) => quoted? double fuel cursor (text ++ meaning)
        | none => none
      else if isSpace c || isBreak c then
        match quotedSpaces? fuel cursor with
        | some (spaces, cursor) => quoted? double fuel cursor (text ++ spaces)
        | none => none
      else if isQuotedText c then
        let (run, cursor) := cursor.takeWhile isQuotedText
        quoted? double fuel cursor (text ++ run)
      else quoted? double fuel cursor.advance (text ++ [c])

/-- The line ends after the first one in a plain text, past the blanks around them; `true` when a mark
that separates documents follows. -/
def plainBreaks : Nat → Cursor → List Char × Cursor × Bool
  | 0, cursor => ([], cursor, false)
  | fuel + 1, cursor =>
    if cursor.peek? == some ' ' then plainBreaks fuel cursor.advance
    else match cursor.lineBreak? with
      | none => ([], cursor, false)
      | some (lineEnd, cursor) =>
        if cursor.atDocumentMark then ([], cursor, true)
        else
          let (breaks, cursor, marked) := plainBreaks fuel cursor
          (lineEnd :: breaks, cursor, marked)

/-- The gap after a part of a plain text: what it counts as if the text goes on, the place after it, and
whether it ends a line. -/
def plainGap (fuel : Nat) (cursor : Cursor) : List Char × Cursor × Bool :=
  let (spaces, cursor) := cursor.takeWhile (· == ' ')
  match cursor.lineBreak? with
  | none => (spaces, cursor, false)
  | some (lineEnd, cursor) =>
    if cursor.atDocumentMark then ([], cursor, true)
    else
      let (breaks, cursor, marked) := plainBreaks fuel cursor
      (if marked then [] else fold lineEnd breaks, cursor, true)

/-- The characters of a plain text up to a gap, a colon before a gap or, inside brackets, a character
with a meaning there. -/
def plainRun (inBrackets : Bool) : List Char → List Char
  | [] => []
  | c :: rest =>
    let colonEnds := isGap rest.head? ||
      (inBrackets && rest.head?.any fun next => [',', '[', ']', '\x7b', '\x7d'].contains next)
    if isSpace c || isBreak c || (c == ':' && colonEnds) ||
        (inBrackets && [',', '?', '[', ']', '\x7b', '\x7d'].contains c) then []
    else c :: plainRun inBrackets rest

/-- A plain text from a place on. It goes on over a gap if the next line is indented far enough and no
comment begins. Gives the text, the place after it and whether a line has ended. -/
def plain (inBrackets : Bool) (indent : Int) :
    Nat → Cursor → List Char → List Char → Bool → List Char × Cursor × Bool
  | 0, cursor, text, _, lineEnded => (text, cursor, lineEnded)
  | fuel + 1, cursor, text, gap, lineEnded =>
    let run := if cursor.peek? == some '#' then [] else plainRun inBrackets cursor.rest
    if run.isEmpty then (text, cursor, lineEnded)
    else
      let text := text ++ gap ++ run
      let (gap, cursor, lineEnded) := plainGap fuel (cursor.advanceBy run.length)
      if gap.isEmpty || (!inBrackets && cursor.column < indent) then (text, cursor, lineEnded)
      else plain inBrackets indent fuel cursor text gap lineEnded

end DisplayFilter.Yaml
