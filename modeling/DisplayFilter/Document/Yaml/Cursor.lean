/-!
# A place in a document

A cursor is what is left of a document, with the line and the column it stands at. The marks `---` and
`...` at the start of a line, with nothing but a blank behind them, separate documents.
-/

namespace DisplayFilter.Yaml

/-- A place in a document. -/
structure Cursor where
  rest : List Char
  index : Nat
  line : Nat
  column : Nat

def isBreak (c : Char) : Bool :=
  c == '\n' || c == '\x85' || c == '\u2028' || c == '\u2029'

/-- Characters that separate tokens on a line. -/
def isSpace (c : Char) : Bool :=
  c == ' ' || c == '\t'

/-- A blank, a line end, or the end of the document. -/
def isGap : Option Char → Bool
  | none => true
  | some c => isSpace c || isBreak c

/-- The mark of byte order, which takes no column. -/
def byteOrderMark : Char := '\uFEFF'

namespace Cursor

def start (text : List Char) : Cursor :=
  ⟨text, 0, 0, 0⟩

def peek? (cursor : Cursor) : Option Char :=
  cursor.rest.head?

def advance (cursor : Cursor) : Cursor :=
  match cursor.rest with
  | [] => cursor
  | c :: rest =>
    if isBreak c then ⟨rest, cursor.index + 1, cursor.line + 1, 0⟩
    else ⟨rest, cursor.index + 1, cursor.line,
      if c == byteOrderMark then cursor.column else cursor.column + 1⟩

def advanceBy : Nat → Cursor → Cursor
  | 0, cursor => cursor
  | count + 1, cursor => advanceBy count cursor.advance

/-- The next characters of a class, and the place after them. -/
def takeWhile (p : Char → Bool) (cursor : Cursor) : List Char × Cursor :=
  let taken := cursor.rest.takeWhile p
  (taken, advanceBy taken.length cursor)

/-- Past the next characters of a class. -/
def skipWhile (p : Char → Bool) (cursor : Cursor) : Cursor :=
  (cursor.takeWhile p).2

/-- The line end that comes next, as it counts in a folded text, and the place after it. -/
def lineBreak? (cursor : Cursor) : Option (Char × Cursor) :=
  match cursor.peek? with
  | some c =>
    if isBreak c then some (if c == '\x85' then '\n' else c, cursor.advance) else none
  | none => none

/-- A mark of three equal characters comes next, and a gap behind it. -/
def hasMark (c : Char) (cursor : Cursor) : Bool :=
  cursor.rest.take 3 == [c, c, c] && isGap (cursor.rest.drop 3).head?

def atDocumentMark (cursor : Cursor) : Bool :=
  cursor.hasMark '-' || cursor.hasMark '.'

end Cursor

end DisplayFilter.Yaml
