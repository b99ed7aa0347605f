import DisplayFilter.Document.Yaml.Quoted
/-!
# The tokens of a document

A document is cut into scalars, brackets and marks. Indentation becomes tokens too: where a block
collection begins, deeper than what is around it, and where it ends. What will turn out to be a key is
only known at the colon behind it, so the place of a possible key is kept until then; it must stand on one
line. Where a key is required and no colon comes the document is malformed.
-/

namespace DisplayFilter.Yaml

inductive Token where
  | documentStart
  | documentEnd
  | blockSequence
  | blockMapping
  | blockEnd
  | item
  | key
  | value
  | openBracket
  | closeBracket
  | openBrace
  | closeBrace
  | comma
  | plain (text : List Char)
  | quoted (text : List Char)
  deriving DecidableEq, Repr, Inhabited

/-- Where a key may have begun. -/
structure Candidate where
  tokenCount : Nat
  required : Bool
  index : Nat
  line : Nat
  column : Nat

/-- The state between two tokens: the place, the depth of brackets, the columns of open block
collections, whether a key may begin here, and the possible keys of the open brackets, innermost first. -/
structure Scan where
  cursor : Cursor
  depth : Nat
  indent : Int
  outerIndents : List Int
  keyAllowed : Bool
  candidates : List (Option Candidate)
  tokens : Array Token

namespace Scan

def start (text : List Char) : Scan :=
  ⟨.start text, 0, -1, [], true, [none], #[]⟩

def push (scan : Scan) (token : Token) : Scan :=
  { scan with tokens := scan.tokens.push token }

/-- Passes over so many characters. -/
def advanceBy (scan : Scan) (count : Nat) : Scan :=
  { scan with cursor := scan.cursor.advanceBy count }

/-- Passes over blanks, comments and line ends. A new line outside brackets may begin with a key. -/
def skip : Nat → Scan → Scan
  | 0, scan => scan
  | fuel + 1, scan =>
    let cursor := scan.cursor.skipWhile (· == ' ')
    let cursor :=
      if cursor.peek? == some '#' then cursor.skipWhile fun c => !isBreak c else cursor
    match cursor.lineBreak? with
    | none => { scan with cursor }
    | some (_, next) =>
      skip fuel { scan with cursor := next, keyAllowed := scan.keyAllowed || scan.depth == 0 }

/-- Gives up a possible key; it must not be a required one. -/
def drop? (candidate : Option Candidate) : Option (Option Candidate) :=
  match candidate with
  | some key => if key.required then none else some none
  | none => some none

/-- Gives up the possible keys that began on another line, or too far back. -/
def dropStale? (scan : Scan) : Option Scan := do
  let candidates ← scan.candidates.mapM fun candidate =>
    match candidate with
    | some key =>
      if key.line != scan.cursor.line || 1024 < scan.cursor.index - key.index then drop? candidate
      else some candidate
    | none => some none
  return { scan with candidates }

/-- Gives up the possible key of the innermost brackets. -/
def dropInnermost? (scan : Scan) : Option Scan := do
  match scan.candidates with
  | candidate :: outer =>
    let kept ← drop? candidate
    return { scan with candidates := kept :: outer }
  | [] => return scan

/-- Ends the block collections that are indented deeper than a column. -/
def unwindTo (column : Int) : List Int → Scan → Scan
  | [], scan => scan
  | outer :: others, scan =>
    if column < scan.indent then
      unwindTo column others { scan.push .blockEnd with indent := outer, outerIndents := others }
    else scan

/-- Ends the block collections that are indented deeper than a column; inside brackets indentation does
not count. -/
def unwind (scan : Scan) (column : Int) : Scan :=
  if scan.depth = 0 then unwindTo column scan.outerIndents scan else scan

/-- Remembers that a key may begin here. -/
def saveKey? (scan : Scan) : Option Scan :=
  if scan.keyAllowed then do
    let scan ← scan.dropInnermost?
    let candidate : Candidate :=
      { tokenCount := scan.tokens.size
        required := scan.depth == 0 && scan.indent == (scan.cursor.column : Int)
        index := scan.cursor.index
        line := scan.cursor.line
        column := scan.cursor.column }
    return { scan with candidates := some candidate :: scan.candidates.tail }
  else some scan

/-- Begins a block collection at a column if it is deeper than what is around it. The token goes before
the last tokens, from `place` on. -/
def openBlock (scan : Scan) (column : Nat) (token : Token) (place : Nat) : Scan :=
  if scan.depth = 0 ∧ scan.indent < (column : Int) then
    { scan with
      indent := column
      outerIndents := scan.indent :: scan.outerIndents
      tokens := scan.tokens.extract 0 place ++ #[token] ++ scan.tokens.extract place scan.tokens.size }
  else scan

def documentMark? (scan : Scan) (token : Token) : Option Scan := do
  let scan ← (scan.unwind (-1)).dropInnermost?
  return ({ scan with keyAllowed := false }.advanceBy 3).push token

def opening? (scan : Scan) (token : Token) : Option Scan := do
  let scan ← scan.saveKey?
  return ({ scan with
    depth := scan.depth + 1
    keyAllowed := true
    candidates := none :: scan.candidates }.advanceBy 1).push token

def closing? (scan : Scan) (token : Token) : Option Scan := do
  let scan ← scan.dropInnermost?
  if scan.depth = 0 then none
  else
    return ({ scan with
      depth := scan.depth - 1
      keyAllowed := false
      candidates := scan.candidates.tail }.advanceBy 1).push token

/-- A comma between brackets. -/
def comma? (scan : Scan) : Option Scan := do
  let scan ← scan.dropInnermost?
  return ({ scan with keyAllowed := true }.advanceBy 1).push .comma

/-- The mark of an item, or of a key that is written out. -/
def marked? (scan : Scan) (block token : Token) (keyAllowed : Bool) : Option Scan :=
  if scan.depth = 0 ∧ scan.keyAllowed = false then none
  else do
    let scan := scan.openBlock scan.cursor.column block scan.tokens.size
    let scan ← scan.dropInnermost?
    return ({ scan with keyAllowed }.advanceBy 1).push token

/-- A colon: what stands before it on the line is a key, if a key may have begun there. -/
def colon? (scan : Scan) : Option Scan :=
  match scan.candidates with
  | some key :: outer =>
    let place := key.tokenCount
    let scan := { scan with
      candidates := none :: outer
      keyAllowed := false
      tokens := scan.tokens.extract 0 place ++ #[Token.key] ++ scan.tokens.extract place scan.tokens.size }
    some (((scan.openBlock key.column .blockMapping place).advanceBy 1).push .value)
  | _ =>
    if scan.depth = 0 ∧ scan.keyAllowed = false then none
    else do
      let scan := scan.openBlock scan.cursor.column .blockMapping scan.tokens.size
      let scan ← scan.dropInnermost?
      return ({ scan with keyAllowed := scan.depth == 0 }.advanceBy 1).push .value

def quotation? (scan : Scan) (double : Bool) : Option Scan := do
  let scan ← scan.saveKey?
  let (text, cursor) ← quoted? double (2 * scan.cursor.rest.length + 2) scan.cursor.advance []
  return { scan with cursor, keyAllowed := false }.push (.quoted text)

/-- A plain text can begin with most characters, and with `-`, `?` or `:` before a character that is no
gap. -/
def beginsPlain (depth : Nat) (c : Char) (next : Option Char) : Bool :=
  if c == '-' || ((c == '?' || c == ':') && depth == 0) then !isGap next
  else !(isGap (some c) || ['?', ':', ',', '[', ']', '\x7b', '\x7d', '#', '&', '*', '!', '|', '>',
    '\'', '"', '%', '@', '\x60'].contains c)

def plainText? (scan : Scan) : Option Scan := do
  let scan ← scan.saveKey?
  let (text, cursor, lineEnded) :=
    plain (scan.depth != 0) (scan.indent + 1) (scan.cursor.rest.length + 1) scan.cursor [] [] false
  return { scan with cursor, keyAllowed := lineEnded }.push (.plain text)

/-- Takes the token that begins with a character. -/
def take? (scan : Scan) (c : Char) (next : Option Char) : Option Scan :=
  if scan.cursor.column = 0 ∧ scan.cursor.hasMark '-' then scan.documentMark? .documentStart
  else if scan.cursor.column = 0 ∧ scan.cursor.hasMark '.' then scan.documentMark? .documentEnd
  else if c = '[' then scan.opening? .openBracket
  else if c = '\x7b' then scan.opening? .openBrace
  else if c = ']' then scan.closing? .closeBracket
  else if c = '\x7d' then scan.closing? .closeBrace
  else if c = ',' then scan.comma?
  else if c = '-' ∧ isGap next then scan.marked? .blockSequence .item true
  else if c = '?' ∧ (scan.depth ≠ 0 ∨ isGap next) then
    scan.marked? .blockMapping .key (scan.depth == 0)
  else if c = ':' ∧ (scan.depth ≠ 0 ∨ isGap next) then scan.colon?
  else if c = '\'' then scan.quotation? false
  else if c = '"' then scan.quotation? true
  else if beginsPlain scan.depth c next then scan.plainText?
  else none

/-- The tokens from a state on, up to the end of the document. -/
def run? : Nat → Scan → Option (Array Token)
  | 0, _ => none
  | fuel + 1, scan => do
    let scan ← (scan.skip (scan.cursor.rest.length + 1)).dropStale?
    match scan.cursor.rest with
    | [] =>
      let scan ← (scan.unwind (-1)).dropInnermost?
      return scan.tokens
    | c :: rest =>
      let scan ← (scan.unwind scan.cursor.column).take? c rest.head?
      run? fuel scan

end Scan

/-- The characters a document may hold. -/
def isAllowed (c : Char) : Bool :=
  let n := c.toNat
  n == 9 || n == 10 || n == 13 || (0x20 ≤ n && n ≤ 0x7E) || n == 0x85 ||
    (0xA0 ≤ n && n ≤ 0xD7FF) || (0xE000 ≤ n && n ≤ 0xFFFD) || 0x10000 ≤ n

/-- A text with each of its line ends written as a line feed. -/
def normalizeNewlines : List Char → List Char
  | [] => []
  | '\r' :: '\n' :: rest => '\n' :: normalizeNewlines rest
  | '\r' :: rest => '\n' :: normalizeNewlines rest
  | c :: rest => c :: normalizeNewlines rest

/-- The tokens of a text. A mark of byte order at the start is passed over. -/
def tokens? (text : List Char) : Option (List Token) :=
  let text := normalizeNewlines text
  if text.all isAllowed then
    let scan := Scan.start text
    let scan := if text.head? == some byteOrderMark then scan.advanceBy 1 else scan
    (scan.run? (2 * text.length + 2)).map Array.toList
  else none

end DisplayFilter.Yaml
