import DisplayFilter.Text.Printable
/-!
# Quoted literals

Messages and outlines show a text as a literal: between apostrophes, or between double quotes when it
holds an apostrophe and no double quote. The quote in use and the backslash are escaped, line breaks and
tabs have letters, and every other unprintable character is written by its number.
-/

namespace DisplayFilter.Text

/-- The quotation mark a literal of this text stands between. -/
def literalMark (text : List Char) : Char :=
  if text.contains '\'' && !text.contains '"' then '"' else '\''

/-- The last `width` hexadecimal digits of a number, most significant first. -/
def hexDigits : Nat → Nat → List Char
  | 0, _ => []
  | width + 1, n => hexDigits width (n / 16) ++ [Nat.digitChar (n % 16)]

/-- An unprintable character, by its number in two, four or eight digits. -/
def numbered (c : Char) : List Char :=
  let n := c.toNat
  if n < 0x100 then '\\' :: 'x' :: hexDigits 2 n
  else if n < 0x10000 then '\\' :: 'u' :: hexDigits 4 n
  else '\\' :: 'U' :: hexDigits 8 n

/-- One character inside a literal that stands between two `mark`s. -/
def literalChar (mark c : Char) : List Char :=
  if c = mark then ['\\', c]
  else match c with
    | '\\' => ['\\', '\\']
    | '\n' => ['\\', 'n']
    | '\r' => ['\\', 'r']
    | '\t' => ['\\', 't']
    | _ => if isPrintable c then [c] else numbered c

/-- The literal of a text, as characters. -/
def literalChars (text : List Char) : List Char :=
  let mark := literalMark text
  mark :: text.flatMap (literalChar mark) ++ [mark]

def literal (text : String) : String :=
  String.ofList (literalChars text.toList)

end DisplayFilter.Text
