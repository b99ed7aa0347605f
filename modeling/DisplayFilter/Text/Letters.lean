/-!
# Letter case

Keywords, operator names and flags are compared without regard to the case of ASCII letters. Names of
log levels are capitalised instead, and there two letters outside ASCII have an ASCII capital.
-/

namespace DisplayFilter.Text

/-- A text with its ASCII capitals made small. -/
def lower (text : String) : String :=
  String.ofList (text.toList.map Char.toLower)

/-- The capital of a letter: the dotless i and the long s capitalise to ASCII letters. -/
def capital (c : Char) : Char :=
  if c = 'ı' then 'I' else if c = 'ſ' then 'S' else c.toUpper

/-- A text in capitals, as far as the capitals are ASCII letters. -/
def upper (text : String) : String :=
  String.ofList (text.toList.map capital)

end DisplayFilter.Text
