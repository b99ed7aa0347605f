import DisplayFilter.Document.Reader
import DisplayFilter.Text.Parts
/-!
# Plain scalars

A scalar without quotes is nothing, a truth value, an integer, a floating-point number, a date, a moment or
a text, by its spelling. Integers may be binary, octal, hexadecimal, decimal or in base sixty, with
underscores between their digits; floating-point numbers have a point, and may be in base sixty as well. A
moment is a date and a time of day, with or without an offset from universal time. A spelling may have no
value: a binary number without digits, or a date that there is not.
-/

namespace DisplayFilter.Yaml

/-- The report on a number that has no digits in its base. -/
def noDigits (base : Nat) : String :=
  "invalid literal for int() with base " ++ toString base ++ ": ''"

/-- The value of a digit in bases up to sixteen. -/
def digitValue (c : Char) : Nat :=
  if c.isDigit then c.toNat - '0'.toNat else c.toLower.toNat - 'a'.toNat + 10

/-- The number of digits in a base; underscores do not count. -/
def ofDigits (base : Nat) (digits : List Char) : Nat :=
  (digits.filter (· != '_')).foldl (fun n c => base * n + digitValue c) 0

/-- The sign of a number, and what follows it. -/
def splitSign : List Char → Bool × List Char
  | '-' :: rest => (true, rest)
  | '+' :: rest => (false, rest)
  | text => (false, text)

/-- Digits of a class, or underscores, and one digit at least. -/
def isNumeral (p : Char → Bool) (text : List Char) : Bool :=
  text.all (fun c => p c || c == '_') && text.any p

def isBinaryDigit (c : Char) : Bool :=
  c == '0' || c == '1'

def isOctalDigit (c : Char) : Bool :=
  '0' ≤ c && c ≤ '7'

def isHexDigit (c : Char) : Bool :=
  c.isDigit || ('a' ≤ c && c ≤ 'f') || ('A' ≤ c && c ≤ 'F')

/-- A decimal digit first, and then digits or underscores. -/
def isDecimal : List Char → Bool
  | [] => false
  | c :: rest => c.isDigit && rest.all fun c => c.isDigit || c == '_'

/-- A digit of base sixty, written with one or two decimal digits. -/
def isSixtieth : List Char → Bool
  | [c] => c.isDigit
  | [c, d] => '0' ≤ c && c ≤ '5' && d.isDigit
  | _ => false

/-- The size of an integer. -/
def magnitude? : List Char → Option Nat
  | '0' :: 'b' :: digits => if isNumeral isBinaryDigit digits then some (ofDigits 2 digits) else none
  | '0' :: 'x' :: digits => if isNumeral isHexDigit digits then some (ofDigits 16 digits) else none
  | '0' :: digits =>
    if digits.all fun c => isOctalDigit c || c == '_' then some (ofDigits 8 digits) else none
  | text => match Text.parts ':' text with
    | [digits] => if isDecimal digits then some (ofDigits 10 digits) else none
    | digits :: sixtieths =>
      if isDecimal digits && sixtieths.all isSixtieth then
        some (sixtieths.foldl (fun n part => 60 * n + ofDigits 10 part) (ofDigits 10 digits))
      else none
    | [] => none

def integer? (text : List Char) : Option Int :=
  let (negative, body) := splitSign text
  (magnitude? body).map fun size => if negative then -(size : Int) else size

/-- An exponent, which must have a sign; absent, it is nought. -/
def exponent? : List Char → Option Int
  | [] => some 0
  | e :: sign :: digits =>
    if (e == 'e' || e == 'E') && (sign == '-' || sign == '+') && !digits.isEmpty &&
        digits.all Char.isDigit then
      some (if sign == '-' then -(ofDigits 10 digits : Int) else ofDigits 10 digits)
    else none
  | _ => none

/-- A floating-point number: digits, a point, digits and an exponent. Without digits before the point
there is no sign and a digit must follow the point. -/
def float? (text : List Char) : Option Binary64 :=
  let (negative, body) := splitSign text
  let (whole, rest) := body.span fun c => c.isDigit || c == '_'
  match rest with
  | '.' :: rest =>
    let (fraction, tail) := rest.span fun c => c.isDigit || c == '_'
    let wellPlaced := if whole.isEmpty then body == text && isDecimal fraction else isDecimal whole
    match wellPlaced, exponent? tail with
    | true, some exponent =>
      let decimals := (fraction.filter (· != '_')).length
      some (Binary64.ofDecimal negative (ofDigits 10 (whole ++ fraction)) (exponent - decimals))
    | _, _ =>
      if whole.isEmpty && ["inf", "Inf", "INF"].contains (String.ofList rest) then
        some (.infinite negative)
      else if body == text && whole.isEmpty &&
          ["nan", "NaN", "NAN"].contains (String.ofList rest) then
        some .nan
      else none
  | _ => none

/-- A number and further parts of it in base sixty, the lowest first, of which the first counts in this
unit. -/
def addSixtieths (sum : Binary64) (unit : Nat) : List Nat → Binary64
  | [] => sum
  | part :: rest =>
    addSixtieths (sum.sizeSum ((Binary64.ofNat part).sizeProduct (Binary64.ofNat unit))) (60 * unit)
      rest

/-- A floating-point number in base sixty, with a point in the last of its parts or behind it. -/
def sixtiethFloat? (text : List Char) : Option Binary64 :=
  let (negative, body) := splitSign text
  let (whole, rest) := body.span (· != '.')
  match Text.parts ':' whole, rest with
  | first :: second :: others, _ :: fraction =>
    let sixtieths := second :: others
    if isDecimal first && sixtieths.all isSixtieth &&
        fraction.all fun c => c.isDigit || c == '_' then
      let decimals := (fraction.filter (· != '_')).length
      let lowest := (sixtieths.getLast?).getD [] ++ fraction
      let higher := (first :: sixtieths.dropLast).reverse.map (ofDigits 10)
      let size := addSixtieths (Binary64.ofDecimal false (ofDigits 10 lowest) (-(decimals : Int))) 60
        higher
      some (size.withSign negative)
    else none
  | _, _ => none

def isNothing (text : String) : Bool :=
  ["", "~", "null", "Null", "NULL"].contains text

def isTrue (text : String) : Bool :=
  ["yes", "Yes", "YES", "true", "True", "TRUE", "on", "On", "ON"].contains text

def isFalse (text : String) : Bool :=
  ["no", "No", "NO", "false", "False", "FALSE", "off", "Off", "OFF"].contains text

/-- A binary or hexadecimal number of underscores alone: the base of it. -/
def baseWithoutDigits? (text : List Char) : Option Nat :=
  match (splitSign text).2 with
  | '0' :: 'b' :: '_' :: rest => if rest.all (· == '_') then some 2 else none
  | '0' :: 'x' :: '_' :: rest => if rest.all (· == '_') then some 16 else none
  | _ => none

/-- A number of so many decimal digits at least and at most, and the text after it. -/
def takeDigits? (least most : Nat) (text : List Char) : Option (Nat × List Char) :=
  let digits := (text.takeWhile Char.isDigit).take most
  if least ≤ digits.length then some (ofDigits 10 digits, text.drop digits.length) else none

/-- The text after a character. -/
def dropChar? (c : Char) : List Char → Option (List Char)
  | first :: rest => if first == c then some rest else none
  | [] => none

/-- An offset from universal time in minutes. -/
def offset? (text : List Char) : Option (Option Int) := do
  match text with
  | [] => some none
  | ['Z'] => some (some 0)
  | sign :: rest =>
    let sign : Int ← if sign = '-' then some (-1) else if sign = '+' then some 1 else none
    let (hours, rest) ← takeDigits? 1 2 rest
    if rest.isEmpty then some (some (sign * (60 * hours)))
    else
      let (minutes, rest) ← takeDigits? 2 2 (← dropChar? ':' rest)
      if rest.isEmpty then some (some (sign * (60 * hours + minutes))) else none

/-- The digits of a fraction as microseconds; further digits do not count. -/
def microsOf (fraction : List Char) : Nat :=
  let digits := fraction.take 6
  ofDigits 10 digits * tenTo (6 - digits.length)

/-- A time of day behind a date. -/
def moment? (year month day : Nat) (text : List Char) : Option (Except Calendar.Fault Scalar) := do
  let rest := text.dropWhile fun c => c == ' ' || c == '\t'
  let rest ← if rest.length < text.length then some rest
    else match text with
      | 'T' :: rest | 't' :: rest => some rest
      | _ => none
  let (hour, rest) ← takeDigits? 1 2 rest
  let (minute, rest) ← takeDigits? 2 2 (← dropChar? ':' rest)
  let (second, rest) ← takeDigits? 2 2 (← dropChar? ':' rest)
  let (fraction, rest) := match rest with
    | '.' :: rest => rest.span Char.isDigit
    | rest => ([], rest)
  let gapless := rest.dropWhile fun c => c == ' ' || c == '\t'
  let offset ← if gapless.isEmpty && !rest.isEmpty then none else offset? gapless
  return (Calendar.Moment.make year month day hour minute second (microsOf fraction) offset).map .moment

/-- A date of two digits for month and day, or a moment. -/
def calendarScalar? (text : List Char) : Option (Except Calendar.Fault Scalar) := do
  let (year, rest) ← takeDigits? 4 4 text
  let (month, afterMonth) ← takeDigits? 1 2 (← dropChar? '-' rest)
  let (day, rest) ← takeDigits? 1 2 (← dropChar? '-' afterMonth)
  if rest.isEmpty then
    if text.length = 10 then some ((Calendar.Date.make year month day).map .date) else none
  else moment? year month day rest

/-- The scalar of a text without quotes. A lone equals sign and the sign of a merge stand for no value. -/
def plainScalar (text : List Char) : Except ReaderFault Scalar :=
  let word := String.ofList text
  if isNothing word then .ok .null
  else if isTrue word then .ok (.bool true)
  else if isFalse word then .ok (.bool false)
  else if word == "=" || word == "<<" then .error .malformed
  else match integer? text, (float? text).or (sixtiethFloat? text) with
    | some n, _ => .ok (.int n)
    | none, some x => .ok (.float x)
    | none, none => match baseWithoutDigits? text, calendarScalar? text with
      | some base, _ => .error (.valueless (noDigits base))
      | none, some date => date.mapError fun fault => .valueless fault.message
      | none, none => .ok (.text word)

end DisplayFilter.Yaml
