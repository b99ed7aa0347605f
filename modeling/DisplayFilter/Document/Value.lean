import DisplayFilter.Document.Calendar
import DisplayFilter.Numeric.Binary64
/-!
# Values

Configuration, label files and patches are made of values: scalars, sequences and mappings. A mapping
keeps its entries in order. Two keys of a mapping are the same when they are equal as numbers, where a
truth value counts as nought or one, or when they are the same date, moment or text. What the explicit tags of
a document can make besides (octets, sets, sequences of pairs) is left out.
-/

namespace DisplayFilter

/-- A value without parts. -/
inductive Scalar where
  | null
  | bool (value : Bool)
  | int (value : Int)
  | float (value : Binary64)
  | date (value : Calendar.Date)
  | moment (value : Calendar.Moment)
  | text (value : String)
  deriving Repr, Inhabited

namespace Scalar

/-- What a scalar counts as when it is a key. -/
inductive Key where
  | null
  | int (value : Int)
  | float (value : Binary64)
  | date (value : Calendar.Date)
  | clock (micros : Nat)
  | instant (micros : Int)
  | text (value : String)
  deriving DecidableEq, Repr

/-- The integer a scalar equals. -/
def toInt? : Scalar → Option Int
  | .bool value => some (if value then 1 else 0)
  | .int value => some value
  | .float value => value.toInt?
  | _ => none

/-- The key of a scalar: numbers that equal an integer have the key of that integer, and moments that
tell their offset have the key of their instant. -/
def key : Scalar → Key
  | .null => .null
  | .bool value => .int (if value then 1 else 0)
  | .int value => .int value
  | .float value => match value.toInt? with
    | some n => .int n
    | none => .float value
  | .date value => .date value
  | .moment value => match value.universalMicros? with
    | some micros => .instant micros
    | none => .clock value.localMicros
  | .text value => .text value

/-- Scalars are compared as keys. -/
instance : BEq Scalar where
  beq left right := decide (left.key = right.key)

theorem beq_iff_key_eq {left right : Scalar} : (left == right) = true ↔ left.key = right.key :=
  decide_eq_true_iff

instance : EquivBEq Scalar where
  rfl := beq_iff_key_eq.2 rfl
  symm hsame := beq_iff_key_eq.2 (beq_iff_key_eq.1 hsame).symm
  trans hleft hright := beq_iff_key_eq.2 ((beq_iff_key_eq.1 hleft).trans (beq_iff_key_eq.1 hright))

end Scalar

/-- A scalar, a sequence, or a mapping with its entries in order. -/
inductive Value where
  | scalar (scalar : Scalar)
  | sequence (items : List Value)
  | mapping (entries : List (Scalar × Value))
  deriving Inhabited

namespace Value

@[match_pattern] abbrev null : Value := .scalar .null

@[match_pattern] abbrev bool (value : Bool) : Value := .scalar (.bool value)

@[match_pattern] abbrev int (value : Int) : Value := .scalar (.int value)

@[match_pattern] abbrev float (value : Binary64) : Value := .scalar (.float value)

@[match_pattern] abbrev text (value : String) : Value := .scalar (.text value)

/-- A mapping whose keys are texts. -/
def record (fields : List (String × Value)) : Value :=
  .mapping (fields.map fun entry => (.text entry.1, entry.2))

/-- The integer a value equals; sequences, mappings and texts equal none. -/
def toInt? : Value → Option Int
  | .scalar leaf => leaf.toInt?
  | _ => none

/-- Nothing, nought and whatever is empty count as false. -/
def isTruthy : Value → Bool
  | .null => false
  | .bool value => value
  | .int value => value != 0
  | .float value => !value.isZero
  | .scalar (.date _) | .scalar (.moment _) => true
  | .text value => value != ""
  | .sequence items => !items.isEmpty
  | .mapping entries => !entries.isEmpty

/-- The entry of a mapping at a text. -/
def field? : Value → String → Option Value
  | .mapping entries, name => entries.lookup (.text name)
  | _, _ => none

end Value

end DisplayFilter
