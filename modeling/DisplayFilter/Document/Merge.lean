import DisplayFilter.Document.Table
import DisplayFilter.Document.Value
/-!
# Merging mappings

A mapping is merged over another key by key. Where both have a mapping the two are merged in turn;
everywhere else the upper value replaces the lower one. Keys of the lower mapping keep their places, new
keys follow in the order of the upper mapping.
-/

namespace DisplayFilter

namespace Value

mutual

/-- What stands at a key after merging `upper` over what was there. -/
def mergeAt (lower : Option Value) : Value → Value
  | .mapping upper => match lower with
    | some (.mapping entries) => .mapping (mergeEntries entries upper)
    | _ => .mapping upper
  | upper => upper

/-- The entries of a mapping with those of another merged over them. -/
def mergeEntries (lower : List (Scalar × Value)) : List (Scalar × Value) → List (Scalar × Value)
  | [] => lower
  | (key, value) :: rest =>
    mergeEntries (Table.put key (mergeAt (lower.lookup key) value) lower) rest

end

/-- Why two values cannot be merged: the upper one is no mapping, or the lower one takes no entries. -/
inductive MergeError where
  | upperNotMapping
  | lowerNotMapping
  deriving DecidableEq, Repr

/-- Merges a value over another. A mapping without entries leaves whatever it is merged over. -/
def merge (lower upper : Value) : Except MergeError Value :=
  match upper, lower with
  | .mapping [], _ => .ok lower
  | .mapping entries, .mapping base => .ok (.mapping (mergeEntries base entries))
  | .mapping _, _ => .error .lowerNotMapping
  | _, _ => .error .upperNotMapping

end Value

end DisplayFilter
