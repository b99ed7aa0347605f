import DisplayFilter.Document.Table
import DisplayFilter.Document.Yaml.Scalar
/-!
# What a document is made of

A document is a tree of scalars, as they are spelled, and collections. Its value is made from the leaves
up. Keys are scalars, and of a repeated key the last value counts. A key `<<` that is not in quotes stands
for the entries of a mapping, or of several mappings in a sequence: they go before all others, and those
of a former mapping of a sequence win over those of a latter one.
-/

namespace DisplayFilter.Yaml

/-- A part of a document. -/
inductive Node where
  | plain (text : List Char)
  | quoted (text : List Char)
  | sequence (items : List Node)
  | mapping (entries : List (Node × Node))
  deriving Inhabited

namespace Node

/-- What is left out. -/
def absent : Node := .plain []

/-- A key that stands for the entries of other mappings. -/
def isMerge : Node → Bool
  | .plain text => text == ['<', '<']
  | _ => false

/-- The scalar of a key. A lone equals sign is a text here. -/
def key : Node → Except ReaderFault Scalar
  | .plain text => if text = ['='] then .ok (.text "=") else plainScalar text
  | .quoted text => .ok (.text (String.ofList text))
  | .sequence _ | .mapping _ => .error .malformed

mutual

def value : Node → Except ReaderFault Value
  | .plain text => (plainScalar text).map .scalar
  | .quoted text => .ok (.text (String.ofList text))
  | .sequence items => (values items).map .sequence
  | .mapping entries => do
    let merged ← mergedEntries entries
    let own ← ownEntries entries
    return .mapping (Table.ofEntries (merged ++ own))

def values : List Node → Except ReaderFault (List Value)
  | [] => .ok []
  | item :: rest => do
    let first ← value item
    let others ← values rest
    return first :: others

/-- The entries of a mapping that are not merged into it. -/
def ownEntries : List (Node × Node) → Except ReaderFault (List (Scalar × Value))
  | [] => .ok []
  | (name, item) :: rest =>
    if isMerge name then ownEntries rest
    else do
      let key ← key name
      let value ← value item
      let others ← ownEntries rest
      return (key, value) :: others

/-- The entries that are merged into a mapping. -/
def mergedEntries : List (Node × Node) → Except ReaderFault (List (Scalar × Value))
  | [] => .ok []
  | (name, item) :: rest =>
    if isMerge name then do
      let entries ← entriesOf item
      let others ← mergedEntries rest
      return entries ++ others
    else mergedEntries rest

/-- The entries that a mapping, or a sequence of mappings, gives to a mapping it is merged into. -/
def entriesOf : Node → Except ReaderFault (List (Scalar × Value))
  | .mapping entries => do
    let merged ← mergedEntries entries
    let own ← ownEntries entries
    return merged ++ own
  | .sequence items => entriesOfAll items
  | _ => .error .malformed

/-- The entries of several mappings, those of the last one first. -/
def entriesOfAll : List Node → Except ReaderFault (List (Scalar × Value))
  | [] => .ok []
  | .mapping entries :: rest => do
    let merged ← mergedEntries entries
    let own ← ownEntries entries
    let others ← entriesOfAll rest
    return others ++ (merged ++ own)
  | _ :: _ => .error .malformed

end

end Node

end DisplayFilter.Yaml
