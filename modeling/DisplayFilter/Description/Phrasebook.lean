import DisplayFilter.Description.English
import DisplayFilter.Filter.Node
/-!
# Descriptions

A filter is described in words: presence and absence of a field, comparisons by the labels of their
operators, combinators and exclusions by the words of a vocabulary. A field or operator without a label
is called by its own name.
-/

namespace DisplayFilter

/-- The labels a description is made from. -/
structure Phrasebook where
  fields : Table String Value
  operators : Table String OperatorLabel
  vocabulary : Table String Value

namespace Phrasebook

def ofTexts (table : Table String String) : Table String Value :=
  table.map fun entry => (entry.1, .text entry.2)

/-- A phrasebook from the tables that are given, the English ones in place of absent ones. Words of a
vocabulary are put over the English words. -/
def make (fields : Option (Table String Value)) (operators : Option (Table String OperatorEntry))
    (vocabulary : Option (Table String Value)) : Except LabelError Phrasebook := do
  let operators ← match operators with
    | some entries => OperatorLabel.ofEntries entries
    | none => .ok English.operators
  return ⟨fields.getD (ofTexts English.fields), operators,
    Table.putAll (ofTexts English.vocabulary) (vocabulary.getD [])⟩

def english : Phrasebook :=
  ⟨ofTexts English.fields, English.operators, ofTexts English.vocabulary⟩

/-- A label if it is not empty, and the name it stands for otherwise. -/
def labelOr (label : Option Value) (name : String) : Value :=
  match label with
  | some value => if value.isTruthy then value else .text name
  | none => .text name

def fieldLabel (phrasebook : Phrasebook) (field : String) : Value :=
  labelOr (phrasebook.fields.lookup field) field

def operatorLabel (phrasebook : Phrasebook) (operator : Operator) : Value :=
  labelOr ((phrasebook.operators.lookup operator.symbol).map OperatorLabel.label) operator.symbol

def word (phrasebook : Phrasebook) (name : String) : Value :=
  (phrasebook.vocabulary.lookup name).getD .null

def logicLabel (phrasebook : Phrasebook) : Logic → Value
  | .and => phrasebook.word "and"
  | .or => phrasebook.word "or"

def condition (phrasebook : Phrasebook) (field : String) (operator : Operator) (value : String) :
    String :=
  let label := (phrasebook.fieldLabel field).shown
  match operator with
  | .exists => (phrasebook.word "capture").shown ++ " " ++ label
  | .negatedExists => (phrasebook.word "exclude").shown ++ " " ++ label
  | _ =>
    label ++ " " ++ (phrasebook.operatorLabel operator).shown ++ " " ++
      (if value = "" then (phrasebook.word "empty").shown else "\"" ++ value ++ "\"")

mutual

/-- The description of a node, without the combinator before it. -/
def node (phrasebook : Phrasebook) : Node → String
  | .condition _ _ field operator value => phrasebook.condition field operator value
  | .group _ _ negated children =>
    (if negated then (phrasebook.word "exclude").shown ++ " " else "") ++
      "(" ++ siblings phrasebook true children ++ ")"

/-- The description of siblings in order; the first of them has no combinator before it. -/
def siblings (phrasebook : Phrasebook) (first : Bool) : List Node → String
  | [] => ""
  | sibling :: rest =>
    (if first then "" else " " ++ (phrasebook.logicLabel sibling.logic).shown ++ " ") ++
      node phrasebook sibling ++ siblings phrasebook false rest

end

def describe (phrasebook : Phrasebook) (forest : Forest) : String :=
  phrasebook.siblings true forest

end Phrasebook

end DisplayFilter
