import DisplayFilter.Document.Display
import DisplayFilter.Filter.Error
/-!
# Nodes as records

A node is exchanged as a mapping of its attributes. Reading one fills in attributes that are left out,
takes combinators and operators by their exact symbols, and refuses a group without children.
-/

namespace DisplayFilter

mutual

def Node.record : Node → Value
  | .condition id logic field operator value =>
    .record [("id", .int id), ("kind", .text "condition"), ("logic", .text logic.symbol),
      ("field", .text field), ("operator", .text operator.symbol), ("value", .text value)]
  | .group id logic negated children =>
    .record [("id", .int id), ("kind", .text "group"), ("logic", .text logic.symbol),
      ("negated", .bool negated), ("children", .sequence (Forest.records children))]

def Forest.records : List Node → List Value
  | [] => []
  | node :: rest => node.record :: Forest.records rest

end

namespace Node

/-- A group, if it has children. -/
def group? (id : Int) (logic : Logic) (negated : Bool) (children : Forest) :
    Except FilterError Node :=
  if children.isEmpty then .error (.emptyGroup id) else .ok (.group id logic negated children)

end Node

/-- The combinator of a record, by its exact symbol. -/
def Logic.ofRecord (value : Value) : Except FilterError Logic :=
  match value with
  | .text symbol => match Logic.ofSymbol? symbol with
    | some logic => .ok logic
    | none => .error (.noLogic value.literal)
  | _ => .error (.noLogic value.literal)

/-- The operator of a record, by its exact symbol. -/
def Operator.ofRecord (value : Value) : Except FilterError Operator :=
  match value with
  | .text symbol => match Operator.ofSymbol? symbol with
    | some operator => .ok operator
    | none => .error (.noOperator value.literal)
  | _ => .error (.noOperator value.literal)

/-- The kind of node a value names. -/
def NodeKind.ofRecord (value : Value) : Except FilterError NodeKind :=
  match value with
  | .text name => match NodeKind.ofName? name with
    | some kind => .ok kind
    | none => .error (.noKind value.literal)
  | _ => .error (.noKind value.literal)

/-- The attributes of a record while it is read. -/
structure NodeDraft where
  id : Int := 0
  kind : NodeKind := .condition
  logic : Value := .text "&&"
  field : String := ""
  operator : Value := .text "exists"
  value : String := ""
  negated : Bool := false
  children : Except FilterError Forest := .ok []

/-- The node of a draft. Children come first, then the combinator, then what the kind asks for. -/
def NodeDraft.build (draft : NodeDraft) : Except FilterError Node := do
  match draft.kind with
  | .condition =>
    let logic ← Logic.ofRecord draft.logic
    let operator ← Operator.ofRecord draft.operator
    return .condition draft.id logic draft.field operator draft.value
  | .group =>
    let children ← draft.children
    let logic ← Logic.ofRecord draft.logic
    Node.group? draft.id logic draft.negated children

mutual

def Node.ofRecord : Value → Except FilterError Node
  | .mapping entries => (NodeDraft.ofEntries {} entries).build
  | _ => ({} : NodeDraft).build

/-- Reads the attributes of a record one by one; unknown ones are passed over. -/
def NodeDraft.ofEntries (draft : NodeDraft) : List (Scalar × Value) → NodeDraft
  | [] => draft
  | (.text name, value) :: rest =>
    NodeDraft.ofEntries
      (match name with
        | "id" => { draft with id := value.toInt?.getD 0 }
        | "kind" => { draft with kind := if value.shown == "group" then .group else .condition }
        | "logic" => { draft with logic := value }
        | "field" => { draft with field := value.shown }
        | "operator" => { draft with operator := value }
        | "value" => { draft with value := value.shown }
        | "negated" => { draft with negated := value.isTruthy }
        | "children" => { draft with children := Forest.ofRecord value }
        | _ => draft)
      rest
  | _ :: rest => NodeDraft.ofEntries draft rest

def Forest.ofRecord : Value → Except FilterError Forest
  | .sequence items => Forest.ofRecords items
  | _ => .ok []

/-- Reads records in order. -/
def Forest.ofRecords : List Value → Except FilterError Forest
  | [] => .ok []
  | value :: rest => do
    let node ← Node.ofRecord value
    let nodes ← Forest.ofRecords rest
    return node :: nodes

end

end DisplayFilter
