import DisplayFilter.Document.Yaml.Node
import DisplayFilter.Document.Yaml.Token
/-!
# Reading documents

The tokens of a text make one document, or none when the text is malformed. A collection ends where its
closing token stands; what is left out between two tokens is nothing. A text holds one document at most;
without one its value is nothing. A part of YAML is read: anchors, aliases, tags, block scalars and directives
are not, and a text with any of them counts as malformed.
-/

namespace DisplayFilter.Yaml

def scalar? : Token → Option Node
  | .plain text => some (.plain text)
  | .quoted text => some (.quoted text)
  | _ => none

/-- The place of a part of a document. -/
inductive Position where
  | block
  | blockOrItems
  | bracketed
  deriving DecidableEq

/-- The tokens that show that an entry of a block mapping has no more to it. -/
def endsBlockEntry : Option Token → Bool
  | some .key | some .value | some .blockEnd => true
  | _ => false

/-- The tokens that show that an item of a block sequence is left out. -/
def endsItem : Option Token → Bool
  | some .item | some .blockEnd => true
  | _ => false

mutual

/-- A part of a document, and the tokens after it. -/
def node? : Nat → Position → List Token → Option (Node × List Token)
  | 0, _, _ => none
  | fuel + 1, position, tokens =>
    match tokens with
    | .openBracket :: rest => bracketed? fuel true [] rest
    | .openBrace :: rest => braced? fuel true [] rest
    | .blockSequence :: rest => if position = .bracketed then none else items? fuel [] rest
    | .blockMapping :: rest => if position = .bracketed then none else entries? fuel [] rest
    | .item :: _ => if position = .blockOrItems then looseItems? fuel [] tokens else none
    | token :: rest => (scalar? token).map fun node => (node, rest)
    | [] => none

/-- A part of a document, or nothing where it is left out. -/
def nodeUnless? : Nat → Position → Bool → List Token → Option (Node × List Token)
  | 0, _, _, _ => none
  | fuel + 1, position, isAbsent, tokens =>
    if isAbsent then some (.absent, tokens) else node? fuel position tokens

def items? : Nat → List Node → List Token → Option (Node × List Token)
  | 0, _, _ => none
  | fuel + 1, items, tokens =>
    match tokens with
    | .item :: rest => do
      let (item, rest) ← nodeUnless? fuel .block (endsItem rest.head?) rest
      items? fuel (items ++ [item]) rest
    | .blockEnd :: rest => some (.sequence items, rest)
    | _ => none

/-- The items of a block sequence at the column of the key it belongs to. -/
def looseItems? : Nat → List Node → List Token → Option (Node × List Token)
  | 0, _, _ => none
  | fuel + 1, items, tokens =>
    match tokens with
    | .item :: rest => do
      let isAbsent := endsItem rest.head? || endsBlockEntry rest.head?
      let (item, rest) ← nodeUnless? fuel .block isAbsent rest
      looseItems? fuel (items ++ [item]) rest
    | _ => some (.sequence items, tokens)

def entries? : Nat → List (Node × Node) → List Token → Option (Node × List Token)
  | 0, _, _ => none
  | fuel + 1, entries, tokens =>
    match tokens with
    | .key :: rest => do
      let (key, rest) ← nodeUnless? fuel .blockOrItems (endsBlockEntry rest.head?) rest
      let (value, rest) ← match rest with
        | .value :: rest => nodeUnless? fuel .blockOrItems (endsBlockEntry rest.head?) rest
        | _ => some (.absent, rest)
      entries? fuel (entries ++ [(key, value)]) rest
    | .blockEnd :: rest => some (.mapping entries, rest)
    | _ => none

/-- A key between brackets or braces with its value, up to a comma or the closing token. -/
def pair? : Nat → Token → List Token → Option (Node × Node × List Token)
  | 0, _, _ => none
  | fuel + 1, closing, tokens => do
    let ends (token : Option Token) : Bool := token == some .comma || token == some closing
    let noKey := ends tokens.head? || tokens.head? == some .value
    let (key, rest) ← nodeUnless? fuel .bracketed noKey tokens
    match rest with
    | .value :: rest =>
      let (value, rest) ← nodeUnless? fuel .bracketed (ends rest.head?) rest
      some (key, value, rest)
    | _ => some (key, .absent, rest)

/-- The items between brackets. An item may be a single pair. -/
def bracketed? : Nat → Bool → List Node → List Token → Option (Node × List Token)
  | 0, _, _, _ => none
  | fuel + 1, first, items, tokens =>
    match first, tokens with
    | _, .closeBracket :: rest => some (.sequence items, rest)
    | false, .comma :: .closeBracket :: rest => some (.sequence items, rest)
    | true, .key :: rest | false, .comma :: .key :: rest => do
      let (key, value, rest) ← pair? fuel .closeBracket rest
      bracketed? fuel false (items ++ [.mapping [(key, value)]]) rest
    | true, rest | false, .comma :: rest => do
      let (item, rest) ← node? fuel .bracketed rest
      bracketed? fuel false (items ++ [item]) rest
    | false, _ => none

/-- The entries between braces. An entry may be a key without a value. -/
def braced? : Nat → Bool → List (Node × Node) → List Token → Option (Node × List Token)
  | 0, _, _, _ => none
  | fuel + 1, first, entries, tokens =>
    match first, tokens with
    | _, .closeBrace :: rest => some (.mapping entries, rest)
    | false, .comma :: .closeBrace :: rest => some (.mapping entries, rest)
    | true, .key :: rest | false, .comma :: .key :: rest => do
      let (key, value, rest) ← pair? fuel .closeBrace rest
      braced? fuel false (entries ++ [(key, value)]) rest
    | true, rest | false, .comma :: rest => do
      let (key, rest) ← node? fuel .bracketed rest
      braced? fuel false (entries ++ [(key, .absent)]) rest
    | false, _ => none

end

/-- The document that the tokens of a text make, or nothing if there is none. -/
def document? (tokens : List Token) : Option Node := do
  let fuel := 3 * tokens.length + 3
  let (node, rest) ← match tokens with
    | [] => some (.absent, [])
    | .documentStart :: rest =>
      let isEmpty := rest.isEmpty || rest.head? == some .documentStart ||
        rest.head? == some .documentEnd
      nodeUnless? fuel .block isEmpty rest
    | _ => node? fuel .block tokens
  if rest.all (· == .documentEnd) then some node else none

/-- The reader of the command line. -/
def read : DocumentReader := fun text =>
  match (tokens? text).bind document? with
  | some node => node.value
  | none => .error .malformed

end DisplayFilter.Yaml
