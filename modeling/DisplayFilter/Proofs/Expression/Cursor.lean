import DisplayFilter.Filter.Record
import DisplayFilter.Proofs.Expression.Clause
/-!
# Reading over a cursor

The descent step by step: one position moves over a fixed list of tokens, a loop takes a turn at the token
there, and an opening parenthesis makes the turn call the loop again. Here three things can go wrong: a
comparison that spells no operator, a group that is refused because it has no children, and a loop that
does not end, for which `sequenceWithin` has a number of turns that can run out.

The last two never come up. Every turn with another one behind it has moved the position
(`position_lt_of_turn`), so as many turns as there are tokens, and one more, are always enough, and what
they yield is the reading (`readWithin_eq`). What is left is the fault of a comparison, and the clauses of
the expression tell when it comes up (`exists_fault_iff`).
-/

namespace DisplayFilter.Reading

/-- A position among the tokens and the next free number. -/
structure Cursor where
  position : Nat
  nextId : Int
  deriving DecidableEq, Repr

namespace Cursor

/-- Passes over a token. -/
def forward (cursor : Cursor) : Cursor :=
  { cursor with position := cursor.position + 1 }

/-- Gives out the next number. -/
def mint (cursor : Cursor) : Cursor :=
  { cursor with nextId := cursor.nextId + 1 }

end Cursor

/-- Why there is nothing read: the turns ran out, a token spells no operator, or a group is refused. -/
inductive Halt where
  | unfinished
  | unknownOperator (token : Token)
  | refused (fault : FilterError)
  deriving DecidableEq, Repr

/-- How a turn ends: with the sequence going on, or with its end. -/
inductive Turn where
  | goOn (level : Level) (cursor : Cursor)
  | ended (cursor : Cursor)

/-- The value at the cursor, and where the cursor is then. -/
def valueFrom (tokens : List Token) (cursor : Cursor) : String × Cursor :=
  match tokens[cursor.position]? with
  | none => ("", cursor)
  | some token => if token.isWord then (token.content, cursor.forward) else ("", cursor)

/-- The operator at the cursor and the value behind it, and where the cursor is then. -/
def comparisonFrom (tokens : List Token) (cursor : Cursor) :
    Except Halt (Option (Operator × String) × Cursor) :=
  match tokens[cursor.position]? with
  | none => .ok (none, cursor)
  | some token =>
    if token.kind = .comparison then
      match token.operator? with
      | none => .error (.unknownOperator token)
      | some operator =>
        let (value, last) := valueFrom tokens cursor.forward
        .ok (some (operator, value), last)
    else .ok (none, cursor)

/-- A group, if it has children. -/
def buildGroup (id : Int) (logic : Logic) (negated : Bool) (children : Forest) : Except Halt Node :=
  (Node.group? id logic negated children).mapError .refused

/-- The node of a condition, and where the cursor is then. The group around a negated comparison is built
like any other. -/
def buildCondition (level : Level) (field : String) (cursor : Cursor) :
    Option (Operator × String) → Except Halt (Node × Cursor)
  | none =>
    let operator := if level.negated then .negatedExists else .exists
    .ok (.condition cursor.nextId level.logic field operator "", cursor.mint)
  | some (operator, value) =>
    if level.negated then
      let inner := .condition cursor.mint.nextId .and field operator value
      (buildGroup cursor.nextId level.logic true [inner]).map (·, cursor.mint.mint)
    else .ok (.condition cursor.nextId level.logic field operator value, cursor.mint)

/-- Passes over the parenthesis that closes a group, if there is one at the cursor. -/
def closeGroup (tokens : List Token) (cursor : Cursor) : Cursor :=
  match tokens[cursor.position]? with
  | none => cursor
  | some token => if token.kind = .rightParen then cursor.forward else cursor

/-- One turn of the loop, at this token. What stands in parentheses is read by `inside`. -/
def turn (tokens : List Token) (inside : Cursor → Except Halt (Forest × Cursor)) (nested : Bool)
    (level : Level) (cursor : Cursor) (token : Token) : Except Halt Turn :=
  match token.kind with
  | .leftParen =>
    (inside cursor.forward.mint).bind fun (children, last) =>
      if children.isEmpty then
        .ok (.goOn { level with negated := false } (closeGroup tokens last))
      else
        (buildGroup cursor.nextId level.logic level.negated children).map fun group =>
          .goOn (level.append group) (closeGroup tokens last)
  | .rightParen => .ok (.ended (if nested then cursor else { cursor with position := tokens.length }))
  | .and => .ok (.goOn { level with logic := .and } cursor.forward)
  | .or => .ok (.goOn { level with logic := .or } cursor.forward)
  | .not => .ok (.goOn { level with negated := !level.negated } cursor.forward)
  | .comparison | .atom =>
    (comparisonFrom tokens cursor.forward).bind fun (comparison, last) =>
      (buildCondition level token.content last comparison).map fun (node, last) =>
        .goOn (level.append node) last

/-- Reads a sequence from the cursor on, within so many turns. A call has one turn less than its caller. -/
def sequenceWithin (tokens : List Token) :
    Nat → Bool → Level → Cursor → Except Halt (Forest × Cursor)
  | 0, _, _, _ => .error .unfinished
  | turns + 1, nested, level, cursor =>
    match tokens[cursor.position]? with
    | none => .ok (level.nodes, cursor)
    | some token =>
      (turn tokens (sequenceWithin tokens turns true .empty) nested level cursor token).bind fun
        | .goOn level cursor => sequenceWithin tokens turns nested level cursor
        | .ended cursor => .ok (level.nodes, cursor)

/-- Reads tokens from the first one on within so many turns, numbering the nodes from `firstId` upwards. -/
def readWithin (tokens : List Token) (turns : Nat) (firstId : Int) :
    Except Halt (Forest × Cursor) :=
  sequenceWithin tokens turns false .empty ⟨0, firstId⟩

/-! ### What a turn does -/

section Turn

variable {tokens : List Token} {inside : Cursor → Except Halt (Forest × Cursor)} {nested : Bool}
  {level : Level} {cursor : Cursor} {token : Token}

theorem buildGroup_eq {children : Forest} (hchildren : children ≠ []) (id : Int) (logic : Logic)
    (negated : Bool) : buildGroup id logic negated children = .ok (.group id logic negated children) := by
  rw [buildGroup, Node.group?, if_neg (by simpa using hchildren)]
  rfl

theorem buildCondition_eq (level : Level) (field : String) (cursor : Cursor)
    (comparison : Option (Operator × String)) :
    buildCondition level field cursor comparison =
      .ok ((conditionNode level.logic level.negated cursor.nextId field comparison).1,
        ⟨cursor.position, (conditionNode level.logic level.negated cursor.nextId field comparison).2⟩) := by
  cases comparison with
  | none => rfl
  | some given =>
    obtain ⟨operator, value⟩ := given
    rw [buildCondition, conditionNode]
    cases level.negated with
    | false => rfl
    | true =>
      simp only [if_true, buildGroup_eq (List.cons_ne_nil _ _), Cursor.mint, Int.add_assoc]
      rfl

/-- A group without children is dropped before it is built, so none is refused. -/
theorem turn_leftParen (hkind : token.kind = .leftParen) :
    turn tokens inside nested level cursor token =
      (inside cursor.forward.mint).map fun (children, last) =>
        .goOn (level.appendGroup cursor.nextId children) (closeGroup tokens last) := by
  rw [turn, hkind]
  cases inside cursor.forward.mint with
  | error halt => rfl
  | ok result =>
    obtain ⟨children, last⟩ := result
    simp only [Except.bind, Except.map, Level.appendGroup]
    split
    · rfl
    · rename_i hchildren
      rw [buildGroup_eq (by simpa using hchildren)]

theorem turn_word (hword : token.isWord = true) :
    turn tokens inside nested level cursor token =
      (comparisonFrom tokens cursor.forward).map fun (comparison, last) =>
        let (node, next) :=
          conditionNode level.logic level.negated last.nextId token.content comparison
        .goOn (level.append node) ⟨last.position, next⟩ := by
  have hkind : token.kind = .atom ∨ token.kind = .comparison := by
    simpa [Token.isWord] using hword
  have hturn : turn tokens inside nested level cursor token =
      (comparisonFrom tokens cursor.forward).bind fun (comparison, last) =>
        (buildCondition level token.content last comparison).map fun (node, last) =>
          .goOn (level.append node) last := by
    rw [turn]
    rcases hkind with hkind | hkind <;> rw [hkind]
  rw [hturn]
  cases comparisonFrom tokens cursor.forward with
  | error halt => rfl
  | ok result => simp only [Except.bind, buildCondition_eq, Except.map]

/-! ### A turn moves the position -/

theorem position_le_valueFrom (tokens : List Token) (cursor : Cursor) :
    cursor.position ≤ (valueFrom tokens cursor).2.position := by
  unfold valueFrom
  split
  · exact Nat.le_refl _
  · split
    · exact Nat.le_succ _
    · exact Nat.le_refl _

theorem position_le_of_comparisonFrom {last : Cursor} {comparison : Option (Operator × String)}
    (hfrom : comparisonFrom tokens cursor = .ok (comparison, last)) :
    cursor.position ≤ last.position := by
  unfold comparisonFrom at hfrom
  split at hfrom
  · cases hfrom
    exact Nat.le_refl _
  · split at hfrom
    · split at hfrom
      · cases hfrom
      · cases hfrom
        have hvalue := position_le_valueFrom tokens cursor.forward
        exact Nat.le_of_succ_le hvalue
    · cases hfrom
      exact Nat.le_refl _

theorem position_le_closeGroup (tokens : List Token) (cursor : Cursor) :
    cursor.position ≤ (closeGroup tokens cursor).position := by
  unfold closeGroup
  split
  · exact Nat.le_refl _
  · split
    · exact Nat.le_succ _
    · exact Nat.le_refl _

/-- A turn behind which the sequence goes on has moved the position, if no call moves it back. -/
theorem position_lt_of_goOn
    (hinside : ∀ {start children last}, inside start = .ok (children, last) →
      start.position ≤ last.position)
    {next : Level} {last : Cursor}
    (hturn : turn tokens inside nested level cursor token = .ok (.goOn next last)) :
    cursor.position < last.position := by
  cases hkind : token.kind with
  | leftParen =>
    rw [turn_leftParen hkind] at hturn
    cases hcall : inside cursor.forward.mint with
    | error halt =>
      rw [hcall] at hturn
      cases hturn
    | ok result =>
      rw [hcall] at hturn
      cases hturn
      exact Nat.lt_of_lt_of_le (hinside hcall) (position_le_closeGroup tokens result.2)
  | comparison | atom =>
    rw [turn_word (by simp [Token.isWord, hkind])] at hturn
    cases hfrom : comparisonFrom tokens cursor.forward with
    | error halt =>
      rw [hfrom] at hturn
      cases hturn
    | ok result =>
      rw [hfrom] at hturn
      cases hturn
      exact position_le_of_comparisonFrom hfrom
  | rightParen =>
    rw [turn, hkind] at hturn
    cases hturn
  | and | or | not =>
    rw [turn, hkind] at hturn
    cases hturn
    exact Nat.lt_succ_self _

end Turn

/-! ### The loop ends -/

variable {tokens : List Token} {nested : Bool} {level : Level} {cursor last : Cursor} {nodes : Forest}

theorem turn_ended {inside : Cursor → Except Halt (Forest × Cursor)} {token : Token}
    (hturn : turn tokens inside nested level cursor token = .ok (.ended last)) :
    token.kind = .rightParen ∧
      last = if nested then cursor else { cursor with position := tokens.length } := by
  cases hkind : token.kind with
  | leftParen =>
    rw [turn_leftParen hkind] at hturn
    cases hcall : inside cursor.forward.mint <;> rw [hcall] at hturn <;> cases hturn
  | comparison | atom =>
    rw [turn_word (by simp [Token.isWord, hkind])] at hturn
    cases hfrom : comparisonFrom tokens cursor.forward <;> rw [hfrom] at hturn <;> cases hturn
  | rightParen =>
    rw [turn, hkind] at hturn
    cases hturn
    exact ⟨rfl, rfl⟩
  | and | or | not =>
    rw [turn, hkind] at hturn
    cases hturn

/-- How a loop gets to its result: at the end of the tokens, by a turn that ends the sequence, or by a
turn and the rest of the loop. -/
theorem sequenceWithin_cases {turns : Nat}
    (hread : sequenceWithin tokens (turns + 1) nested level cursor = .ok (nodes, last)) :
    (tokens.length ≤ cursor.position ∧ last = cursor) ∨
    (cursor.position < tokens.length ∧
      last = if nested then cursor else { cursor with position := tokens.length }) ∨
    ∃ token next middle,
      turn tokens (sequenceWithin tokens turns true .empty) nested level cursor token =
        .ok (.goOn next middle) ∧
      sequenceWithin tokens turns nested next middle = .ok (nodes, last) := by
  rw [sequenceWithin] at hread
  cases hat : tokens[cursor.position]? with
  | none =>
    rw [hat] at hread
    cases hread
    exact .inl ⟨List.getElem?_eq_none_iff.1 hat, rfl⟩
  | some token =>
    simp only [hat] at hread
    cases hturn : turn tokens (sequenceWithin tokens turns true .empty) nested level cursor token with
    | error halt =>
      rw [hturn] at hread
      cases hread
    | ok result =>
      rw [hturn] at hread
      cases result with
      | goOn next middle => exact .inr (.inr ⟨token, next, middle, hturn, hread⟩)
      | ended stop =>
        cases hread
        exact .inr (.inl ⟨(List.getElem?_eq_some_iff.1 hat).1, (turn_ended hturn).2⟩)

theorem position_le_of_sequenceWithin {turns : Nat}
    (hread : sequenceWithin tokens turns nested level cursor = .ok (nodes, last)) :
    cursor.position ≤ last.position := by
  induction turns generalizing nested level cursor nodes last with
  | zero => cases hread
  | succ turns ih =>
    rcases sequenceWithin_cases hread with ⟨_, rfl⟩ | ⟨hlt, rfl⟩ | ⟨_, _, _, hturn, hrest⟩
    · exact Nat.le_refl _
    · split
      · exact Nat.le_refl _
      · exact Nat.le_of_lt hlt
    · exact Nat.le_trans (Nat.le_of_lt (position_lt_of_goOn ih hturn)) (ih hrest)

theorem position_lt_of_turn {turns : Nat} {token : Token} {next : Level}
    (hturn : turn tokens (sequenceWithin tokens turns true .empty) nested level cursor token =
      .ok (.goOn next last)) : cursor.position < last.position :=
  position_lt_of_goOn position_le_of_sequenceWithin hturn

/-- A loop that no parenthesis encloses gets to the end of the tokens. -/
theorem length_le_position {turns : Nat}
    (hread : sequenceWithin tokens turns false level cursor = .ok (nodes, last)) :
    tokens.length ≤ last.position := by
  induction turns generalizing level cursor with
  | zero => cases hread
  | succ turns ih =>
    rcases sequenceWithin_cases hread with ⟨hle, rfl⟩ | ⟨_, rfl⟩ | ⟨_, _, _, _, hrest⟩
    · exact hle
    · exact Nat.le_refl _
    · exact ih hrest

theorem turn_ne_refused {inside : Cursor → Except Halt (Forest × Cursor)} {fault : FilterError}
    (hinside : ∀ start, inside start ≠ .error (.refused fault)) (token : Token) :
    turn tokens inside nested level cursor token ≠ .error (.refused fault) := by
  intro hturn
  cases hkind : token.kind with
  | leftParen =>
    rw [turn_leftParen hkind] at hturn
    cases hcall : inside cursor.forward.mint with
    | error halt =>
      rw [hcall] at hturn
      cases hturn
      exact hinside _ hcall
    | ok result =>
      rw [hcall] at hturn
      cases hturn
  | comparison | atom =>
    rw [turn_word (by simp [Token.isWord, hkind]), comparisonFrom] at hturn
    split at hturn
    · cases hturn
    · split at hturn
      · split at hturn <;> cases hturn
      · cases hturn
  | rightParen | and | or | not =>
    rw [turn, hkind] at hturn
    cases hturn

/-- No group is refused, whatever the tokens and wherever the cursor is. -/
theorem sequenceWithin_ne_refused (tokens : List Token) (turns : Nat) (nested : Bool) (level : Level)
    (cursor : Cursor) (fault : FilterError) :
    sequenceWithin tokens turns nested level cursor ≠ .error (.refused fault) := by
  induction turns generalizing nested level cursor with
  | zero =>
    intro hread
    cases hread
  | succ turns ih =>
    intro hread
    rw [sequenceWithin] at hread
    cases hat : tokens[cursor.position]? with
    | none =>
      rw [hat] at hread
      cases hread
    | some token =>
      simp only [hat] at hread
      cases hturn : turn tokens (sequenceWithin tokens turns true .empty) nested level cursor token with
      | error halt =>
        rw [hturn] at hread
        cases hread
        exact turn_ne_refused (ih true .empty) token hturn
      | ok result =>
        rw [hturn] at hread
        cases result with
        | goOn next middle => exact ih _ _ _ hread
        | ended stop => cases hread

/-! ### The loop is the descent -/

/-- The cursor stands in front of these of the tokens. -/
structure Cursor.Before (tokens rest : List Token) (cursor : Cursor) : Prop where
  drop_eq : tokens.drop cursor.position = rest
  le : cursor.position ≤ tokens.length

namespace Cursor.Before

variable {rest : List Token} {token : Token}

theorem getElem?_eq (hbefore : cursor.Before tokens rest) :
    tokens[cursor.position]? = rest.head? := by
  rw [← hbefore.drop_eq, List.head?_drop]

theorem forward (hbefore : cursor.Before tokens (token :: rest)) :
    cursor.forward.Before tokens rest := by
  have hat := hbefore.getElem?_eq
  refine ⟨?_, (List.getElem?_eq_some_iff.1 hat).1⟩
  rw [Cursor.forward, ← List.tail_drop, hbefore.drop_eq, List.tail_cons]

theorem withNextId (hbefore : cursor.Before tokens rest) (nextId : Int) :
    (Cursor.mk cursor.position nextId).Before tokens rest :=
  ⟨hbefore.drop_eq, hbefore.le⟩

theorem mint (hbefore : cursor.Before tokens rest) : cursor.mint.Before tokens rest :=
  ⟨hbefore.drop_eq, hbefore.le⟩

theorem atEnd (nextId : Int) : (Cursor.mk tokens.length nextId).Before tokens [] :=
  ⟨List.drop_length, Nat.le_refl _⟩

theorem closeGroup (hbefore : cursor.Before tokens rest) :
    (closeGroup tokens cursor).Before tokens (afterGroup rest) := by
  rw [Reading.closeGroup, hbefore.getElem?_eq]
  cases rest with
  | nil => exact hbefore
  | cons token rest =>
    simp only [List.head?_cons, afterGroup]
    split
    · exact hbefore.forward
    · exact hbefore

theorem valueFrom (hbefore : cursor.Before tokens rest) :
    (valueFrom tokens cursor).1 = (valueAt rest).1 ∧
      (valueFrom tokens cursor).2.Before tokens (valueAt rest).2 := by
  rw [Reading.valueFrom, hbefore.getElem?_eq]
  cases rest with
  | nil => exact ⟨rfl, hbefore⟩
  | cons token rest =>
    simp only [List.head?_cons, valueAt]
    split
    · exact ⟨rfl, hbefore.forward⟩
    · exact ⟨rfl, hbefore⟩

end Cursor.Before

theorem nextId_closeGroup (tokens : List Token) (cursor : Cursor) :
    (closeGroup tokens cursor).nextId = cursor.nextId := by
  unfold closeGroup
  split
  · rfl
  · split <;> rfl

theorem nextId_valueFrom (tokens : List Token) (cursor : Cursor) :
    (valueFrom tokens cursor).2.nextId = cursor.nextId := by
  unfold valueFrom
  split
  · rfl
  · split <;> rfl

/-- The cursor finds the comparison that stands behind a field. -/
theorem comparisonFrom_eq {rest : List Token} (hbefore : cursor.Before tokens rest) :
    match comparisonAt rest with
    | .error fault => comparisonFrom tokens cursor = .error (.unknownOperator fault.token)
    | .ok (comparison, after) => ∃ last, comparisonFrom tokens cursor = .ok (comparison, last) ∧
        last.Before tokens after ∧ last.nextId = cursor.nextId := by
  rw [comparisonFrom, hbefore.getElem?_eq]
  cases rest with
  | nil => exact ⟨cursor, rfl, hbefore, rfl⟩
  | cons token rest =>
    simp only [List.head?_cons, comparisonAt]
    by_cases hkind : token.kind = .comparison
    · simp only [hkind, if_true]
      cases token.operator? with
      | none => rfl
      | some operator =>
        obtain ⟨hvalue, hafter⟩ := hbefore.forward.valueFrom
        exact ⟨_, by rw [← hvalue], hafter, nextId_valueFrom ..⟩
    · simp only [if_neg hkind]
      exact ⟨cursor, rfl, hbefore, rfl⟩

/-- A loop has come to the stop of a descent. -/
def ComesTo (tokens : List Token) (result : Except Halt (Forest × Cursor)) {rest : List Token} :
    Except UnknownOperator (Stop rest) → Prop
  | .error fault => result = .error (.unknownOperator fault.token)
  | .ok stop => ∃ last, result = .ok (stop.nodes, last) ∧ last.Before tokens stop.rest ∧
      last.nextId = stop.nextId

theorem comesTo_ofLe {result : Except Halt (Forest × Cursor)} {short long : List Token}
    (hle : short.length ≤ long.length) {stop : Except UnknownOperator (Stop short)} :
    ComesTo tokens result (stop.map (.ofLe hle)) ↔ ComesTo tokens result stop := by
  cases stop <;> rfl

/-- With more turns than tokens in front of it a loop comes to where the descent stops. -/
theorem comesTo_sequence {turns : Nat} {rest : List Token} (hbefore : cursor.Before tokens rest)
    (hturns : rest.length < turns) (nested : Bool) (level : Level) :
    ComesTo tokens (sequenceWithin tokens turns nested level cursor)
      (sequence nested level cursor.nextId rest) := by
  induction turns generalizing rest nested level cursor with
  | zero => exact absurd hturns (Nat.not_lt_zero _)
  | succ turns ih =>
    cases rest with
    | nil =>
      rw [sequence, sequenceWithin, hbefore.getElem?_eq]
      exact ⟨cursor, rfl, hbefore, rfl⟩
    | cons token rest =>
      have hrest : rest.length < turns := Nat.lt_of_succ_lt_succ hturns
      rw [sequence, sequenceWithin, hbefore.getElem?_eq]
      simp only [List.head?_cons]
      cases hkind : token.kind with
      | and | or | not =>
        rw [turn, hkind]
        exact (comesTo_ofLe _).2 (ih hbefore.forward hrest _ _)
      | leftParen =>
        rw [turn_leftParen hkind]
        have hcall := ih hbefore.forward.mint hrest true .empty
        change ComesTo tokens _ (sequence true .empty (cursor.nextId + 1) rest) at hcall
        simp only
        cases hinner : sequence true .empty (cursor.nextId + 1) rest with
        | error fault =>
          rw [hinner] at hcall
          have hfault : sequenceWithin tokens turns true .empty cursor.forward.mint =
            .error (.unknownOperator fault.token) := hcall
          rw [hfault]
          rfl
        | ok inner =>
          rw [hinner] at hcall
          obtain ⟨last, hlast, hstop, hnext⟩ := hcall
          have hbehind := ih hstop.closeGroup
            (Nat.lt_of_le_of_lt inner.length_afterGroup_le hrest) nested
            (level.appendGroup cursor.nextId inner.nodes)
          rw [nextId_closeGroup, hnext] at hbehind
          rw [hlast]
          exact (comesTo_ofLe _).2 hbehind
      | rightParen =>
        rw [turn, hkind]
        cases nested with
        | false => exact ⟨_, rfl, .atEnd _, rfl⟩
        | true => exact ⟨_, rfl, hbefore, rfl⟩
      | comparison | atom =>
        rw [turn_word (by simp [Token.isWord, hkind])]
        have hcomparison := comparisonFrom_eq hbefore.forward
        simp only
        split
        · rename_i hat
          rw [hat] at hcomparison
          rw [hcomparison]
          rfl
        · rename_i comparison after hat
          rw [hat] at hcomparison
          obtain ⟨last, hlast, hafter, hnext⟩ := hcomparison
          rw [hlast]
          have hbehind := ih (hafter.withNextId
            (conditionNode level.logic level.negated last.nextId token.content comparison).2)
            (Nat.lt_of_le_of_lt (length_comparisonAt_le hat) hrest) nested
            (level.append
              (conditionNode level.logic level.negated last.nextId token.content comparison).1)
          change last.nextId = cursor.nextId at hnext
          refine (comesTo_ofLe _).2 ?_
          rw [← hnext]
          exact hbehind

theorem readWithin_eq (tokens : List Token) (firstId : Int) (more : Nat) :
    readWithin tokens (tokens.length + 1 + more) firstId =
      match ofTokens tokens firstId with
      | .error fault => .error (.unknownOperator fault.token)
      | .ok reading => .ok (reading.forest, ⟨tokens.length, reading.nextId⟩) := by
  have hbefore : (Cursor.mk 0 firstId).Before tokens tokens := ⟨rfl, Nat.zero_le _⟩
  have hread := comesTo_sequence hbefore (by omega : tokens.length < tokens.length + 1 + more) false .empty
  rw [ofTokens_eq_descend, descend, readWithin]
  cases hstop : sequence false .empty firstId tokens with
  | error fault =>
    rw [hstop] at hread
    exact hread
  | ok stop =>
    rw [hstop] at hread
    obtain ⟨last, hlast, hrest, hnext⟩ := hread
    have hend := Nat.le_antisymm hrest.le (length_le_position hlast)
    rw [hlast]
    simp only [Except.map, ← hnext, ← hend]

open Token in
/-- Reading over a cursor, from any position and on any tokens: a turn behind which the loop goes on has
moved the position, only a closing parenthesis ends a loop before the end of the tokens, and no group is
refused. From the first token on, as many turns as there are tokens, and any number more, are enough to end.
Then either some field has an operator right behind it that spells none, up to the first parenthesis that
closes nothing, and the reading ends at such a token, or the reading is done and the position is behind the
last token. The tokens of a text spell their operators, so a text is always read. -/
theorem readWithin_total :
    (∀ (tokens : List Token) (turns : Nat) (nested : Bool) (level : Level) (cursor : Cursor),
      (∀ token next last,
        turn tokens (sequenceWithin tokens turns true .empty) nested level cursor token =
          .ok (.goOn next last) → cursor.position < last.position) ∧
      (∀ token last,
        turn tokens (sequenceWithin tokens turns true .empty) nested level cursor token =
          .ok (.ended last) → token.kind = .rightParen ∧
            last = if nested then cursor else { cursor with position := tokens.length }) ∧
      ∀ fault, sequenceWithin tokens turns nested level cursor ≠ .error (.refused fault)) ∧
    (∀ (tokens : List Token) (firstId : Int) (more : Nat),
      ((∃ token,
          readWithin tokens (tokens.length + 1 + more) firstId = .error (.unknownOperator token)) ↔
        ∃ clause ∈ clauses 0 false (readable 0 tokens), ∃ token,
          clause.operator = some token ∧ token.operator? = none) ∧
      ((∃ token,
          readWithin tokens (tokens.length + 1 + more) firstId = .error (.unknownOperator token) ∧
            ofTokens tokens firstId = .error ⟨token⟩) ∨
        ∃ reading,
          readWithin tokens (tokens.length + 1 + more) firstId =
            .ok (reading.forest, ⟨tokens.length, reading.nextId⟩) ∧
          ofTokens tokens firstId = .ok reading ∧ Forest.wellFormed reading.forest = true)) ∧
    ∀ (text : String) (firstId : Int) (more : Nat),
      KnowsComparisons (scan text) ∧
      readWithin (scan text) ((scan text).length + 1 + more) firstId =
        .ok ((ofText text firstId).forest, ⟨(scan text).length, (ofText text firstId).nextId⟩) := by
  refine ⟨fun tokens turns nested level cursor => ?_, fun tokens firstId more => ?_,
    fun text firstId more => ⟨knowsComparisons_scan text, ?_⟩⟩
  · exact ⟨fun _ _ _ => position_lt_of_turn, fun _ _ => turn_ended,
      sequenceWithin_ne_refused tokens turns nested level cursor⟩
  · have hread := readWithin_eq tokens firstId more
    rw [← exists_fault_iff tokens firstId]
    cases hof : ofTokens tokens firstId with
    | error fault =>
      rw [hof] at hread
      exact ⟨⟨fun _ => ⟨fault, rfl⟩, fun _ => ⟨fault.token, hread⟩⟩, .inl ⟨fault.token, hread, rfl⟩⟩
    | ok reading =>
      rw [hof] at hread
      exact ⟨by simp [hread], .inr ⟨reading, hread, rfl, (numbered_of_ofTokens hof).wellFormed⟩⟩
  · rw [readWithin_eq, ofTokens_scan]

open Token in
/-- A comparison that spells nothing does no harm as a value or behind the last parenthesis, and ends the
reading behind a field. -/
theorem readWithin_total_misspelt :
    let field : Token := ⟨.atom, "tcp"⟩
    let misspelt : Token := ⟨.comparison, "=~"⟩
    let harmless : List Token :=
      [⟨.leftParen, "("⟩, field, ⟨.comparison, "=="⟩, misspelt, ⟨.rightParen, ")"⟩,
        ⟨.rightParen, ")"⟩, field, misspelt]
    let harmful : List Token := [⟨.leftParen, "("⟩, misspelt, misspelt]
    (∃ forest nextId, readWithin harmless (harmless.length + 1 + 0) 1 = .ok (forest, ⟨8, nextId⟩)) ∧
      ∃ token, readWithin harmful (harmful.length + 1 + 0) 1 = .error (.unknownOperator token) := by
  intro field misspelt harmless harmful
  obtain ⟨_, hread, _⟩ := readWithin_total
  refine ⟨?_, (hread harmful 1 0).1.2 ?_⟩
  · rcases (hread harmless 1 0).2 with ⟨token, _, hfault⟩ | ⟨reading, hdone, _⟩
    · cases hfault
    · exact ⟨_, _, hdone⟩
  · refine ⟨⟨1, false, misspelt, some misspelt, none⟩, ?_, misspelt, rfl, by decide⟩
    simp [harmful, misspelt, readable, clauses, operands, nextIf]

end DisplayFilter.Reading
