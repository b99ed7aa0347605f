import DisplayFilter.Proofs.Tree.Valid
/-!
# Editing sessions

A session is a run of edits in which a faulty edit leaves the tree in place. Every tree of a session is
valid when the first one is, and an edit fails for a reason that lies in the edit: an entry of a patch its
node refuses, or a word that is no kind of node (`session_valid`). The faults of building a tree, no
root, an empty group and a number given twice, never come up.
-/

namespace DisplayFilter

namespace Edit

/-- The tree after an edit of a session. -/
def attempt (tree : Tree) (edit : Edit) : Tree :=
  match edit.run tree with
  | .ok next => next
  | .error _ => tree

/-- The tree after a session. -/
def attemptAll (tree : Tree) (edits : List Edit) : Tree :=
  edits.foldl attempt tree

/-- The faults an edit can have on a tree. -/
inductive Refuses (tree : Tree) : Edit → FilterError → Prop where
  | update {given : Value} {id : Int} {patch : Patch} {node : Node} {entry : String × Argument}
      {fault : FilterError} (hid : given.toInt? = some id) (hfind : tree.find? id = some node)
      (hentry : entry ∈ patch) (hrefused : Refused node.kind entry fault) :
      Refuses tree (.update given patch) fault
  | add {parent kind : Value} (hkind : ∀ known : NodeKind, kind ≠ .text known.name) :
      Refuses tree (.add parent kind) (.noKind kind.literal)

theorem ofName?_name (kind : NodeKind) : NodeKind.ofName? kind.name = some kind := by
  cases kind <;> rfl

theorem ofRecord_cases (kind : Value) :
    (∃ known, NodeKind.ofRecord kind = .ok known) ∨
      (NodeKind.ofRecord kind = .error (.noKind kind.literal) ∧
        ∀ known : NodeKind, kind ≠ .text known.name) := by
  unfold NodeKind.ofRecord
  split
  · rename_i name
    cases hname : NodeKind.ofName? name with
    | some known => exact .inl ⟨known, rfl⟩
    | none =>
      refine .inr ⟨rfl, fun known heq => ?_⟩
      cases heq
      rw [ofName?_name] at hname
      cases hname
  · rename_i hother
    exact .inr ⟨rfl, fun known heq => hother _ heq⟩

/-- What a part of an edit makes of a tree: nothing, a valid tree, or one of the known faults. -/
inductive Outcome (tree : Tree) (edit : Edit) : Except FilterError (Option Tree) → Prop where
  | same : Outcome tree edit (.ok none)
  | changed {next : Tree} (hvalid : next.Valid) : Outcome tree edit (.ok (some next))
  | refused {fault : FilterError} (hrefuses : edit.Refuses tree fault) :
      Outcome tree edit (.error fault)

variable {tree : Tree}

theorem outcome_update (hvalid : tree.Valid) (given : Value) (patch : Patch) :
    Outcome tree (.update given patch) ((Edit.update given patch).run? tree) := by
  simp only [run?]
  cases hid : given.toInt? with
  | none => exact .same
  | some id =>
    rcases hvalid.update?_cases id patch with ⟨_, heq⟩ | ⟨node, fault, hfind, hpatch, heq⟩ |
      ⟨_, _, _, _, _, _, _, heq, hnext⟩
    · simp only [heq]
      exact .same
    · simp only [heq]
      obtain ⟨entry, hentry, hrefused⟩ := Node.exists_refused_of_applyPatch hpatch
      exact .refused (.update hid hfind hentry hrefused)
    · simp only [heq]
      exact .changed hnext

theorem outcome_add (hvalid : tree.Valid) (parent kind : Value) :
    Outcome tree (.add parent kind) ((Edit.add parent kind).run? tree) := by
  unfold run?
  rcases ofRecord_cases kind with ⟨known, hknown⟩ | ⟨herror, hkind⟩
  · simp only [hknown, bind, Except.bind]
    split
    · obtain ⟨heq, hnext⟩ := hvalid.addRoot_eq known
      rw [heq]
      exact .changed hnext
    · split
      · rename_i id _
        rcases hvalid.addChild?_cases id known with ⟨_, heq⟩ | ⟨_, _, _, _, _, _, _, _, heq, hnext⟩
        · rw [heq]
          exact .same
        · rw [heq]
          exact .changed hnext
      · exact .same
  · simp only [herror, bind, Except.bind]
    exact .refused (.add hkind)

theorem outcome_remove (hvalid : tree.Valid) (given : Value) :
    Outcome tree (.remove given) ((Edit.remove given).run? tree) := by
  simp only [run?]
  cases given.toInt? with
  | none => exact .same
  | some id =>
    rcases hvalid.remove?_cases id with ⟨_, heq⟩ | ⟨_, _, _, _, _, _, heq⟩ | ⟨_, _, _, _, _, heq, hnext⟩
    · simp only [heq]
      exact .same
    · simp only [heq]
      exact .same
    · simp only [heq]
      exact .changed hnext

theorem outcome_load (text : String) :
    Outcome tree (.load text) ((Edit.load text).run? tree) := by
  change Outcome tree _ (tree.load? text)
  rcases tree.load?_cases text with ⟨_, heq⟩ | ⟨_, heq, _, hnext⟩
  · rw [heq]
    exact .same
  · rw [heq]
    exact .changed hnext

theorem outcome_run? (hvalid : tree.Valid) (edit : Edit) :
    Outcome tree edit (edit.run? tree) := by
  cases edit with
  | update given patch => exact outcome_update hvalid given patch
  | add parent kind => exact outcome_add hvalid parent kind
  | remove given => exact outcome_remove hvalid given
  | load text => exact outcome_load text

theorem refuses_of_run (hvalid : tree.Valid) {edit : Edit} {fault : FilterError}
    (hrun : edit.run tree = .error fault) : edit.Refuses tree fault := by
  have houtcome := outcome_run? hvalid edit
  unfold run at hrun
  generalize edit.run? tree = result at houtcome hrun
  cases houtcome with
  | same => cases hrun
  | changed => cases hrun
  | refused hrefuses =>
    cases hrun
    exact hrefuses

theorem valid_attempt (hvalid : tree.Valid) (edit : Edit) : (attempt tree edit).Valid := by
  have houtcome := outcome_run? hvalid edit
  unfold attempt run
  generalize edit.run? tree = result at houtcome
  cases houtcome with
  | same => exact hvalid
  | changed hnext => exact hnext
  | refused => exact hvalid

theorem valid_attemptAll (hvalid : tree.Valid) (edits : List Edit) :
    (attemptAll tree edits).Valid := by
  induction edits generalizing tree with
  | nil => exact hvalid
  | cons edit edits ih => exact ih (valid_attempt hvalid edit)

end Edit

/-- Every tree of a session that begins with a tree of non-empty groups is valid, and no edit of it fails
but by an entry of a patch that its node refuses or by a word that is no kind of node. -/
theorem session_valid {roots : Forest} {nextId : Int} {start : Tree}
    (hformed : Forest.wellFormed roots = true) (hmake : Tree.make roots nextId = .ok start)
    (edits : List Edit) :
    (Edit.attemptAll start edits).Valid ∧
      ∀ (edit : Edit) (fault : FilterError), edit.run (Edit.attemptAll start edits) = .error fault →
        edit.Refuses (Edit.attemptAll start edits) fault := by
  have hvalid := Edit.valid_attemptAll (Tree.valid_of_make hformed hmake) edits
  exact ⟨hvalid, fun _ _ hrun => Edit.refuses_of_run hvalid hrun⟩

/-- A session that loses a group with its only child, goes on after a word that is no combinator, adds
another group, and then meets a word that is no kind of node. -/
theorem session_valid_nested :
    let roots : Forest := [.group 3 .and true [.presence 1 "tcp"], .presence 7 "udp"]
    let edits : List Edit := [.remove (.int 1), .update (.int 7) [("logic", .plain (.text "xor"))],
      .add .null (.text "group")]
    Forest.wellFormed roots = true ∧ Tree.make roots 0 = .ok ⟨roots, 8⟩ ∧
      (Edit.attemptAll ⟨roots, 8⟩ edits).Valid ∧
      (Edit.add .null (.text "node")).Refuses (Edit.attemptAll ⟨roots, 8⟩ edits)
        (.noKind "'node'") := by
  intro roots edits
  have hformed : Forest.wellFormed roots = true := rfl
  have hmake : Tree.make roots 0 = .ok ⟨roots, 8⟩ := rfl
  obtain ⟨hvalid, hfaults⟩ := session_valid hformed hmake edits
  exact ⟨hformed, hmake, hvalid, hfaults _ _ rfl⟩

end DisplayFilter
