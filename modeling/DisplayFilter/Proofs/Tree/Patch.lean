import DisplayFilter.Proofs.Filter.Walk
import DisplayFilter.Tree.Patch
/-!
# What a patch does to a node

A patch keeps a node's number, its kind and its children (`applyPatch_frame`). It is refused for three
reasons only, each the fault of one entry: an attribute the kind of node does not have, a word that is no
combinator, and a word that is no flag (`exists_refused_of_applyPatch`). When the node accepts all entries,
each attribute ends as the last entry for it has it, and attributes without an entry stay
(`applyPatch_eq_ok_iff`).
-/

namespace DisplayFilter

/-- The attributes a patch may set on a node of a kind. -/
def NodeKind.attributes : NodeKind → List String
  | .condition => ["logic", "field", "operator", "value"]
  | .group => ["logic", "negated"]

/-- Why a node of a kind refuses an entry of a patch. -/
inductive Refused (kind : NodeKind) : String × Argument → FilterError → Prop where
  | inapplicable {name : String} {argument : Argument} (hname : name ∉ kind.attributes) :
      Refused kind (name, argument) (.inapplicable name kind)
  | unknownLogic {argument : Argument} (hplain : ∀ given, argument ≠ .logic given)
      (hword : Logic.ofWord? argument.word = none) :
      Refused kind ("logic", argument) (.unknownLogic argument.literal)
  | notFlag {text : String} (hgroup : kind = .group)
      (htrue : Text.lower (Text.trim text) ∉ Argument.trueWords)
      (hfalse : Text.lower (Text.trim text) ∉ Argument.falseWords) :
      Refused kind ("negated", .plain (.text text)) (.notFlag (Text.literal text))

namespace Argument

theorem toLogic_eq_error {argument : Argument} {fault : FilterError}
    (herror : argument.toLogic = .error fault) :
    (∀ given, argument ≠ .logic given) ∧ Logic.ofWord? argument.word = none ∧
      fault = .unknownLogic argument.literal := by
  unfold toLogic at herror
  split at herror
  · cases herror
  · rename_i hplain
    split at herror
    · cases herror
    · rename_i hword
      cases herror
      exact ⟨hplain, hword, rfl⟩

theorem toFlag_eq_error {argument : Argument} {fault : FilterError}
    (herror : argument.toFlag = .error fault) :
    ∃ text, argument = .plain (.text text) ∧ Text.lower (Text.trim text) ∉ trueWords ∧
      Text.lower (Text.trim text) ∉ falseWords ∧ fault = .notFlag (Text.literal text) := by
  unfold toFlag at herror
  split at herror
  · rename_i text
    simp only [List.contains_eq_mem, decide_eq_true_eq] at herror
    split at herror
    · cases herror
    · rename_i htrue
      split at herror
      · cases herror
      · rename_i hfalse
        cases herror
        exact ⟨text, rfl, htrue, hfalse, rfl⟩
  · cases herror
  · cases herror

end Argument

namespace Node

theorem ids_singleton (node : Node) : Forest.ids [node] = node.id :: Forest.ids node.children := by
  cases node <;> simp [id, children]

theorem wellFormed_iff (node : Node) :
    node.wellFormed = true ↔ (node.kind = .group → node.children ≠ []) ∧
      Forest.wellFormed node.children = true := by
  cases node with
  | condition => simp [kind, children]
  | group => simp [wellFormed_group, kind, children]

/-- What a patch leaves as it is. -/
structure SameFrame (node patched : Node) : Prop where
  id : patched.id = node.id
  kind : patched.kind = node.kind
  children : patched.children = node.children

theorem SameFrame.ids_eq {node patched : Node} (hframe : SameFrame node patched) :
    Forest.ids [patched] = Forest.ids [node] := by
  rw [ids_singleton, ids_singleton, hframe.id, hframe.children]

theorem SameFrame.wellFormed_eq {node patched : Node} (hframe : SameFrame node patched) :
    patched.wellFormed = node.wellFormed := by
  rw [Bool.eq_iff_iff, wellFormed_iff, wellFormed_iff, hframe.kind, hframe.children]

theorem refused_of_set {node : Node} {name : String} {argument : Argument} {fault : FilterError}
    (hset : node.set name argument = .error fault) : Refused node.kind (name, argument) fault := by
  have hlogic : argument.toLogic = .error fault →
      Refused node.kind ("logic", argument) fault := by
    intro herror
    obtain ⟨hplain, hword, rfl⟩ := Argument.toLogic_eq_error herror
    exact .unknownLogic hplain hword
  unfold set at hset
  split at hset
  case h_1 | h_5 =>
    cases htoLogic : argument.toLogic with
    | error other => rw [htoLogic] at hset hlogic; cases hset; exact hlogic rfl
    | ok logic => rw [htoLogic] at hset; cases hset
  case h_2 | h_3 | h_4 => cases hset
  case h_6 =>
    cases hflag : argument.toFlag with
    | error other =>
      rw [hflag] at hset
      cases hset
      obtain ⟨text, rfl, htrue, hfalse, rfl⟩ := Argument.toFlag_eq_error hflag
      exact .notFlag rfl htrue hfalse
    | ok flag => rw [hflag] at hset; cases hset
  case h_7 hlogicName hfield hoperator hvalue hgroupLogic hnegated =>
    cases hset
    refine .inapplicable fun hname => ?_
    cases node with
    | condition id logic field operator value =>
      simp only [kind, NodeKind.attributes, List.mem_cons, List.not_mem_nil, or_false] at hname
      rcases hname with rfl | rfl | rfl | rfl
      · exact hlogicName _ _ _ _ _ rfl rfl
      · exact hfield _ _ _ _ _ rfl rfl
      · exact hoperator _ _ _ _ _ rfl rfl
      · exact hvalue _ _ _ _ _ rfl rfl
    | group id logic negated children =>
      simp only [kind, NodeKind.attributes, List.mem_cons, List.not_mem_nil, or_false] at hname
      rcases hname with rfl | rfl
      · exact hgroupLogic _ _ _ _ rfl rfl
      · exact hnegated _ _ _ _ rfl rfl

end Node

/-! ### What is set -/

/-- A node of a kind takes an entry of a patch. -/
structure NodeKind.Accepts (kind : NodeKind) (entry : String × Argument) : Prop where
  name : entry.1 ∈ kind.attributes
  logic : entry.1 = "logic" → ∃ given, entry.2.toLogic = .ok given
  negated : entry.1 = "negated" → ∃ given, entry.2.toFlag = .ok given

theorem NodeKind.Accepts.not_refused {kind : NodeKind} {entry : String × Argument}
    {fault : FilterError} (haccepts : kind.Accepts entry) : ¬ Refused kind entry fault := by
  intro hrefused
  cases hrefused with
  | inapplicable hname => exact hname haccepts.name
  | @unknownLogic argument hplain hword =>
    obtain ⟨given, hgiven⟩ := haccepts.logic rfl
    change argument.toLogic = .ok given at hgiven
    unfold Argument.toLogic at hgiven
    split at hgiven
    · exact hplain _ rfl
    · rw [hword] at hgiven
      cases hgiven
  | notFlag hgroup htrue hfalse =>
    obtain ⟨given, hgiven⟩ := haccepts.negated rfl
    simp [Argument.toFlag, htrue, hfalse] at hgiven

namespace Patch

/-- What a patch gives for an attribute: of several entries the last. -/
def given? (patch : Patch) (name : String) : Option Argument :=
  patch.reverse.lookup name

/-- What an attribute is after a patch. -/
def setting {α : Type} (patch : Patch) (name : String) (coerce : Argument → Except FilterError α)
    (old : α) : α :=
  match patch.given? name with
  | some argument => (coerce argument).toOption.getD old
  | none => old

variable {α : Type} {patch : Patch} {name : String} {coerce : Argument → Except FilterError α}

theorem given?_cons (first : String) (argument : Argument) (patch : Patch) (name : String) :
    given? ((first, argument) :: patch) name =
      (patch.given? name).or (if name = first then some argument else none) := by
  rw [given?, List.reverse_cons, List.lookup_append, ← given?, List.lookup_cons]
  cases hname : name == first with
  | true => rw [if_pos (eq_of_beq hname)]
  | false => rw [if_neg (by simpa using hname), List.lookup_nil]

theorem mem_of_given? {argument : Argument} (hgiven : patch.given? name = some argument) :
    (name, argument) ∈ patch := by
  obtain ⟨before, after, hpatch, _⟩ := List.lookup_eq_some_iff.1 hgiven
  rw [← List.mem_reverse, hpatch]
  simp

@[simp] theorem setting_singleton (first : String) (argument : Argument) (old : α) :
    setting [(first, argument)] name coerce old =
      if name = first then (coerce argument).toOption.getD old else old := by
  rw [setting, given?_cons]
  by_cases hname : name = first
  · rw [if_pos hname, if_pos hname]
    rfl
  · rw [if_neg hname, if_neg hname]
    rfl

theorem setting_of_ne (hname : ∀ entry ∈ patch, entry.1 ≠ name) (old : α) :
    patch.setting name coerce old = old := by
  rw [setting]
  cases hgiven : patch.given? name with
  | none => rfl
  | some argument => exact absurd rfl (hname _ (mem_of_given? hgiven))

/-- The entries of a patch are set one after the other. -/
theorem setting_cons (first : String × Argument)
    (old : α) (hcoerce : ∀ entry ∈ patch, entry.1 = name → ∃ given, coerce entry.2 = .ok given) :
    setting (first :: patch) name coerce old =
      patch.setting name coerce (setting [first] name coerce old) := by
  obtain ⟨other, argument⟩ := first
  rw [setting, given?_cons, setting]
  cases hgiven : patch.given? name with
  | some later =>
    obtain ⟨given, hlater⟩ := hcoerce _ (mem_of_given? hgiven) rfl
    simp [hlater, Except.toOption]
  | none =>
    rw [Option.none_or, setting, given?_cons]
    rfl

end Patch

namespace Node

/-- The node with the attributes a patch has entries for. -/
def patched (patch : Patch) : Node → Node
  | .condition id logic field operator value =>
    .condition id (patch.setting "logic" Argument.toLogic logic)
      (patch.setting "field" (fun argument => .ok argument.shown) field)
      (patch.setting "operator" (fun argument => .ok argument.toOperator) operator)
      (patch.setting "value" (fun argument => .ok argument.shown) value)
  | .group id logic negated children =>
    .group id (patch.setting "logic" Argument.toLogic logic)
      (patch.setting "negated" Argument.toFlag negated) children

theorem patched_nil (node : Node) : node.patched [] = node := by
  cases node <;> rfl

theorem patched_frame (node : Node) (patch : Patch) : SameFrame node (node.patched patch) := by
  cases node <;> exact ⟨rfl, rfl, rfl⟩

theorem logic_patched (node : Node) {patch : Patch} (hlogic : ∀ entry ∈ patch, entry.1 ≠ "logic") :
    (node.patched patch).logic = node.logic := by
  cases node <;> exact Patch.setting_of_ne hlogic _

theorem patched_cons (node : Node) (first : String × Argument) {patch : Patch}
    (haccepts : ∀ entry ∈ patch, node.kind.Accepts entry) :
    node.patched (first :: patch) = (node.patched [first]).patched patch := by
  have hlogic : ∀ entry ∈ patch, entry.1 = "logic" → ∃ given, entry.2.toLogic = .ok given :=
    fun entry hentry => (haccepts entry hentry).logic
  have hnegated : ∀ entry ∈ patch, entry.1 = "negated" → ∃ given, entry.2.toFlag = .ok given :=
    fun entry hentry => (haccepts entry hentry).negated
  cases node with
  | condition id logic field operator value =>
    rw [patched, patched, patched, Node.condition.injEq]
    refine ⟨rfl, Patch.setting_cons first logic hlogic, ?_, ?_, ?_⟩
    · exact Patch.setting_cons first field fun _ _ _ => ⟨_, rfl⟩
    · exact Patch.setting_cons first operator fun _ _ _ => ⟨_, rfl⟩
    · exact Patch.setting_cons first value fun _ _ _ => ⟨_, rfl⟩
  | group id logic negated children =>
    rw [patched, patched, patched, Node.group.injEq]
    exact ⟨rfl, Patch.setting_cons first logic hlogic, Patch.setting_cons first negated hnegated, rfl⟩

theorem set_eq_patched {node changed : Node} {name : String} {argument : Argument}
    (hset : node.set name argument = .ok changed) :
    node.kind.Accepts (name, argument) ∧ changed = node.patched [(name, argument)] := by
  unfold set at hset
  split at hset
  case h_1 | h_5 =>
    cases hlogic : argument.toLogic with
    | error => rw [hlogic] at hset; cases hset
    | ok logic =>
      rw [hlogic] at hset
      cases hset
      exact ⟨⟨by simp [kind, NodeKind.attributes], fun _ => ⟨logic, hlogic⟩, by simp⟩,
        by simp [patched, hlogic, Except.toOption]⟩
  case h_2 | h_3 | h_4 =>
    cases hset
    exact ⟨⟨by simp [kind, NodeKind.attributes], by simp, by simp⟩, by simp [patched, Except.toOption]⟩
  case h_6 =>
    cases hflag : argument.toFlag with
    | error => rw [hflag] at hset; cases hset
    | ok flag =>
      rw [hflag] at hset
      cases hset
      exact ⟨⟨by simp [kind, NodeKind.attributes], by simp, fun _ => ⟨flag, hflag⟩⟩,
        by simp [patched, hflag, Except.toOption]⟩
  case h_7 => cases hset

theorem set_frame {node changed : Node} {name : String} {argument : Argument}
    (hset : node.set name argument = .ok changed) : SameFrame node changed := by
  rw [(set_eq_patched hset).2]
  exact patched_frame node _

theorem applyPatch_cons (node : Node) (name : String) (argument : Argument) (patch : Patch) :
    node.applyPatch ((name, argument) :: patch) =
      (node.set name argument).bind (·.applyPatch patch) :=
  rfl

/-- A patch that is not refused has no entry that is, and sets what it gives. -/
theorem applyPatch_eq_ok_iff {node changed : Node} {patch : Patch} :
    node.applyPatch patch = .ok changed ↔
      (∀ entry ∈ patch, node.kind.Accepts entry) ∧ changed = node.patched patch := by
  induction patch generalizing node with
  | nil =>
    rw [patched_nil, eq_comm]
    simp [applyPatch, pure, Except.pure]
  | cons entry patch ih =>
    obtain ⟨name, argument⟩ := entry
    rw [applyPatch_cons, List.forall_mem_cons]
    cases hset : node.set name argument with
    | error fault =>
      have hrefused := refused_of_set hset
      constructor
      · intro hpatch
        cases hpatch
      · rintro ⟨⟨haccepts, _⟩, _⟩
        exact absurd hrefused haccepts.not_refused
    | ok first =>
      obtain ⟨haccepts, rfl⟩ := set_eq_patched hset
      rw [Except.bind, ih, (patched_frame node [(name, argument)]).kind]
      constructor
      · rintro ⟨hrest, rfl⟩
        exact ⟨⟨haccepts, hrest⟩, (patched_cons node _ hrest).symm⟩
      · rintro ⟨⟨_, hrest⟩, rfl⟩
        exact ⟨hrest, patched_cons node _ hrest⟩

theorem applyPatch_frame {node changed : Node} {patch : Patch}
    (hpatch : node.applyPatch patch = .ok changed) : SameFrame node changed := by
  rw [(applyPatch_eq_ok_iff.1 hpatch).2]
  exact patched_frame node patch

/-- A patch fails through one of its entries. The entries before it leave the kind of the node alone, so
the entry is refused for the kind the node had at first. -/
theorem exists_refused_of_applyPatch {node : Node} {patch : Patch} {fault : FilterError}
    (hpatch : node.applyPatch patch = .error fault) :
    ∃ entry ∈ patch, Refused node.kind entry fault := by
  induction patch generalizing node with
  | nil => cases hpatch
  | cons entry patch ih =>
    obtain ⟨name, argument⟩ := entry
    rw [applyPatch_cons] at hpatch
    cases hset : node.set name argument with
    | error other =>
      rw [hset] at hpatch
      cases hpatch
      exact ⟨_, List.mem_cons_self, refused_of_set hset⟩
    | ok changed =>
      rw [hset] at hpatch
      obtain ⟨entry, hentry, hrefused⟩ := ih hpatch
      rw [(set_frame hset).kind] at hrefused
      exact ⟨entry, List.mem_cons_of_mem _ hentry, hrefused⟩

end Node

end DisplayFilter
