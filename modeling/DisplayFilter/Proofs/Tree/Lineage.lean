import Mathlib.Data.List.Nodup
import DisplayFilter.Proofs.Expression.RoundTrip
import DisplayFilter.Proofs.Tree.Session
/-!
# Numbers over a session

A number stands for one node over a whole session. Between any two trees of a session, a node of the later
one whose number lies below the next number of the earlier one was there already, with the same kind, and
the next number never falls (`continues_stateAt`). Nothing else is needed: a number that is gone lies below
the next number from then on, so it cannot come back, and whatever is new lies above all that was.
-/

namespace DisplayFilter

namespace Forest

/-- The numbers of all nodes, depth first, each with the kind of its node. -/
def marks (forest : Forest) : List (Int × NodeKind) :=
  (walk forest).map fun node => (node.id, node.kind)

theorem map_fst_marks (forest : Forest) : (marks forest).map Prod.fst = ids forest := by
  simp [marks, ids]

theorem mem_ids_iff {forest : Forest} {id : Int} :
    id ∈ ids forest ↔ ∃ kind, (id, kind) ∈ marks forest := by
  simp [← map_fst_marks]

theorem marks_append (left right : Forest) : marks (left ++ right) = marks left ++ marks right := by
  simp [marks, walk_append]

theorem marks_cons (node : Node) (rest : Forest) :
    marks (node :: rest) = (node.id, node.kind) :: (marks node.children ++ marks rest) := by
  cases node <;> simp [marks, Node.children]

theorem marks_group_cons (id : Int) (logic : Logic) (negated : Bool) (children rest : Forest) :
    marks (.group id logic negated children :: rest) =
      (id, .group) :: (marks children ++ marks rest) :=
  marks_cons ..

/-- Where numbers are unique a number has one kind. -/
theorem kind_eq_of_mem_marks {forest : Forest} (hnodup : (ids forest).Nodup) {id : Int}
    {kind other : NodeKind} (hkind : (id, kind) ∈ marks forest) (hother : (id, other) ∈ marks forest) :
    kind = other := by
  rw [← map_fst_marks] at hnodup
  exact congrArg Prod.snd (List.inj_on_of_nodup_map hnodup hkind hother rfl)

end Forest

namespace Place

open Forest

theorem mem_marks_fill {place : Place} {content : Forest} {mark : Int × NodeKind}
    (hmark : mark ∈ marks content) : mark ∈ marks (place.fill content) := by
  induction place with
  | among before after => simp [fill, marks_append, hmark]
  | inside before id logic negated place after ih =>
    simp [fill, marks_append, marks_group_cons, ih]

/-- Filling a place anew changes nothing around it, and pruning only takes away. -/
theorem mem_marks_fillPruned {place : Place} {content : Forest} {mark : Int × NodeKind}
    (hmark : mark ∈ marks (place.fillPruned content)) (other : Forest) :
    mark ∈ marks content ∨ mark ∈ marks (place.fill other) := by
  induction place with
  | among before after =>
    simp only [fillPruned, fill, marks_append, List.mem_append] at hmark ⊢
    tauto
  | inside before id logic negated place after ih =>
    rw [fillPruned] at hmark
    split at hmark
    · simp only [fill, marks_append, marks_group_cons, List.mem_append, List.mem_cons] at hmark ⊢
      tauto
    · simp only [fill, marks_append, marks_group_cons, List.mem_append, List.mem_cons] at hmark ih ⊢
      tauto

end Place

namespace Tree

open Forest

/-- The later tree brings back no number: what it has below the next number of the earlier one, the earlier
one has. -/
structure Continues (before after : Tree) : Prop where
  nextId_le : before.nextId ≤ after.nextId
  marks_of_lt : ∀ id kind, (id, kind) ∈ marks after.roots → id < before.nextId →
    (id, kind) ∈ marks before.roots

theorem Continues.refl (tree : Tree) : tree.Continues tree :=
  ⟨Int.le_refl _, fun _ _ hmark _ => hmark⟩

theorem Continues.trans {first second third : Tree} (hfirst : first.Continues second)
    (hsecond : second.Continues third) : first.Continues third := by
  refine ⟨Int.le_trans hfirst.nextId_le hsecond.nextId_le, fun id kind hmark hlt => ?_⟩
  have hle := hfirst.nextId_le
  exact hfirst.marks_of_lt id kind (hsecond.marks_of_lt id kind hmark (by omega)) hlt

theorem Continues.mem_ids_of_lt {before after : Tree} (hcontinues : before.Continues after) {id : Int}
    (hid : id ∈ after.ids) (hlt : id < before.nextId) : id ∈ before.ids := by
  obtain ⟨kind, hmark⟩ := mem_ids_iff.1 hid
  exact mem_ids_iff.2 ⟨kind, hcontinues.marks_of_lt id kind hmark hlt⟩

variable {tree : Tree}

/-- A change at a place continues the tree if it only drops nodes there and adds new ones. -/
theorem continues_fillPruned {place : Place} {node : Node} (hfill : place.fill [node] = tree.roots)
    {content : Forest} {nextId : Int} (hle : tree.nextId ≤ nextId)
    (hcontent : ∀ id kind, (id, kind) ∈ marks content → id < tree.nextId →
      (id, kind) ∈ marks [node]) :
    tree.Continues ⟨place.fillPruned content, nextId⟩ := by
  refine ⟨hle, fun id kind hmark hlt => ?_⟩
  rw [← hfill]
  rcases Place.mem_marks_fillPruned hmark [node] with hinner | haround
  · exact Place.mem_marks_fill (hcontent id kind hinner hlt)
  · exact haround

theorem continues_fill {place : Place} {node : Node} (hfill : place.fill [node] = tree.roots)
    {content : Forest} {nextId : Int} (hne : content ≠ []) (hle : tree.nextId ≤ nextId)
    (hcontent : ∀ id kind, (id, kind) ∈ marks content → id < tree.nextId →
      (id, kind) ∈ marks [node]) :
    tree.Continues ⟨place.fill content, nextId⟩ := by
  rw [← place.fillPruned_of_ne_nil hne]
  exact continues_fillPruned hfill hle hcontent

theorem not_lt_of_mem_marks {first next id : Int} {kind : NodeKind} {forest : Forest}
    (hfresh : Increasing first next (Forest.ids forest)) (hmark : (id, kind) ∈ marks forest) :
    ¬ id < first := by
  have hbounds := hfresh.bounds id (mem_ids_iff.2 ⟨kind, hmark⟩)
  omega

theorem Valid.continues_update (hvalid : tree.Valid) {id : Int} {patch : Patch} {next : Tree}
    (hupdate : tree.update? id patch = .ok (some next)) : tree.Continues next := by
  rcases hvalid.update?_cases id patch with ⟨_, heq⟩ | ⟨_, _, _, _, heq⟩ |
    ⟨node, patched, place, _, hpatch, hfill, _, heq, _⟩
  · simp [heq] at hupdate
  · simp [heq] at hupdate
  · rw [heq] at hupdate
    cases hupdate
    have hframe := Node.applyPatch_frame hpatch
    have hsame : marks [patched] = marks [node] := by
      rw [marks_cons, marks_cons, hframe.id, hframe.kind, hframe.children]
    refine continues_fill hfill (by simp) (Int.le_refl _) fun id kind hmark _ => ?_
    rwa [← hsame]

theorem Valid.continues_addRoot (hvalid : tree.Valid) {kind : NodeKind} {next : Tree}
    (hadd : tree.addRoot kind = .ok next) : tree.Continues next := by
  obtain ⟨_, hle, hfresh⟩ := newNode_frame kind tree.nextId
  rw [(hvalid.addRoot_eq kind).1] at hadd
  cases hadd
  refine ⟨hle, fun id other hmark hlt => ?_⟩
  rw [marks_append, List.mem_append] at hmark
  exact hmark.resolve_right fun hnew => not_lt_of_mem_marks hfresh hnew hlt

theorem Valid.continues_addChild (hvalid : tree.Valid) {parent : Int} {kind : NodeKind} {next : Tree}
    (hadd : tree.addChild? parent kind = .ok (some next)) : tree.Continues next := by
  obtain ⟨_, hle, hfresh⟩ := newNode_frame kind tree.nextId
  rcases hvalid.addChild?_cases parent kind with ⟨_, heq⟩ |
    ⟨id, logic, negated, children, place, _, hfill, _, heq, _⟩
  · simp [heq] at hadd
  · rw [heq] at hadd
    cases hadd
    refine continues_fill hfill (by simp) hle fun other otherKind hmark hlt => ?_
    have hnew : (other, otherKind) ∉ marks [(newNode kind tree.nextId).1] :=
      fun hnew => not_lt_of_mem_marks hfresh hnew hlt
    simp only [marks_group_cons, marks_append, List.mem_cons, List.mem_append] at hmark ⊢
    tauto

theorem Valid.continues_remove (hvalid : tree.Valid) {id : Int} {next : Tree}
    (hremove : tree.remove? id = .ok (some next)) : tree.Continues next := by
  rcases hvalid.remove?_cases id with ⟨_, heq⟩ | ⟨_, _, _, _, _, _, heq⟩ |
    ⟨node, place, _, hfill, _, heq, _⟩
  · simp [heq] at hremove
  · simp [heq] at hremove
  · rw [heq] at hremove
    cases hremove
    exact continues_fillPruned hfill (Int.le_refl _) fun _ _ hmark _ => by simp [marks] at hmark

/-- All numbers of a loaded expression are new. -/
theorem le_of_mem_ids_of_load {text : String} {next : Tree} (hload : tree.load? text = .ok (some next))
    {id : Int} (hid : id ∈ next.ids) : tree.nextId ≤ id := by
  rcases tree.load?_cases text with ⟨_, heq⟩ | ⟨nextId, heq, _, _⟩
  · simp [heq] at hload
  · rw [heq] at hload
    cases hload
    exact ((Reading.numbered_ofText text tree.nextId).increasing.bounds id hid).1

theorem continues_load {text : String} {next : Tree} (hload : tree.load? text = .ok (some next)) :
    tree.Continues next := by
  have hnew : ∀ id ∈ next.ids, tree.nextId ≤ id := fun id hid => le_of_mem_ids_of_load hload hid
  rcases tree.load?_cases text with ⟨_, heq⟩ | ⟨nextId, heq, hle, _⟩
  · simp [heq] at hload
  · rw [heq] at hload
    cases hload
    refine ⟨hle, fun id kind hmark hlt => ?_⟩
    have hge := hnew id (mem_ids_iff.2 ⟨kind, hmark⟩)
    omega

end Tree

/-! ### Sessions -/

namespace Edit

open Forest

variable {tree : Tree}

theorem continues_run? (hvalid : tree.Valid) {edit : Edit} {next : Tree}
    (hrun : edit.run? tree = .ok (some next)) : tree.Continues next := by
  cases edit with
  | update given patch =>
    simp only [run?] at hrun
    split at hrun
    · exact hvalid.continues_update hrun
    · cases hrun
  | add parent kind =>
    unfold run? at hrun
    cases hkind : NodeKind.ofRecord kind with
    | error fault => simp [hkind, bind, Except.bind] at hrun
    | ok known =>
      simp only [hkind, bind, Except.bind] at hrun
      split at hrun
      · cases hadd : tree.addRoot known with
        | error fault => simp [hadd] at hrun
        | ok added =>
          rw [hadd] at hrun
          cases hrun
          exact hvalid.continues_addRoot hadd
      · split at hrun
        · exact hvalid.continues_addChild hrun
        · cases hrun
  | remove given =>
    simp only [run?] at hrun
    split at hrun
    · exact hvalid.continues_remove hrun
    · cases hrun
  | load text => exact Tree.continues_load hrun

theorem continues_attempt (hvalid : tree.Valid) (edit : Edit) : tree.Continues (attempt tree edit) := by
  unfold attempt run
  cases hrun : edit.run? tree with
  | error fault => exact Tree.Continues.refl tree
  | ok result =>
    cases result with
    | none => exact Tree.Continues.refl tree
    | some next => exact continues_run? hvalid hrun

/-- The tree after so many edits of a session. -/
def stateAt (start : Tree) (edits : List Edit) (count : Nat) : Tree :=
  attemptAll start (edits.take count)

variable {start : Tree} {edits : List Edit}

theorem stateAt_succ (count : Nat) :
    stateAt start edits (count + 1) = attemptAll (stateAt start edits count) edits[count]?.toList := by
  rw [stateAt, stateAt, List.take_add_one, attemptAll, attemptAll, attemptAll, List.foldl_append]

theorem valid_stateAt (hvalid : start.Valid) (count : Nat) : (stateAt start edits count).Valid :=
  valid_attemptAll hvalid _

theorem continues_stateAt_succ (hvalid : start.Valid) (count : Nat) :
    (stateAt start edits count).Continues (stateAt start edits (count + 1)) := by
  rw [stateAt_succ]
  cases edits[count]? with
  | none => exact Tree.Continues.refl _
  | some edit => exact continues_attempt (valid_stateAt hvalid count) edit

theorem continues_stateAt (hvalid : start.Valid) {earlier later : Nat} (hle : earlier ≤ later) :
    (stateAt start edits earlier).Continues (stateAt start edits later) := by
  induction hle with
  | refl => exact Tree.Continues.refl _
  | step _ ih => exact ih.trans (continues_stateAt_succ hvalid _)

theorem stateAt_of_load {count : Nat} {text : String} {loaded : Tree}
    (hedit : edits[count]? = some (.load text))
    (hload : (stateAt start edits count).load? text = .ok (some loaded)) :
    stateAt start edits (count + 1) = loaded := by
  rw [stateAt_succ, hedit]
  change attempt (stateAt start edits count) (.load text) = loaded
  rw [attempt, run, run?, hload]
  rfl

/-- A number of some tree lies below the next number of every later one. -/
theorem lt_nextId_stateAt (hvalid : start.Valid) {earlier later : Nat} (hle : earlier ≤ later) {id : Int}
    (hid : id ∈ (stateAt start edits earlier).ids) : id < (stateAt start edits later).nextId :=
  Int.lt_of_lt_of_le ((valid_stateAt hvalid earlier).below id hid)
    (continues_stateAt hvalid hle).nextId_le

/-- A number that is gone stays gone. -/
theorem not_mem_ids_of_gone (hvalid : start.Valid) {first second third : Nat} (hfirst : first ≤ second)
    (hsecond : second ≤ third) {id : Int} (hid : id ∈ (stateAt start edits first).ids)
    (hgone : id ∉ (stateAt start edits second).ids) : id ∉ (stateAt start edits third).ids := by
  intro hback
  have hbelow := lt_nextId_stateAt hvalid hfirst hid
  exact hgone ((continues_stateAt hvalid hsecond).mem_ids_of_lt hback hbelow)

theorem kind_eq_of_le (hvalid : start.Valid) {earlier later : Nat} (hle : earlier ≤ later)
    {node other : Node} (hnode : node ∈ walk (stateAt start edits earlier).roots)
    (hother : other ∈ walk (stateAt start edits later).roots) (hid : other.id = node.id) :
    other.kind = node.kind := by
  have hmark : (node.id, node.kind) ∈ marks (stateAt start edits earlier).roots :=
    List.mem_map_of_mem hnode
  have hlater : (other.id, other.kind) ∈ marks (stateAt start edits later).roots :=
    List.mem_map_of_mem hother
  rw [hid] at hlater
  have hbelow := (valid_stateAt hvalid earlier).below node.id (mem_ids_iff.2 ⟨_, hmark⟩)
  exact kind_eq_of_mem_marks (valid_stateAt hvalid earlier).nodup
    ((continues_stateAt hvalid hle).marks_of_lt _ _ hlater hbelow) hmark

/-- A number stands for one kind of node. -/
theorem kind_eq_stateAt (hvalid : start.Valid) {left right : Nat} {node other : Node}
    (hnode : node ∈ walk (stateAt start edits left).roots)
    (hother : other ∈ walk (stateAt start edits right).roots) (hid : other.id = node.id) :
    other.kind = node.kind := by
  rcases Nat.le_total left right with hle | hle
  · exact kind_eq_of_le hvalid hle hnode hother hid
  · exact (kind_eq_of_le hvalid hle hother hnode hid.symm).symm

/-- What an edit adds is numbered from the next number on. -/
theorem nextId_le_of_new (hvalid : start.Valid) {count : Nat} {id : Int}
    (hid : id ∈ (stateAt start edits (count + 1)).ids) (hnew : id ∉ (stateAt start edits count).ids) :
    (stateAt start edits count).nextId ≤ id := by
  by_contra hlow
  exact hnew ((continues_stateAt_succ hvalid count).mem_ids_of_lt hid (by omega))

/-- An expression that is loaded leaves no number of before, then or later. -/
theorem not_mem_ids_of_load (hvalid : start.Valid) {earlier count later : Nat} {text : String}
    {loaded : Tree} (hedit : edits[count]? = some (.load text))
    (hload : (stateAt start edits count).load? text = .ok (some loaded)) (hbefore : earlier ≤ count)
    (hbehind : count < later) {id : Int} (hid : id ∈ (stateAt start edits earlier).ids) :
    id ∉ (stateAt start edits later).ids := by
  have hgone : id ∉ (stateAt start edits (count + 1)).ids := by
    rw [stateAt_of_load hedit hload]
    intro hback
    have hnew := Tree.le_of_mem_ids_of_load hload hback
    have hold := lt_nextId_stateAt hvalid hbefore hid
    omega
  exact not_mem_ids_of_gone hvalid (Nat.le_succ_of_le hbefore) hbehind hid hgone

end Edit

open Edit in
/-- Over a session that begins with a tree of non-empty groups: the next number never falls, a number that
is gone does not come back, a number stands for one kind of node, a number not seen before is no lower than
the next number was, and no tree from the loading of an expression on has a number of a tree before it. -/
theorem session_never_recycles {roots : Forest} {nextId : Int} {start : Tree}
    (hformed : Forest.wellFormed roots = true) (hmake : Tree.make roots nextId = .ok start)
    (edits : List Edit) :
    (∀ i j, i ≤ j → (stateAt start edits i).nextId ≤ (stateAt start edits j).nextId) ∧
      (∀ i j k, i ≤ j → j ≤ k → ∀ id ∈ (stateAt start edits i).ids, id ∉ (stateAt start edits j).ids →
        id ∉ (stateAt start edits k).ids) ∧
      (∀ i j, ∀ node ∈ Forest.walk (stateAt start edits i).roots,
        ∀ other ∈ Forest.walk (stateAt start edits j).roots, other.id = node.id →
          other.kind = node.kind) ∧
      (∀ i, ∀ id ∈ (stateAt start edits (i + 1)).ids, (∀ j ≤ i, id ∉ (stateAt start edits j).ids) →
        (stateAt start edits i).nextId ≤ id) ∧
      ∀ i text loaded, edits[i]? = some (.load text) →
        (stateAt start edits i).load? text = .ok (some loaded) →
        ∀ j k, j ≤ i → i < k → ∀ id ∈ (stateAt start edits j).ids, id ∉ (stateAt start edits k).ids := by
  have hvalid := Tree.valid_of_make hformed hmake
  refine ⟨fun i j hle => (continues_stateAt hvalid hle).nextId_le, ?_, ?_, ?_, ?_⟩
  · intro i j k hij hjk id hid hgone
    exact not_mem_ids_of_gone hvalid hij hjk hid hgone
  · intro i j node hnode other hother hid
    exact kind_eq_stateAt hvalid hnode hother hid
  · intro i id hid hunseen
    exact nextId_le_of_new hvalid hid (hunseen i (Nat.le_refl i))
  · intro i text loaded hedit hload j k hji hik id hid
    exact not_mem_ids_of_load hvalid hedit hload hji hik hid

open Edit in
/-- A number that goes with the last child of its group does not come back with the next group, and a
number that stays until an expression is loaded does not come back with the expression. -/
theorem session_never_recycles_nested :
    let roots : Forest := [.group 3 .and true [.presence 1 "tcp"], .presence 7 "udp"]
    let edits : List Edit := [.remove (.int 1), .add .null (.text "group"),
      .load (Forest.text [.presence 7 "tcp"])]
    Forest.wellFormed roots = true ∧ Tree.make roots 0 = .ok ⟨roots, 8⟩ ∧
      3 ∈ (stateAt ⟨roots, 8⟩ edits 0).ids ∧ 3 ∉ (stateAt ⟨roots, 8⟩ edits 1).ids ∧
      3 ∉ (stateAt ⟨roots, 8⟩ edits 2).ids ∧
      7 ∈ (stateAt ⟨roots, 8⟩ edits 2).ids ∧ 7 ∉ (stateAt ⟨roots, 8⟩ edits 3).ids := by
  intro roots edits
  have hformed : Forest.wellFormed roots = true := rfl
  have hmake : Tree.make roots 0 = .ok ⟨roots, 8⟩ := rfl
  obtain ⟨_, hgone, _, _, hload⟩ := session_never_recycles hformed hmake edits
  have hloaded : ∃ loaded, (stateAt ⟨roots, 8⟩ edits 2).load? (Forest.text [.presence 7 "tcp"]) =
      .ok (some loaded) := by
    rcases Tree.load?_cases (stateAt ⟨roots, 8⟩ edits 2) (Forest.text [.presence 7 "tcp"]) with
      ⟨hempty, _⟩ | ⟨_, heq, _⟩
    · rw [Reading.ofText_text rfl (by decide)] at hempty
      cases hempty
    · exact ⟨_, heq⟩
  obtain ⟨loaded, hloaded⟩ := hloaded
  have hfirst : 3 ∈ (stateAt ⟨roots, 8⟩ edits 0).ids := by decide
  have hsecond : 3 ∉ (stateAt ⟨roots, 8⟩ edits 1).ids := by decide
  have hthird : 7 ∈ (stateAt ⟨roots, 8⟩ edits 2).ids := by decide
  exact ⟨hformed, hmake, hfirst, hsecond, hgone 0 1 2 (by decide) (by decide) 3 hfirst hsecond, hthird,
    hload 2 _ loaded rfl hloaded 2 3 (by decide) (by decide) 7 hthird⟩

end DisplayFilter
