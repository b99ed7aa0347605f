import DisplayFilter.Proofs.Tree.Prune
import DisplayFilter.Proofs.Tree.Script
/-!
# Additions

An addition puts one new node behind the siblings of a slot and leaves the forest around the slot as it was.
The slot held siblings before, so taking the new node away empties no group but the new one, and the removal
of any of the new numbers gives the former forest back (`Edit.run?_remove_new`).
-/

namespace DisplayFilter

/-! ### Profiles -/

mutual

/-- The node and all below it, each without its children and with the number of its parent. -/
def Node.profile (parent : Option Int) : Node → List (Option Int × Node)
  | .condition id logic field operator value => [(parent, .condition id logic field operator value)]
  | .group id logic negated children =>
    (parent, .group id logic negated []) :: Forest.profile (some id) children

/-- All nodes of a forest depth first, each without its children and with the number of its parent. -/
def Forest.profile (parent : Option Int) : List Node → List (Option Int × Node)
  | [] => []
  | node :: rest => node.profile parent ++ Forest.profile parent rest

end

theorem Forest.profile_append (parent : Option Int) (left right : Forest) :
    profile parent (left ++ right) = profile parent left ++ profile parent right := by
  induction left with
  | nil => simp [profile]
  | cons node left ih => simp [profile, ih]

/-- The profile around a place does not depend on what stands there. -/
theorem Place.exists_profile_around (place : Place) (parent : Option Int) :
    ∃ (inner : Option Int) (front back : List (Option Int × Node)), ∀ content,
      Forest.profile parent (place.fill content) = front ++ Forest.profile inner content ++ back := by
  induction place generalizing parent with
  | among before after =>
    refine ⟨parent, Forest.profile parent before, Forest.profile parent after, fun content => ?_⟩
    rw [fill, Forest.profile_append, Forest.profile_append]
  | inside before id logic negated place after ih =>
    obtain ⟨inner, front, back, haround⟩ := ih (some id)
    refine ⟨inner, Forest.profile parent before ++ (parent, .group id logic negated []) :: front,
      back ++ Forest.profile parent after, fun content => ?_⟩
    rw [fill, Forest.profile_append, Forest.profile, Node.profile, haround content]
    simp only [List.append_assoc, List.cons_append]

namespace Slot

/-- The number of the group that is the slot, if it is not the top. -/
def number : Slot → Option Int
  | top => none
  | inside _ id _ _ => some id

theorem exists_profile_around (slot : Slot) :
    ∃ front back : List (Option Int × Node), ∀ siblings,
      Forest.profile none (slot.fill siblings) = front ++ Forest.profile slot.number siblings ++ back := by
  cases slot with
  | top => exact ⟨[], [], fun siblings => by rw [fill, number, List.nil_append, List.append_nil]⟩
  | inside place id logic negated =>
    obtain ⟨inner, front, back, haround⟩ := place.exists_profile_around none
    refine ⟨front ++ [(inner, .group id logic negated [])], back, fun siblings => ?_⟩
    rw [fill, haround, Forest.profile, Node.profile, Forest.profile, number]
    simp only [List.append_assoc, List.cons_append, List.nil_append, List.append_nil]

/-- An addition that names this parent is put into the slot. -/
def NamedBy (parent : Value) : Slot → Prop
  | top => parent = .null
  | inside _ id _ _ => parent.toInt? = some id

theorem number_eq {slot : Slot} {parent : Value} (hname : slot.NamedBy parent) :
    slot.number = parent.toInt? := by
  cases slot with
  | top =>
    cases hname
    rfl
  | inside => exact hname.symm

end Slot

namespace Tree

/-- The siblings an addition under this parent is put behind: the roots where no parent is given, else the
children of the group of that number. -/
def siblingsUnder? (tree : Tree) : Value → Option Forest
  | .null => some tree.roots
  | parent => match parent.toInt?.bind tree.find? with
    | some (.group _ _ _ children) => some children
    | _ => none

variable {tree : Tree} {parent : Value} {siblings : Forest}

theorem siblingsUnder?_of_toInt? {id : Int} (hid : parent.toInt? = some id) :
    tree.siblingsUnder? parent = match tree.find? id with
      | some (.group _ _ _ children) => some children
      | _ => none := by
  unfold siblingsUnder?
  split
  · cases hid
  · rw [hid, Option.bind_some]

theorem exists_slot_of_siblingsUnder? (hunder : tree.siblingsUnder? parent = some siblings) :
    ∃ slot : Slot, slot.NamedBy parent ∧ slot.fill siblings = tree.roots := by
  unfold siblingsUnder? at hunder
  split at hunder
  · cases hunder
    exact ⟨.top, rfl, rfl⟩
  · split at hunder
    · rename_i id logic negated children hfind
      cases hunder
      obtain ⟨number, hnumber, hfound⟩ := Option.bind_eq_some_iff.1 hfind
      obtain ⟨place, hfill, _⟩ := Forest.exists_place_of_find? hfound
      obtain rfl : id = number := Forest.id_of_find? hfound
      exact ⟨.inside place id logic negated, hnumber, hfill⟩
    · cases hunder

theorem Valid.siblingsUnder?_eq {slot : Slot} {nextId : Int}
    (hvalid : Valid ⟨slot.fill siblings, nextId⟩) (hname : slot.NamedBy parent) :
    siblingsUnder? ⟨slot.fill siblings, nextId⟩ parent = some siblings := by
  cases slot with
  | top =>
    cases hname
    rfl
  | inside place id logic negated =>
    have hfind : find? ⟨place.fill [.group id logic negated siblings], nextId⟩ id =
        some (.group id logic negated siblings) := hvalid.find?_eq rfl
    rw [siblingsUnder?_of_toInt? hname]
    simp only [Slot.fill, hfind]

/-- No slot of a valid tree is empty. -/
theorem Valid.siblings_ne_nil {slot : Slot} {nextId : Int}
    (hvalid : Valid ⟨slot.fill siblings, nextId⟩) : siblings ≠ [] := by
  cases slot with
  | top => exact hvalid.nonempty
  | inside place id logic negated =>
    exact ((Node.wellFormed_group id logic negated siblings).1 (hvalid.wellFormed_of_fill rfl)).1

/-- Removing an only child removes its parent. -/
theorem Valid.remove?_only_child (hvalid : tree.Valid) {child node : Node}
    (honly : Forest.IsOnlyChild tree.roots child node) :
    tree.remove? child.id = tree.remove? node.id := by
  obtain ⟨place, hfill⟩ := Forest.exists_place_of_mem_walk honly.1
  have hids : ∀ id ∈ Forest.ids [node], id ∈ tree.ids := by
    intro id hid
    rw [ids, ← hfill, Place.ids_fill]
    simp [hid]
  have hnode : node.id ∈ tree.ids := hids _ (by simp [Node.ids_singleton])
  have hchild : child.id ∈ tree.ids := hids _ (by simp [Node.ids_singleton, honly.2])
  rw [hvalid.remove?_eq, hvalid.remove?_eq, hvalid.prune_id_eq_of_isOnlyChild honly]
  simp only [hnode, hchild]

end Tree

namespace Edit

open DisplayFilter.Tree

variable {slot : Slot} {siblings : Forest} {next : Int}

theorem run?_add_of_namedBy {parent : Value} (hname : slot.NamedBy parent) (kind : Value) (tree : Tree) :
    (Edit.add parent kind).run? tree = (Edit.add slot.parent kind).run? tree := by
  cases slot with
  | top =>
    cases hname
    rfl
  | inside place id logic negated =>
    have hid : parent.toInt? = some id := hname
    have hsame : (Value.int id).toInt? = some id := rfl
    simp only [run?, Slot.parent]
    split
    · cases hid
    · simp only [hid, hsame]

/-- Taking the last node out of a slot leaves the others. -/
theorem run?_remove_last {node : Node} (hvalid : Tree.Valid ⟨slot.fill (siblings ++ [node]), next⟩)
    (hne : siblings ≠ []) :
    (Edit.remove (.int node.id)).run? ⟨slot.fill (siblings ++ [node]), next⟩ =
      .ok (some ⟨slot.fill siblings, next⟩) := by
  have hfill : (slot.between siblings []).fill [node] = slot.fill (siblings ++ [node]) := by
    rw [Slot.fill_between, List.append_nil]
  have hleft : (slot.between siblings []).fillPruned [] = slot.fill siblings := by
    rw [Slot.fillPruned_between, List.append_nil]
    rwa [List.append_nil]
  have hedit := (hvalid.remove?_at hfill (by rw [hleft]; exact slot.fill_ne_nil hne)).1
  rw [hleft] at hedit
  exact hedit

/-- Taking any of its numbers out again undoes an addition. -/
theorem run?_remove_new {kind : NodeKind} {first id : Int}
    (hvalid : Tree.Valid ⟨slot.fill (siblings ++ [(newNode kind first).1]), next⟩)
    (hne : siblings ≠ []) (hid : id ∈ Forest.ids [(newNode kind first).1]) :
    (Edit.remove (.int id)).run? ⟨slot.fill (siblings ++ [(newNode kind first).1]), next⟩ =
      .ok (some ⟨slot.fill siblings, next⟩) := by
  have hlast := run?_remove_last hvalid hne
  rw [Node.ids_singleton] at hid
  rcases List.mem_cons.1 hid with rfl | hchild
  · exact hlast
  · cases kind with
    | condition => simp [newNode, Node.presence, Node.children] at hchild
    | group =>
      obtain rfl : id = first + 1 := by
        simpa [newNode, Node.presence, Node.children] using hchild
      have hfill : (slot.between siblings []).fill [(newNode .group first).1] =
          slot.fill (siblings ++ [(newNode .group first).1]) := by
        rw [Slot.fill_between, List.append_nil]
      have honly : Forest.IsOnlyChild (slot.fill (siblings ++ [(newNode .group first).1]))
          (.presence (first + 1) "") (newNode .group first).1 :=
        ⟨List.mem_of_find?_eq_some (hvalid.find?_eq hfill), rfl⟩
      exact (hvalid.remove?_only_child honly).trans hlast

end Edit

/-! ### The addition and its removal -/

namespace Tree

variable {tree : Tree}

/-- What an addition makes of a tree: where the new node stands, and all that stays. -/
structure AddsTo (tree : Tree) (parent : Value) (siblings : Forest) (new : Node) (next : Tree) : Prop where
  last : next.siblingsUnder? parent = some (siblings ++ [new])
  others : ∃ front back : List (Option Int × Node),
    Forest.profile none tree.roots = front ++ back ∧
      Forest.profile none next.roots = front ++ new.profile parent.toInt? ++ back
  nextId : next.nextId = tree.nextId + (Forest.ids [new]).length

theorem Valid.addsTo (hvalid : tree.Valid) {slot : Slot} {parent : Value} {siblings : Forest}
    (hname : slot.NamedBy parent) (hfill : slot.fill siblings = tree.roots) (kind : NodeKind) :
    ∃ next, (Edit.add parent (.text kind.name)).run? tree = .ok (some next) ∧
      tree.AddsTo parent siblings (newNode kind tree.nextId).1 next ∧
      ∀ id ∈ Forest.ids [(newNode kind tree.nextId).1],
        (Edit.remove (.int id)).run? next = .ok (some ⟨tree.roots, next.nextId⟩) := by
  obtain ⟨roots, nextId⟩ := tree
  obtain rfl : slot.fill siblings = roots := hfill
  obtain ⟨hadd, hnext⟩ := Edit.run?_add hvalid kind
  refine ⟨_, (Edit.run?_add_of_namedBy hname _ _).trans hadd, ⟨hnext.siblingsUnder?_eq hname, ?_, ?_⟩,
    fun id hid => Edit.run?_remove_new hnext hvalid.siblings_ne_nil hid⟩
  · obtain ⟨front, back, haround⟩ := slot.exists_profile_around
    refine ⟨front ++ Forest.profile slot.number siblings, back, haround siblings, ?_⟩
    rw [haround, Forest.profile_append, Slot.number_eq hname]
    simp [Forest.profile]
  · cases kind <;> rfl

theorem addChild?_eq_none {id : Int}
    (hother : ∀ number logic negated children,
      tree.find? id ≠ some (.group number logic negated children)) (kind : NodeKind) :
    tree.addChild? id kind = .ok none := by
  unfold addChild?
  cases hfind : tree.find? id with
  | none => rfl
  | some node =>
    cases node with
    | condition => rfl
    | group number logic negated children => exact absurd hfind (hother number logic negated children)

theorem add_eq_self {parent : Value} (hunder : tree.siblingsUnder? parent = none) (kind : NodeKind) :
    (Edit.add parent (.text kind.name)).run tree = .ok tree := by
  have hkind : NodeKind.ofRecord (.text kind.name) = .ok kind := by cases kind <;> rfl
  simp only [Edit.run, Edit.run?, hkind, bind, Except.bind]
  cases hid : parent.toInt? with
  | none =>
    split
    · cases hunder
    · rfl
  | some id =>
    have hother : ∀ number logic negated children,
        tree.find? id ≠ some (.group number logic negated children) := by
      intro number logic negated children hgroup
      rw [siblingsUnder?_of_toInt? hid, hgroup] at hunder
      cases hunder
    split
    · cases hid
    · simp only [addChild?_eq_none hother kind, Except.map, Option.getD_none]

end Tree

/-- An addition puts one default node behind all siblings of its slot, a group with one default condition in
it, and all nodes from before keep their order, their parents and what they say. Removing the new node, or the
condition in the new group, is not refused and gives the former roots back. Under a condition, or under a
number that does not occur, an addition does nothing. -/
theorem add_then_remove {tree : Tree} (hvalid : tree.Valid) (kind : NodeKind) (parent : Value) :
    (∀ siblings, tree.siblingsUnder? parent = some siblings → ∃ (new : Node) (next : Tree),
      (kind = .condition → new = .presence tree.nextId "") ∧
      (kind = .group → new = .group tree.nextId .and false [.presence (tree.nextId + 1) ""]) ∧
      (Edit.add parent (.text kind.name)).run? tree = .ok (some next) ∧
      tree.AddsTo parent siblings new next ∧
      ∀ id ∈ Forest.ids [new],
        (Edit.remove (.int id)).run? next = .ok (some ⟨tree.roots, next.nextId⟩)) ∧
    (tree.siblingsUnder? parent = none →
      (Edit.add parent (.text kind.name)).run tree = .ok tree) := by
  refine ⟨fun siblings hunder => ?_, fun hunder => Tree.add_eq_self hunder kind⟩
  obtain ⟨slot, hname, hfill⟩ := Tree.exists_slot_of_siblingsUnder? hunder
  obtain ⟨next, hadd, hadds, hremove⟩ := hvalid.addsTo hname hfill kind
  refine ⟨_, next, ?_, ?_, hadd, hadds, hremove⟩
  · rintro rfl
    rfl
  · rintro rfl
    rfl

/-- A group is added to a group inside another, and goes with its only child. Nothing is added under a
condition. -/
theorem add_then_remove_nested :
    let tree : Tree := ⟨[.group 3 .or true [.presence 1 "tcp", .group 4 .and false [.presence 5 "udp"]]], 8⟩
    let siblings : Forest := [.presence 5 "udp"]
    tree.Valid ∧ tree.siblingsUnder? (.int 4) = some siblings ∧
      tree.siblingsUnder? (.int 1) = none ∧
      (∃ next, (Edit.add (.int 4) (.text "group")).run? tree = .ok (some next) ∧
        tree.AddsTo (.int 4) siblings (.group 8 .and false [.presence 9 ""]) next ∧
        (Edit.remove (.int 9)).run? next = .ok (some ⟨tree.roots, next.nextId⟩)) ∧
      (Edit.add (.int 1) (.text "group")).run tree = .ok tree := by
  intro tree siblings
  have hmake : Tree.make tree.roots 8 = .ok tree := rfl
  have hvalid : tree.Valid := Tree.valid_of_make rfl hmake
  obtain ⟨_, next, _, hnew, hadd, hadds, hremove⟩ :=
    (add_then_remove hvalid .group (.int 4)).1 siblings rfl
  obtain rfl := hnew rfl
  exact ⟨hvalid, rfl, rfl, ⟨next, hadd, hadds, hremove 9 (by decide)⟩,
    (add_then_remove hvalid .group (.int 1)).2 rfl⟩

end DisplayFilter
