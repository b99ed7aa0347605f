import DisplayFilter.Proofs.Tree.Place
/-!
# Changing the node that is found

A change meets the node that is found and no other, also where a number is used more than once
(`replaceFirst_agrees_with_find`). The law is about changes with effects, as it says how often a change
runs: once on the node that is found, and not at all when there is none.

A node for which the change answers nothing goes with the groups that hold nothing else. Pruning drops
these one by one from the inside; `Place.ShedsTo` says which they are. The place of the node is cut in two:
an inner part where nothing stands beside the node or a group around it, and the place of the outermost of
these groups, which has siblings unless it is a root.
-/

universe u

namespace DisplayFilter

namespace Place

/-- What stands beside the place. -/
def siblings : Place → Forest
  | among before after => before ++ after
  | inside _ _ _ _ place _ => place.siblings

/-- Nothing stands beside the place, nor beside a group around it. -/
inductive Alone : Place → Prop
  | among : Alone (among [] [])
  | inside (id : Int) (logic : Logic) (negated : Bool) {place : Place} :
    Alone place → Alone (inside [] id logic negated place [])

/-- The group around the place, if there is one, holds something beside it. -/
def Shared : Place → Prop
  | among _ _ => True
  | inside _ _ _ _ place _ => place.siblings ≠ []

/-- The place with all groups around it that hold nothing else comes to this place. -/
structure ShedsTo (place rest : Place) : Prop where
  alone : ∃ inner : Place, inner.Alone ∧ inner.within rest = place
  shared : rest.Shared

theorem within_root (inner : Place) : inner.within (among [] []) = inner := by
  cases inner <;> simp [within]

/-- Every place sheds the groups around it that hold nothing else. -/
theorem exists_shedsTo (place : Place) : ∃ rest, place.ShedsTo rest := by
  induction place with
  | among before after =>
    exact ⟨among before after, ⟨among [] [], .among, by simp [within]⟩, trivial⟩
  | inside before id logic negated place after ih =>
    obtain ⟨rest, ⟨inner, halone, hwithin⟩, hshared⟩ := ih
    by_cases hempty : rest.siblings = []
    · -- The whole group holds nothing but the place, so it is shed as well.
      have hrest : rest = among [] [] := by
        cases rest with
        | among front back => simpa [siblings] using hempty
        | inside => exact absurd hempty hshared
      rw [hrest, within_root] at hwithin
      refine ⟨among before after, ⟨inside [] id logic negated inner [], halone.inside .., ?_⟩, trivial⟩
      simp [within, hwithin]
    · exact ⟨inside before id logic negated rest after, ⟨inner, halone, by rw [within, hwithin]⟩, hempty⟩

theorem Alone.fillPruned_nil {place : Place} (halone : place.Alone) : place.fillPruned [] = [] := by
  induction halone with
  | among => rfl
  | inside id logic negated _ ih => rw [fillPruned, ih, List.append_nil]

theorem fill_nil_ne_nil {place : Place} (hsiblings : place.siblings ≠ []) : place.fill [] ≠ [] := by
  cases place with
  | among before after => simpa [fill, siblings] using hsiblings
  | inside => simp [fill]

theorem fillPruned_nil_of_siblings {place : Place} (hsiblings : place.siblings ≠ []) :
    place.fillPruned [] = place.fill [] := by
  induction place with
  | among before after => rfl
  | inside before id logic negated place after ih =>
    have hleft : place.fill [] ≠ [] := fill_nil_ne_nil hsiblings
    rw [fillPruned, ih hsiblings, fill]
    cases hinner : place.fill [] with
    | nil => exact absurd hinner hleft
    | cons first others => rfl

theorem Shared.fillPruned_nil {place : Place} (hshared : place.Shared) :
    place.fillPruned [] = place.fill [] := by
  cases place with
  | among before after => rfl
  | inside before id logic negated place after => exact fillPruned_nil_of_siblings hshared

/-- Pruning around an empty place takes away what the place sheds, and nothing else. -/
theorem ShedsTo.fillPruned_nil {place rest : Place} (hsheds : place.ShedsTo rest) :
    place.fillPruned [] = rest.fill [] := by
  obtain ⟨⟨inner, halone, rfl⟩, hshared⟩ := hsheds
  rw [fillPruned_within, halone.fillPruned_nil, hshared.fillPruned_nil]

end Place

namespace Forest

theorem replaceFirst?_eq_none_iff {forest : Forest} {id : Int} {change : Node → Option Node} :
    replaceFirst? id change forest = none ↔ find? forest id = none := by
  constructor
  · intro hreplace
    cases hfind : find? forest id with
    | none => rfl
    | some node =>
      obtain ⟨place, rfl, hbefore⟩ := exists_place_of_find? hfind
      rw [replaceFirst?_fill (id_of_find? hfind) hbefore] at hreplace
      exact absurd hreplace (Option.some_ne_none _)
  · intro hfind
    rw [replaceFirst?, replaceFirstM?_eq_none (find?_eq_none_iff.1 hfind)]
    rfl

/-- A change runs on the node that is found, once, and its answer takes the place of that node; without an
answer the node goes, and so do the groups around it that hold nothing else. When no node is found the
change does not run, and that is when there is no replacement. -/
theorem replaceFirst_agrees_with_find (forest : Forest) (id : Int) :
    (∀ change : Node → Option Node,
      replaceFirst? id change forest = none ↔ find? forest id = none) ∧
    (find? forest id = none →
      ∀ {m : Type → Type u} [Monad m] [LawfulMonad m] (change : Node → m (Option Node)),
        replaceFirstM? id change forest = pure none) ∧
    ∀ node, find? forest id = some node → ∃ place rest : Place,
      place.fill [node] = forest ∧ id ∉ place.idsBefore ∧ place.ShedsTo rest ∧
      ∀ {m : Type → Type u} [Monad m] [LawfulMonad m] (change : Node → m (Option Node)),
        replaceFirstM? id change forest = do
          match ← change node with
          | some changed => return some (place.fill [changed])
          | none => return some (rest.fill []) := by
  refine ⟨fun change => replaceFirst?_eq_none_iff, fun hfind => ?_, fun node hfind => ?_⟩
  · intro m _ _ change
    exact replaceFirstM?_eq_none (find?_eq_none_iff.1 hfind)
  · obtain ⟨place, hfill, hbefore⟩ := exists_place_of_find? hfind
    obtain ⟨rest, hsheds⟩ := place.exists_shedsTo
    refine ⟨place, rest, hfill, hbefore, hsheds, fun change => ?_⟩
    rw [← hfill, replaceFirstM?_fill (id_of_find? hfind) hbefore, map_eq_pure_bind]
    refine bind_congr fun answer => ?_
    cases answer with
    | none => rw [Option.toList_none, hsheds.fillPruned_nil]
    | some changed => rw [Option.toList_some, place.fillPruned_of_ne_nil (List.cons_ne_nil _ _)]

/-- A number that is used twice, first inside two groups that hold nothing else. The change notes what it
runs on: the node in the groups, and not the one behind them, which stays. -/
theorem replaceFirst_agrees_with_find_repeated :
    let found : Node := .presence 1 "tcp"
    let forest : Forest := [.group 3 .and false [.group 2 .or true [found]], .presence 1 "udp"]
    let drop : Node → StateM (List Node) (Option Node) := fun node => do
      modify (node :: ·)
      return none
    find? forest 9 = none ∧ (replaceFirstM? 9 drop forest).run [] = (none, []) ∧
      find? forest 1 = some found ∧
      (replaceFirstM? 1 drop forest).run [] = (some [.presence 1 "udp"], [found]) ∧
      ∃ place rest : Place, place.fill [found] = forest ∧ place.ShedsTo rest ∧
        rest.fill [] = [.presence 1 "udp"] := by
  intro found forest drop
  have habsent : find? forest 9 = none := rfl
  have hfind : find? forest 1 = some found := rfl
  have hskip := (replaceFirst_agrees_with_find forest 9).2.1 habsent drop
  obtain ⟨place, rest, hfill, _, hsheds, hruns⟩ :=
    (replaceFirst_agrees_with_find forest 1).2.2 found hfind
  have hdrop : (replaceFirstM? 1 drop forest).run [] = (some (rest.fill []), [found]) := by
    rw [hruns drop]
    rfl
  have hleft : some (rest.fill []) = some [.presence 1 "udp"] :=
    (congrArg Prod.fst hdrop).symm.trans rfl
  rw [Option.some.inj hleft] at hdrop
  exact ⟨habsent, by rw [hskip]; rfl, hfind, hdrop, place, rest, hfill, hsheds, Option.some.inj hleft⟩

end Forest

/-- An update may as well patch the node in the course of the replacement. -/
theorem Tree.update?_eq_replaceFirstM? (tree : Tree) (id : Int) (patch : Patch) :
    tree.update? id patch = match tree.find? id with
      | none => .ok none
      | some _ => do
        let roots ← Forest.replaceFirstM? id (fun node => some <$> node.applyPatch patch) tree.roots
        return some (← make (roots.getD tree.roots) tree.nextId) := by
  cases hfind : tree.find? id with
  | none => rw [update?, hfind]
  | some node =>
    obtain ⟨place, hfill, hbefore⟩ := Forest.exists_place_of_find? hfind
    have hid := Forest.id_of_find? hfind
    rw [update?, hfind, ← hfill, Forest.replaceFirstM?_fill hid hbefore]
    cases hpatch : node.applyPatch patch with
    | error fault => simp only [hpatch]; rfl
    | ok patched => simp only [hpatch, Forest.replaceFirst?_fill hid hbefore]; rfl

end DisplayFilter
