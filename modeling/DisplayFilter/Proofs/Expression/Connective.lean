import DisplayFilter.Proofs.Expression.Matching
import DisplayFilter.Proofs.Expression.Negation
import DisplayFilter.Proofs.Expression.Offset
/-!
# Parting tokens at a connective

Behind tokens that match, with no negation pending, a reading holds nothing but its siblings, its next number
and a connective, and the connective that comes next replaces the last of these. So the tokens from there on
are read as by themselves, from that number on and behind those siblings (`ofTokens_connective`).
-/

namespace DisplayFilter.Reading

open Token

variable {connective : Token}

namespace State

/-- Whatever connective stood on the level is forgotten. -/
theorem exists_run_between_connective (hconnective : connective.kind = .and ∨ connective.kind = .or) :
    ∃ logic, ∀ (level : Level) (nextId : Int) (tokens : List Token),
      (between [] level nextId).run (connective :: tokens) =
        (between [] { level with logic := logic } nextId).run tokens := by
  rcases hconnective with hand | hor
  · exact ⟨.and, fun _ _ tokens => run_and hand tokens⟩
  · exact ⟨.or, fun _ _ tokens => run_or hor tokens⟩

/-- In front of a connective the siblings can be set aside, if no negation is pending. -/
theorem run_between_connective (hconnective : connective.kind = .and ∨ connective.kind = .or) {level : Level}
    (hplain : level.negated = false) (nextId : Int) (tokens : List Token) :
    (between [] level nextId).run (connective :: tokens) =
      (ofTokens (connective :: tokens) nextId).map fun reading =>
        ⟨level.nodes ++ reading.forest, reading.nextId⟩ := by
  obtain ⟨logic, hrun⟩ := exists_run_between_connective hconnective
  have hbehind : ({ Level.empty with logic := logic }).moved level.nodes 0 =
      { level with logic := logic } := by
    simp [Level.moved, Level.empty, Forest.moved, hplain]
  have hmoved := run_moved level.nodes 0 { Level.empty with logic := logic } nextId tokens
  rw [hbehind, Int.add_zero, ← hrun, ← hrun] at hmoved
  have hfront : moved level.nodes 0 =
      fun reading => ⟨level.nodes ++ reading.forest, reading.nextId⟩ := by
    funext reading
    rw [moved, Forest.moved, Forest.rename_add_zero, Int.add_zero]
  rw [hfront] at hmoved
  exact hmoved

end State

/-- The first fault on either side is the fault of the whole. -/
theorem ofTokens_append_connective (hconnective : connective.kind = .and ∨ connective.kind = .or)
    {left : List Token} (hmatch : openAfter 0 left = some 0) (heven : Even (negationsAtEnd left))
    (right : List Token) (firstId : Int) :
    ofTokens (left ++ connective :: right) firstId =
      (ofTokens left firstId).bind fun front =>
        (ofTokens (connective :: right) front.nextId).map fun back =>
          ⟨front.forest ++ back.forest, back.nextId⟩ := by
  have hends : State.EndsCondition (connective :: right) := by
    refine State.endsCondition_cons ?_ right
    rcases hconnective with hkind | hkind <;> simp [isWord, hkind]
  change (State.start firstId).run _ = ((State.start firstId).run left).bind _
  rw [State.run_append, State.run]
  cases hfeed : (State.start firstId).feedAll left with
  | error fault => rfl
  | ok last =>
    obtain ⟨hactive, houter⟩ := State.level_of_openAfter_eq_zero hmatch hfeed
    have hplain := State.negated_settle_eq_false hfeed hactive heven
    have hlevel := State.settle_eq_between hactive
    rw [houter] at hlevel
    change last.run (connective :: right) =
      (ofTokens (connective :: right) last.finish.nextId).map fun back =>
        ⟨last.finish.forest ++ back.forest, back.nextId⟩
    rw [← last.run_settle hends, ← last.finish_settle, hlevel,
      State.run_between_connective hconnective hplain]
    rfl

/-- Tokens part in front of a connective, if those before it match and end with an even number of negations:
the siblings read from these stand in front of what is read from the connective on, from the next number that
they leave. -/
theorem ofTokens_connective (left right : List Token) (connective : Token)
    (hleft : KnowsComparisons left) (hright : KnowsComparisons right)
    (hconnective : connective.kind = .and ∨ connective.kind = .or)
    (hmatch : openAfter 0 left = some 0) (heven : Even (negationsAtEnd left)) (firstId : Int) :
    ∃ front back, ofTokens left firstId = .ok front ∧
      ofTokens (connective :: right) front.nextId = .ok back ∧
      ofTokens (left ++ connective :: right) firstId =
        .ok ⟨front.forest ++ back.forest, back.nextId⟩ := by
  have hbehind : KnowsComparisons (connective :: right) := by
    intro token hmem hkind
    rcases List.mem_cons.1 hmem with rfl | hmem
    · simp [hkind] at hconnective
    · exact hright token hmem hkind
  obtain ⟨front, hfront⟩ := exists_ofTokens hleft firstId
  obtain ⟨back, hback⟩ := exists_ofTokens hbehind front.nextId
  refine ⟨front, back, hfront, hback, ?_⟩
  rw [ofTokens_append_connective hconnective hmatch heven, hfront]
  change (ofTokens (connective :: right) front.nextId).map _ = _
  rw [hback]
  rfl

/-- In front of the connective stand a group, a comparison without its value and two negations; behind it, a
negation and parentheses that do not match. -/
theorem ofTokens_connective_unfinished :
    let opener : Token := ⟨.leftParen, "("⟩
    let closer : Token := ⟨.rightParen, ")"⟩
    let connective : Token := ⟨.or, "||"⟩
    let left : List Token := [opener, ⟨.not, "!"⟩, ⟨.atom, "a"⟩, ⟨.comparison, "eq"⟩, closer,
      ⟨.atom, "b"⟩, ⟨.comparison, "=="⟩, ⟨.not, "!"⟩, ⟨.and, "&&"⟩, ⟨.not, "!"⟩]
    let right : List Token := [⟨.not, "!"⟩, opener, ⟨.atom, "c"⟩, closer, closer, ⟨.atom, "d"⟩]
    ∃ front back, ofTokens left (-3) = .ok front ∧
      ofTokens (connective :: right) 1 = .ok back ∧
      ofTokens (left ++ connective :: right) (-3) = .ok ⟨front.forest ++ back.forest, 3⟩ := by
  intro opener closer connective left right
  have hleft : KnowsComparisons left := by
    unfold KnowsComparisons
    decide
  have hright : KnowsComparisons right := by
    unfold KnowsComparisons
    decide
  obtain ⟨front, back, hfront, hback, hwhole⟩ :=
    ofTokens_connective left right connective hleft hright (.inr rfl) rfl (by decide) (-3)
  cases hfront
  cases hback
  exact ⟨_, _, rfl, rfl, hwhole⟩

end DisplayFilter.Reading
