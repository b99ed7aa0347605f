import DisplayFilter.Proofs.Expression.Clause
import DisplayFilter.Proofs.Tree.Valid
/-!
# What an expression puts into a tree

Whatever the tokens, none that a reading takes is lost, read twice or moved: the conditions of the tree are
the clauses of the expression. Loading is refused for the one reason that there are none.
-/

namespace DisplayFilter

open Token

namespace Tree

theorem load?_eq_none_iff (tree : Tree) (text : String) :
    tree.load? text = .ok none ↔ (Reading.ofText text tree.nextId).forest = [] := by
  rcases tree.load?_cases text with ⟨hempty, heq⟩ | ⟨nextId, heq, _, hvalid⟩
  · simp [heq, hempty]
  · simp [heq, hvalid.nonempty]

end Tree

/-- Tokens that spell their comparisons have a reading, and its conditions, depth first, are the clauses in
front of the first parenthesis that closes nothing. An expression is read as nothing, and loading it leaves
a tree as it is, exactly when no token up to there can be a field. -/
theorem placed_ofTokens :
    (∀ tokens : List Token, Reading.KnowsComparisons tokens → ∀ firstId : Int, ∃ reading,
      Reading.ofTokens tokens firstId = .ok reading ∧
        (Forest.placed 0 reading.forest).map some =
          (clauses 0 false (readable 0 tokens)).map Clause.placed? ∧
        (reading.forest = [] ↔ ∀ token ∈ readable 0 tokens, token.isWord = false)) ∧
      ∀ text : String,
        (∀ firstId : Int, (Reading.ofText text firstId).forest = [] ↔
          ∀ token ∈ readable 0 (scan text), token.isWord = false) ∧
        ∀ tree : Tree, tree.load? text = .ok none ↔
          ∀ token ∈ readable 0 (scan text), token.isWord = false := by
  have hempty : ∀ (text : String) (firstId : Int), (Reading.ofText text firstId).forest = [] ↔
      ∀ token ∈ readable 0 (scan text), token.isWord = false :=
    fun text firstId => Reading.forest_eq_nil_iff (Reading.ofTokens_scan text firstId)
  refine ⟨fun tokens hknown firstId => ?_, fun text => ⟨hempty text, fun tree => ?_⟩⟩
  · obtain ⟨reading, hread⟩ := Reading.exists_ofTokens hknown firstId
    exact ⟨reading, hread, Reading.placed_of_ofTokens hread, Reading.forest_eq_nil_iff hread⟩
  · rw [tree.load?_eq_none_iff]
    exact hempty text tree.nextId

/-- An operator takes no parenthesis for a value and stands for a field inside one, a negated comparison is
one level deeper, and nothing behind the second closing parenthesis counts. -/
theorem placed_ofTokens_malformed :
    let tokens : List Token := [⟨.not, "!"⟩, ⟨.atom, "a"⟩, ⟨.comparison, "=="⟩, ⟨.leftParen, "("⟩,
      ⟨.comparison, "EQ"⟩, ⟨.not, "not"⟩, ⟨.atom, "b"⟩, ⟨.rightParen, ")"⟩, ⟨.rightParen, ")"⟩,
      ⟨.atom, "c"⟩]
    Reading.KnowsComparisons tokens ∧
      ∃ reading, Reading.ofTokens tokens 5 = .ok reading ∧
        (Forest.placed 0 reading.forest).map some =
          [some ⟨1, "a", .equals, ""⟩, some ⟨1, "EQ", .exists, ""⟩, some ⟨1, "b", .negatedExists, ""⟩] := by
  intro tokens
  have hknown : Reading.KnowsComparisons tokens := by
    unfold Reading.KnowsComparisons
    decide
  obtain ⟨reading, hread, hplaced, _⟩ := placed_ofTokens.1 tokens hknown 5
  refine ⟨hknown, reading, hread, ?_⟩
  rw [hplaced]
  simp [tokens, readable, clauses, operands, nextIf, isWord]
  decide

end DisplayFilter
