import DisplayFilter.Proofs.Expression.RoundTrip
import DisplayFilter.Proofs.Tree.Session
/-!
# Loading a tree's own expression

An editor shows a tree as its canonical expression, and loading that expression should give the tree back
up to numbers. It does for every tree of a session in which no field is a bare word with a line feed behind
it and no value a bare number with one, and for no other (`attemptAll_reloads_iff`). A line feed behind a
bare text is written outside quotes, although a canonical expression is meant to be a single line.
-/

namespace DisplayFilter

namespace Forest

/-- If what is read from a canonical expression has that expression again, no line feed was lost. -/
theorem keepsLineFeeds_of_text_eq {forest : Forest} {firstId : Int}
    (hsame : text (Reading.ofText (text forest) firstId).forest = text forest) :
    forest.KeepsLineFeeds := by
  have htokens : Printer.siblingTokens true (Reading.ofText (text forest) firstId).forest =
      Printer.siblingTokens true forest := by
    rw [← Token.scan_text, hsame, Token.scan_text]
  have hread := Reading.lineFeeds_le_of_ofTokens (Reading.ofTokens_scan (text forest) firstId)
  have hchars := String.ofList_injective hsame
  obtain ⟨hle, heq⟩ :=
    Printer.lineFeeds_siblingTokens true (Reading.ofText (text forest) firstId).forest
  rw [Token.scan_text, ← htokens] at hread
  -- As many line feeds were read as the tokens hold, so what was read is written on a single line.
  have hline := (Printer.newline_not_mem_siblings_iff true _).2 (heq.1 (Nat.le_antisymm hle hread))
  rw [hchars] at hline
  exact (Printer.newline_not_mem_siblings_iff true forest).1 hline

end Forest

namespace Tree

/-- A tree that no edit has touched: the initial one, or what an expression was read as. -/
def IsFresh (tree : Tree) : Prop :=
  (∃ field, tree = initial field) ∨
    ∃ text, ofForest (Reading.ofText text 1).forest = .ok tree

/-- Loading the tree's own expression is not refused, and gives as many nodes and the same expression. -/
def Reloads (tree : Tree) : Prop :=
  ∃ again, tree.load? (Forest.text tree.roots) = .ok (some again) ∧
    (Forest.walk again.roots).length = (Forest.walk tree.roots).length ∧
    Forest.text again.roots = Forest.text tree.roots

theorem valid_of_isFresh {tree : Tree} (hfresh : tree.IsFresh) : tree.Valid := by
  rcases hfresh with ⟨field, rfl⟩ | ⟨text, hread⟩
  · exact valid_initial field
  · exact valid_of_make (Reading.numbered_ofText text 1).wellFormed hread

theorem Valid.reloads_iff {tree : Tree} (hvalid : tree.Valid) :
    tree.Reloads ↔ tree.roots.KeepsLineFeeds := by
  have hcases := tree.load?_cases (Forest.text tree.roots)
  constructor
  · rintro ⟨again, hload, -, hsame⟩
    rcases hcases with ⟨_, heq⟩ | ⟨nextId, heq, _⟩
    · rw [heq] at hload
      cases hload
    · rw [heq] at hload
      cases hload
      exact Forest.keepsLineFeeds_of_text_eq hsame
  · intro hkeeps
    have hread := Reading.ofText_text hvalid.wellFormed hkeeps tree.nextId
    rw [hread] at hcases
    rcases hcases with ⟨hempty, _⟩ | ⟨nextId, heq, _⟩
    · cases hroots : tree.roots with
      | nil => exact absurd hroots hvalid.nonempty
      | cons node rest => simp [hroots, Forest.normalize, Forest.renumber] at hempty
    · exact ⟨_, heq, Forest.length_walk_renumber true tree.nextId tree.roots,
        Forest.text_normalize tree.roots tree.nextId⟩

/-- The initial tree of a keyword with a line feed behind it is refused as empty: its own expression is
read as the keyword. -/
theorem not_reloads_initial_keyword :
    (initial "and\n").IsFresh ∧
      (initial "and\n").load? (Forest.text (initial "and\n").roots) = .ok none ∧
      ¬ (Edit.attemptAll (initial "and\n") []).Reloads := by
  have hread := Reading.ofTokens_scan (Forest.text (initial "and\n").roots) 2
  have hnothing : Reading.ofTokens (Printer.siblingTokens true (initial "and\n").roots) 2 =
      .ok ⟨[], 2⟩ := by
    rfl
  rw [Token.scan_text, hnothing] at hread
  have hempty : (Reading.ofText (Forest.text (initial "and\n").roots) 2).forest = [] := by
    rw [← Except.ok.inj hread]
  refine ⟨.inl ⟨_, rfl⟩, ?_, ?_⟩
  · rcases (initial "and\n").load?_cases (Forest.text (initial "and\n").roots) with
      ⟨_, heq⟩ | ⟨_, _, _, hvalid⟩
    · exact heq
    · exact absurd hempty hvalid.nonempty
  · exact (valid_initial "and\n").reloads_iff.not.2 (by decide)

end Tree

/-- Whatever a session makes of a fresh tree, the tree survives its own expression exactly when no field
is a bare word with a line feed behind it, and no value a bare number with one. -/
theorem attemptAll_reloads_iff {start : Tree} (hfresh : start.IsFresh) (edits : List Edit) :
    (Edit.attemptAll start edits).Reloads ↔ (Edit.attemptAll start edits).roots.KeepsLineFeeds :=
  (Edit.valid_attemptAll (Tree.valid_of_isFresh hfresh) edits).reloads_iff

/-- A field that gets a line feed behind its word is lost, and survives with a second one behind it. -/
theorem attemptAll_reloads_iff_update :
    let rename (field : String) : List Edit :=
      [.add .null (.text "group"), .update (.int 3) [("field", .plain (.text field))]]
    (Tree.initial "http").IsFresh ∧
      ¬ (Edit.attemptAll (Tree.initial "http") (rename "or\n")).Reloads ∧
      (Edit.attemptAll (Tree.initial "http") (rename "or\n\n")).Reloads := by
  intro rename
  have hfresh : (Tree.initial "http").IsFresh := .inl ⟨_, rfl⟩
  exact ⟨hfresh, (attemptAll_reloads_iff hfresh _).not.2 (by decide),
    (attemptAll_reloads_iff hfresh _).2 (by decide)⟩

end DisplayFilter
