import Mathlib.Logic.Function.Iterate
import DisplayFilter.Proofs.Expression.Numbering
import DisplayFilter.Proofs.Expression.RoundTrip
/-!
# Writing an expression again and again

Reading an expression and writing it canonically need not give an expression that stays as it is: a field
can come out bare with a line feed behind it and be read as another word, or as a keyword, and then what
follows it is read as something else as well. But every such pass loses a line feed at the end of some field
or value and gains none, whatever becomes of the rest. So there are no more of them than line feeds at the
start (`canonicalize_iterate`).
-/

namespace DisplayFilter

/-- The canonical expression of what a text is read as. -/
def canonicalize (text : String) : String :=
  Forest.text (Reading.ofText text 1).forest

/-- How many fields and values of what a text is read as end with a line feed. -/
def readLineFeeds (text : String) : Nat :=
  Forest.lineFeeds (Reading.ofText text 1).forest

theorem readLineFeeds_canonicalize_le (text : String) :
    readLineFeeds (canonicalize text) ≤ readLineFeeds text :=
  (Reading.lineFeeds_ofText_text (Reading.ofText text 1).forest 1).1

/-- A pass that loses no line feed ends with an expression that stays as it is. -/
theorem canonicalize_fixed {text : String}
    (hkept : readLineFeeds (canonicalize text) = readLineFeeds text) :
    canonicalize (canonicalize text) = canonicalize text := by
  have hkeeps := (Reading.lineFeeds_ofText_text (Reading.ofText text 1).forest 1).2 hkept
  have hformed := (Reading.numbered_ofText text 1).wellFormed
  have hread := Reading.ofText_text hformed hkeeps 1
  change Forest.text (Reading.ofText (Forest.text (Reading.ofText text 1).forest) 1).forest =
    Forest.text (Reading.ofText text 1).forest
  rw [hread]
  exact Forest.text_normalize _ 1

theorem canonicalize_iterate_add (passes : Nat) {text : String} (hle : readLineFeeds text ≤ passes)
    (more : Nat) : canonicalize^[passes + more + 1] text = canonicalize^[passes + 1] text := by
  induction passes generalizing text with
  | zero =>
    have hle' := readLineFeeds_canonicalize_le text
    have hfixed : canonicalize (canonicalize text) = canonicalize text :=
      canonicalize_fixed (by omega)
    rw [Function.iterate_succ_apply, Function.iterate_succ_apply, Function.iterate_fixed hfixed,
      Function.iterate_fixed hfixed]
  | succ passes ih =>
    rw [Function.iterate_succ_apply, Function.iterate_succ_apply]
    by_cases hkept : readLineFeeds (canonicalize text) = readLineFeeds text
    · have hfixed := canonicalize_fixed hkept
      rw [Function.iterate_fixed hfixed, Function.iterate_fixed hfixed]
    · have hlost := readLineFeeds_canonicalize_le text
      rw [Nat.add_right_comm]
      exact ih (by omega)

/-- The passes settle after the first one and one more for every field or value that ends with a line feed
after it; without any, the first expression written stays as it is. -/
theorem canonicalize_iterate (text : String) :
    (∀ passes, readLineFeeds text ≤ passes →
      canonicalize^[passes + 1] text = canonicalize^[readLineFeeds text + 1] text) ∧
      (readLineFeeds text = 0 → canonicalize (canonicalize text) = canonicalize text) := by
  have hsettled : ∀ passes, readLineFeeds text ≤ passes →
      canonicalize^[passes + 1] text = canonicalize^[readLineFeeds text + 1] text := by
    intro passes hle
    obtain ⟨more, rfl⟩ := Nat.exists_eq_add_of_le hle
    exact canonicalize_iterate_add _ (Nat.le_refl _) more
  refine ⟨hsettled, fun hnone => ?_⟩
  have hsecond := hsettled 1 (by omega)
  rwa [hnone] at hsecond

/-- A quoted keyword with a line feed behind it is written bare, read as the keyword and then gone. Without
the line feed it keeps its quotes, and one pass is enough. -/
theorem canonicalize_iterate_keyword :
    let lost : String := String.ofList (Printer.quote "and\n".toList)
    let kept : String := String.ofList (Printer.quote "and".toList)
    readLineFeeds lost = 1 ∧ canonicalize^[3] lost = canonicalize^[2] lost ∧
      readLineFeeds kept = 0 ∧ canonicalize (canonicalize kept) = canonicalize kept := by
  intro lost kept
  have hread : ∀ (text : String) (reading : Reading),
      Reading.ofTokens [Token.ofLiteral (Printer.quote text.toList)] 1 = .ok reading →
      Reading.ofText (String.ofList (Printer.quote text.toList)) 1 = reading := by
    intro text reading hreading
    have hscan := Token.scanChars_quote text.toList []
    rw [List.append_nil, Token.scanChars_nil] at hscan
    have hsame := Reading.ofTokens_scan (String.ofList (Printer.quote text.toList)) 1
    rw [Token.scan, String.toList_ofList, hscan, hreading] at hsame
    exact (Except.ok.inj hsame).symm
  have hlost : readLineFeeds lost = 1 := by
    rw [readLineFeeds, hread "and\n" ⟨[.presence 1 "and\n"], 2⟩ rfl]
    decide
  have hkept : readLineFeeds kept = 0 := by
    rw [readLineFeeds, hread "and" ⟨[.presence 1 "and"], 2⟩ rfl]
    decide
  have hsettled := (canonicalize_iterate lost).1 2 (by omega)
  rw [hlost] at hsettled
  exact ⟨hlost, hsettled, hkept, (canonicalize_iterate kept).2 hkept⟩

end DisplayFilter
