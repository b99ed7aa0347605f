import DisplayFilter.Text.Literal
import Mathlib.Algebra.Group.Nat.Defs
import Mathlib.Data.List.Chain
/-!
# Reading literals back

A literal shows one text only, from whichever end it is looked at. From the front, every character inside it
is read back from its own escape, whatever follows (`readChar_literalChar`). From behind, a mark inside a
literal has a backslash right before it, so the mark that a blank stands before is the one the literal
begins with (`eq_of_append_literalChars_eq`).
-/

namespace DisplayFilter.Text

/-- The two characters a literal can stand between. -/
def IsMark (c : Char) : Prop :=
  c = '\'' ∨ c = '"'

theorem isMark_literalMark (text : List Char) : IsMark (literalMark text) := by
  unfold literalMark
  split
  · exact .inr rfl
  · exact .inl rfl

/-! ### Numbers in hexadecimal digits -/

def hexValue (digit : Char) : Nat :=
  if digit.isDigit then digit.toNat - '0'.toNat else digit.toNat - 'a'.toNat + 10

def hexNumber (digits : List Char) : Nat :=
  digits.foldl (fun n digit => 16 * n + hexValue digit) 0

theorem hexValue_digitChar : ∀ d < 16, hexValue d.digitChar = d := by
  decide

theorem length_hexDigits (width n : Nat) : (hexDigits width n).length = width := by
  induction width generalizing n with
  | zero => rfl
  | succ width ih => simp [hexDigits, ih]

theorem hexNumber_hexDigits (width n : Nat) : hexNumber (hexDigits width n) = n % 16 ^ width := by
  induction width generalizing n with
  | zero => simp [hexDigits, hexNumber, Nat.mod_one]
  | succ width ih =>
    have hlast := hexValue_digitChar (n % 16) (Nat.mod_lt n (by decide))
    have hfront := ih (n / 16)
    unfold hexNumber at hfront ⊢
    rw [hexDigits, List.foldl_append, hfront, List.foldl_cons, List.foldl_nil, hlast, Nat.pow_succ',
      Nat.mod_mul, Nat.add_comm]

theorem mem_hexDigits {width n : Nat} {c : Char} (hc : c ∈ hexDigits width n) :
    ∃ d < 16, c = d.digitChar := by
  induction width generalizing n with
  | zero => cases hc
  | succ width ih =>
    rw [hexDigits, List.mem_append, List.mem_singleton] at hc
    rcases hc with hc | rfl
    · exact ih hc
    · exact ⟨n % 16, Nat.mod_lt n (by decide), rfl⟩

/-! ### Characters inside a literal -/

/-- Reads a character that is written as its number. -/
def readNumbered (width : Nat) (text : List Char) : Char × List Char :=
  (Char.ofNat (hexNumber (text.take width)), text.drop width)

/-- Reads the character that the next ones inside a literal stand for. -/
def readChar : List Char → Char × List Char
  | '\\' :: 'n' :: rest => ('\n', rest)
  | '\\' :: 'r' :: rest => ('\r', rest)
  | '\\' :: 't' :: rest => ('\t', rest)
  | '\\' :: 'x' :: rest => readNumbered 2 rest
  | '\\' :: 'u' :: rest => readNumbered 4 rest
  | '\\' :: 'U' :: rest => readNumbered 8 rest
  | '\\' :: c :: rest => (c, rest)
  | c :: rest => (c, rest)
  | [] => default

theorem readNumbered_hexDigits {width : Nat} {c : Char} (hc : c.toNat < 16 ^ width) (rest : List Char) :
    readNumbered width (hexDigits width c.toNat ++ rest) = (c, rest) := by
  have hlength := length_hexDigits width c.toNat
  rw [readNumbered, List.take_left' hlength, List.drop_left' hlength, hexNumber_hexDigits,
    Nat.mod_eq_of_lt hc, Char.ofNat_toNat]

theorem readChar_cons_of_ne {c : Char} (hc : c ≠ '\\') (rest : List Char) :
    readChar (c :: rest) = (c, rest) := by
  unfold readChar
  split <;> simp_all

theorem readChar_numbered (c : Char) (rest : List Char) : readChar (numbered c ++ rest) = (c, rest) := by
  simp only [numbered]
  split
  · exact readNumbered_hexDigits (by omega) rest
  · split
    · exact readNumbered_hexDigits (by omega) rest
    · exact readNumbered_hexDigits c.val.toNat_lt rest

section Escapes

variable {mark : Char} (hmark : IsMark mark)

include hmark

theorem readChar_literalChar (c : Char) (rest : List Char) :
    readChar (literalChar mark c ++ rest) = (c, rest) := by
  unfold literalChar
  split
  · rename_i hc
    subst hc
    rcases hmark with rfl | rfl <;> rfl
  · split
    · rfl
    · rfl
    · rfl
    · rfl
    · rename_i hslash _ _ _
      split
      · exact readChar_cons_of_ne hslash rest
      · exact readChar_numbered c rest

theorem literalChar_ne_nil (c : Char) : literalChar mark c ≠ [] := by
  intro hnil
  have hread := readChar_literalChar hmark c [mark]
  rw [hnil] at hread
  rcases hmark with rfl | rfl <;> cases congrArg Prod.snd hread

/-- Text inside literals with one mark is the same only where the text is. -/
theorem eq_of_flatMap_literalChar_eq {text other : List Char}
    (heq : text.flatMap (literalChar mark) = other.flatMap (literalChar mark)) : text = other := by
  induction text generalizing other with
  | nil =>
    cases other with
    | nil => rfl
    | cons c other => exact absurd (List.append_eq_nil_iff.1 heq.symm).1 (literalChar_ne_nil hmark c)
  | cons c text ih =>
    cases other with
    | nil => exact absurd (List.append_eq_nil_iff.1 heq).1 (literalChar_ne_nil hmark c)
    | cons d other =>
      rw [List.flatMap_cons, List.flatMap_cons] at heq
      have hread := congrArg readChar heq
      rw [readChar_literalChar hmark, readChar_literalChar hmark, Prod.mk.injEq] at hread
      obtain ⟨rfl, hrest⟩ := hread
      rw [ih hrest]

end Escapes

/-! ### Marks inside a literal -/

/-- Every mark has a backslash right before it. -/
structure Guarded (mark : Char) (text : List Char) : Prop where
  head : text.head? ≠ some mark
  chain : text.IsChain fun before c => c = mark → before = '\\'

theorem Guarded.append {mark : Char} {left right : List Char} (hleft : Guarded mark left)
    (hright : Guarded mark right) : Guarded mark (left ++ right) := by
  constructor
  · cases left with
    | nil => exact hright.head
    | cons c left => exact hleft.head
  · refine List.isChain_append.2 ⟨hleft.chain, hright.chain, fun before _ c hc hmark => ?_⟩
    rw [Option.mem_def, hmark] at hc
    exact absurd hc hright.head

theorem guarded_of_not_mem {mark : Char} {text : List Char} (hnot : mark ∉ text) : Guarded mark text := by
  constructor
  · exact fun hhead => hnot (List.mem_of_head? hhead)
  · refine (List.pairwise_of_forall_mem_list fun before _ c hc hmark => ?_).isChain
    exact absurd (hmark ▸ hc) hnot

section Marks

variable {mark : Char} (hmark : IsMark mark)

include hmark

theorem not_mem_numbered (c : Char) : mark ∉ numbered c := by
  have hdigit : ∀ d < 16, mark ≠ d.digitChar := by
    rcases hmark with rfl | rfl <;> decide
  have hdigits : ∀ width, mark ∉ hexDigits width c.toNat := by
    intro width hmem
    obtain ⟨d, hd, heq⟩ := mem_hexDigits hmem
    exact hdigit d hd heq
  have hprefix : ∀ letter ∈ ['x', 'u', 'U'], ∀ width,
      mark ∉ '\\' :: letter :: hexDigits width c.toNat := by
    intro letter hletter width
    have hne : mark ≠ '\\' ∧ mark ≠ letter := by
      simp only [List.mem_cons, List.not_mem_nil, or_false] at hletter
      rcases hmark with rfl | rfl <;> rcases hletter with rfl | rfl | rfl <;> decide
    simp only [List.mem_cons, not_or]
    exact ⟨hne.1, hne.2, hdigits width⟩
  simp only [numbered]
  split
  · exact hprefix 'x' (by decide) 2
  · split
    · exact hprefix 'u' (by decide) 4
    · exact hprefix 'U' (by decide) 8

theorem literalChar_cases (c : Char) : literalChar mark c = ['\\', mark] ∨ mark ∉ literalChar mark c := by
  have hescape : ∀ letter ∈ ['\\', 'n', 'r', 't'], mark ∉ ['\\', letter] := by
    rcases hmark with rfl | rfl <;> simp
  unfold literalChar
  split
  · rename_i hc
    exact .inl (by rw [hc])
  · rename_i hc
    refine .inr ?_
    split
    · exact hescape '\\' (by decide)
    · exact hescape 'n' (by decide)
    · exact hescape 'r' (by decide)
    · exact hescape 't' (by decide)
    · split
      · simpa using Ne.symm hc
      · exact not_mem_numbered hmark c

theorem guarded_literalChar (c : Char) : Guarded mark (literalChar mark c) := by
  rcases literalChar_cases hmark c with hescaped | hnot
  · rw [hescaped]
    refine ⟨fun hhead => ?_, List.isChain_cons_cons.2 ⟨fun _ => rfl, List.isChain_singleton _⟩⟩
    rcases hmark with rfl | rfl <;> cases hhead
  · exact guarded_of_not_mem hnot

theorem guarded_flatMap (text : List Char) : Guarded mark (text.flatMap (literalChar mark)) := by
  induction text with
  | nil => exact guarded_of_not_mem List.not_mem_nil
  | cons c text ih => exact (guarded_literalChar hmark c).append ih

end Marks

/-! ### Literals -/

theorem literalChars_injective : Function.Injective literalChars := by
  intro text other heq
  obtain ⟨hmark, hbody⟩ := List.cons.inj heq
  rw [hmark] at hbody
  exact eq_of_flatMap_literalChar_eq (isMark_literalMark other) (List.append_cancel_right hbody)

/-- No literal has another one at its end, behind a blank. -/
theorem literalChars_ne_append (text other left : List Char) :
    literalChars text ≠ left ++ ' ' :: literalChars other := by
  intro heq
  have hmark : literalMark text = literalMark other := by
    have hlast := congrArg List.getLast? heq
    simpa [literalChars, List.getLast?_append, List.getLast?_cons] using hlast
  have hclosed : (literalMark other :: text.flatMap (literalChar (literalMark other))) ++ [literalMark other] =
      (left ++ ' ' :: literalMark other :: other.flatMap (literalChar (literalMark other))) ++
        [literalMark other] := by
    simpa [literalChars, hmark] using heq
  have hopen := List.append_cancel_right hclosed
  cases left with
  | nil =>
    have hblank := (List.cons.inj hopen).1
    rcases isMark_literalMark other with hother | hother <;> rw [hother] at hblank <;> cases hblank
  | cons c left =>
    have hguarded := (guarded_flatMap (isMark_literalMark other) text).chain
    rw [(List.cons.inj hopen).2] at hguarded
    cases (List.isChain_append_cons_cons.1 hguarded).2.1 rfl

/-- What stands behind a blank is cut off from the right in one way only if no longer part could be. -/
theorem eq_of_append_blank_eq {left right word other : List Char}
    (hword : ∀ front, word ≠ front ++ ' ' :: other) (hother : ∀ front, other ≠ front ++ ' ' :: word)
    (heq : left ++ ' ' :: word = right ++ ' ' :: other) : left = right ∧ word = other := by
  rcases List.append_eq_append_iff.1 heq with ⟨between, hright, hshown⟩ | ⟨between, hleft, hshown⟩
  · cases between with
    | nil => exact ⟨by simpa using hright.symm, (List.cons.inj hshown).2⟩
    | cons c between => exact absurd (List.cons.inj hshown).2 (hword between)
  · cases between with
    | nil => exact ⟨by simpa using hleft, (List.cons.inj hshown).2.symm⟩
    | cons c between => exact absurd (List.cons.inj hshown).2 (hother between)

theorem eq_of_append_literalChars_eq {left right text other : List Char}
    (heq : left ++ ' ' :: literalChars text = right ++ ' ' :: literalChars other) :
    left = right ∧ text = other := by
  obtain ⟨hleft, hliteral⟩ := eq_of_append_blank_eq (literalChars_ne_append text other)
    (literalChars_ne_append other text) heq
  exact ⟨hleft, literalChars_injective hliteral⟩

theorem eq_of_append_word_eq {left right word other : List Char} (hword : ' ' ∉ word)
    (hother : ' ' ∉ other) (heq : left ++ ' ' :: word = right ++ ' ' :: other) :
    left = right ∧ word = other := by
  refine eq_of_append_blank_eq ?_ ?_ heq
  · rintro front rfl
    exact hword (List.mem_append_right front List.mem_cons_self)
  · rintro front rfl
    exact hother (List.mem_append_right front List.mem_cons_self)

end DisplayFilter.Text
