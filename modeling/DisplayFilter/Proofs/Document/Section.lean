import DisplayFilter.Document.Display
/-!
# Sections of a document

A document that configures something is a mapping of sections, and each section is a mapping. What is empty
counts as absent, so only values that are neither empty nor mappings are out of place.
-/

namespace DisplayFilter.Value

def IsMapping (value : Value) : Prop :=
  ∃ entries, value = .mapping entries

/-- Something that is there, in the place of a mapping. -/
def IsMisplaced (value : Value) : Prop :=
  value.isTruthy = true ∧ ¬ value.IsMapping

/-- The entries of a section of a document. -/
def sectionEntries (document : Value) (name : String) : List (Scalar × Value) :=
  match document.field? name with
  | some (.mapping entries) => entries
  | _ => []

/-- The value of the last entry whose key has this text. -/
def lastAt? (entries : List (Scalar × Value)) (name : String) : Option Value :=
  (entries.reverse.find? fun entry => entry.1.shown == name).map Prod.snd

/-- With their texts for keys, entries are looked up from the last one. -/
theorem lookup_reverse_shown (entries : List (Scalar × Value)) (name : String) :
    (entries.map fun entry => (entry.1.shown, entry.2)).reverse.lookup name = lastAt? entries name := by
  rw [lastAt?, ← List.map_reverse]
  induction entries.reverse with
  | nil => rfl
  | cons entry rest ih =>
    rw [List.map_cons, List.lookup_cons, List.find?_cons, ih, BEq.comm]
    cases entry.1.shown == name <;> rfl

theorem exists_mem_of_lastAt? {entries : List (Scalar × Value)} {name : String} {value : Value}
    (hlast : lastAt? entries name = some value) : ∃ entry ∈ entries, entry.2 = value := by
  obtain ⟨entry, hentry, hvalue⟩ := Option.map_eq_some_iff.1 hlast
  exact ⟨entry, List.mem_reverse.1 (List.mem_of_find?_eq_some hentry), hvalue⟩

end DisplayFilter.Value
