/-!
# Tables

A table is a list of keys with their values in which no key occurs twice. Putting a value at a key that
is there replaces the value in its place; a new key goes to the end. `List.lookup` reads a table.
-/

namespace DisplayFilter

/-- Keys with their values, in order. -/
abbrev Table (κ : Type) (α : Type) := List (κ × α)

namespace Table

variable {κ α : Type} [BEq κ]

/-- Puts a value at a key. -/
def put (key : κ) (value : α) : Table κ α → Table κ α
  | [] => [(key, value)]
  | (other, old) :: rest =>
    if key == other then (other, value) :: rest else (other, old) :: put key value rest

/-- Puts the entries of a list one after the other. -/
def putAll (table : Table κ α) (entries : List (κ × α)) : Table κ α :=
  entries.foldl (fun table entry => put entry.1 entry.2 table) table

/-- The table of the entries of a list: of a repeated key the first place and the last value. -/
def ofEntries (entries : List (κ × α)) : Table κ α :=
  putAll [] entries

end Table

theorem Table.lookup_congr {κ α : Type} [BEq κ] [EquivBEq κ] {key other : κ} (hsame : (key == other) = true)
    (table : Table κ α) : table.lookup key = table.lookup other := by
  induction table with
  | nil => rfl
  | cons entry rest ih => rw [List.lookup_cons, List.lookup_cons, BEq.congr_left hsame, ih]

theorem Table.lookup_put {κ α : Type} [BEq κ] [EquivBEq κ] (table : Table κ α) (key other : κ)
    (value : α) :
    (Table.put key value table).lookup other =
      if other == key then some value else table.lookup other := by
  induction table with
  | nil => cases hsame : other == key <;> simp [Table.put, List.lookup_cons, hsame]
  | cons entry rest ih =>
    obtain ⟨name, old⟩ := entry
    unfold Table.put
    cases hkey : key == name with
    | true =>
      rw [if_pos rfl, List.lookup_cons, List.lookup_cons, BEq.congr_right hkey]
      cases other == name <;> rfl
    | false =>
      rw [if_neg (by simp), List.lookup_cons, List.lookup_cons, ih]
      cases hname : other == name with
      | true =>
        have hne : (other == key) = false := by rw [BEq.congr_left hname, BEq.comm, hkey]
        simp [hne]
      | false => rfl

end DisplayFilter
