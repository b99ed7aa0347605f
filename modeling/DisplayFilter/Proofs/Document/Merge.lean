import Mathlib.Data.List.Induction
import DisplayFilter.Document.Merge
/-!
# What a merged mapping has where

A path of keys leads down through mappings. As long as both values have a mapping on the path, the merged
value has one with the keys of both. Where the path comes to the first place at which one of them has none,
the merged value is from there on the upper value if that has anything there, and the lower one otherwise
(`merge_along_paths`). This rests on what a single level looks up after merging (`lookup_mergeEntries`), by
induction on the path. A second merge changes nothing by induction on the upper value.
-/

namespace DisplayFilter

namespace Table

variable {κ α : Type} [BEq κ]

theorem put_eq_self {table : Table κ α} {key : κ} {value : α} (hlookup : table.lookup key = some value) :
    put key value table = table := by
  induction table with
  | nil => cases hlookup
  | cons entry rest ih =>
    obtain ⟨name, old⟩ := entry
    rw [List.lookup_cons] at hlookup
    rw [put]
    cases hkey : key == name with
    | true =>
      rw [hkey] at hlookup
      rw [if_pos rfl, Option.some.inj hlookup]
    | false =>
      rw [hkey] at hlookup
      rw [if_neg (by simp), ih hlookup]

theorem exists_mem_of_lookup {table : Table κ α} {key : κ} {value : α}
    (hlookup : table.lookup key = some value) : ∃ entry ∈ table, entry.2 = value := by
  rw [List.lookup_eq_findSome?] at hlookup
  obtain ⟨entry, hentry, hvalue⟩ := List.exists_of_findSome?_eq_some hlookup
  refine ⟨entry, hentry, ?_⟩
  split at hvalue
  · exact Option.some.inj hvalue
  · cases hvalue

theorem map_fst_put (key : κ) (value : α) (table : Table κ α) :
    (put key value table).map Prod.fst =
      table.map Prod.fst ++ if (table.lookup key).isNone then [key] else [] := by
  induction table with
  | nil => rfl
  | cons entry rest ih =>
    obtain ⟨name, old⟩ := entry
    rw [put, List.lookup_cons]
    cases hkey : key == name with
    | true => simp
    | false => simp [ih]

end Table

namespace Value

/-- No mapping has two keys that are the same, however deep it is in other mappings. -/
inductive Keyed : Value → Prop where
  | scalar (leaf : Scalar) : Keyed (.scalar leaf)
  | sequence (items : List Value) : Keyed (.sequence items)
  | mapping {entries : List (Scalar × Value)} (hkeys : (entries.map fun entry => entry.1.key).Nodup)
      (hvalues : ∀ entry ∈ entries, Keyed entry.2) : Keyed (.mapping entries)

theorem Keyed.nodup {entries : List (Scalar × Value)} (hkeyed : Keyed (.mapping entries)) :
    (entries.map fun entry => entry.1.key).Nodup := by
  cases hkeyed with
  | mapping hkeys _ => exact hkeys

/-- What a value has at the end of a path of keys. -/
def at? (value : Value) : List Scalar → Option Value
  | [] => some value
  | key :: path => match value with
    | .mapping entries => (entries.lookup key).bind (·.at? path)
    | _ => none

/-- Both values have a mapping at the end of the path. -/
def BothMappings (lower upper : Value) (path : List Scalar) : Prop :=
  (∃ entries, lower.at? path = some (.mapping entries)) ∧
    ∃ entries, upper.at? path = some (.mapping entries)

/-- The end of the path is the first place on it where not both values have a mapping. -/
def PartAt (lower upper : Value) (path : List Scalar) : Prop :=
  (∀ front, front <+: path → front ≠ path → BothMappings lower upper front) ∧
    ¬ BothMappings lower upper path

/-! ### One level -/

section Entries

variable {entries lower upper : List (Scalar × Value)} {key : Scalar}

theorem lookup_eq_none_iff_key :
    entries.lookup key = none ↔ key.key ∉ entries.map fun entry => entry.1.key := by
  simp only [List.lookup_eq_none_iff, List.mem_map, not_exists, not_and, bne, Bool.not_eq_true',
    ← Bool.not_eq_true, Scalar.beq_iff_key_eq]
  exact ⟨fun hnone entry hentry hsame => hnone entry hentry hsame.symm,
    fun hnone entry hentry hsame => hnone entry hentry hsame.symm⟩

theorem lookup_of_mem {entry : Scalar × Value} (hkeys : (entries.map fun entry => entry.1.key).Nodup)
    (hentry : entry ∈ entries) : entries.lookup entry.1 = some entry.2 := by
  induction entries with
  | nil => cases hentry
  | cons first rest ih =>
    rw [List.map_cons, List.nodup_cons] at hkeys
    rw [List.lookup_cons]
    rcases List.mem_cons.1 hentry with rfl | hentry
    · simp
    · have hne : (entry.1 == first.1) = false := by
        rw [← Bool.not_eq_true, Scalar.beq_iff_key_eq]
        intro hsame
        exact hkeys.1 (hsame ▸ List.mem_map_of_mem hentry)
      rw [hne]
      exact ih hkeys.2 hentry

theorem mergeAt_none (value : Value) : mergeAt none value = value := by
  cases value <;> rfl

/-- Only where two mappings meet do entries of both come together. -/
theorem mergeAt_of_not_both {lower : Option Value} {upper : Value}
    (hpart : ∀ base higher, lower = some (.mapping base) → upper ≠ .mapping higher) :
    mergeAt lower upper = upper := by
  cases upper with
  | scalar | sequence => rfl
  | mapping higher =>
    unfold mergeAt
    split
    · exact absurd rfl (hpart _ higher rfl)
    · rfl

theorem mergeEntries_cons (lower : List (Scalar × Value)) (entry : Scalar × Value)
    (upper : List (Scalar × Value)) :
    mergeEntries lower (entry :: upper) =
      mergeEntries (Table.put entry.1 (mergeAt (lower.lookup entry.1) entry.2) lower) upper := by
  rw [mergeEntries]

/-- Each key of the upper mapping has what is merged there, and every other key has what it had. -/
theorem lookup_mergeEntries (hkeys : (upper.map fun entry => entry.1.key).Nodup)
    (lower : List (Scalar × Value)) (key : Scalar) :
    (mergeEntries lower upper).lookup key =
      match upper.lookup key with
      | some value => some (mergeAt (lower.lookup key) value)
      | none => lower.lookup key := by
  induction upper generalizing lower with
  | nil => rw [mergeEntries]; rfl
  | cons entry rest ih =>
    rw [List.map_cons, List.nodup_cons] at hkeys
    rw [mergeEntries_cons, ih hkeys.2, List.lookup_cons, Table.lookup_put]
    cases hsame : key == entry.1 with
    | true =>
      -- The key comes once, so nothing behind it puts anything there.
      have hrest : rest.lookup key = none := by
        rw [Table.lookup_congr hsame]
        exact lookup_eq_none_iff_key.2 hkeys.1
      simp only [hrest, if_true, Table.lookup_congr hsame]
    | false => simp

/-- The keys of the lower mapping keep their places, and the new keys follow. -/
theorem map_fst_mergeEntries (hkeys : (upper.map fun entry => entry.1.key).Nodup)
    (lower : List (Scalar × Value)) :
    (mergeEntries lower upper).map Prod.fst =
      lower.map Prod.fst ++ (upper.map Prod.fst).filter fun key => (lower.lookup key).isNone := by
  induction upper generalizing lower with
  | nil => simp [mergeEntries]
  | cons entry rest ih =>
    rw [List.map_cons, List.nodup_cons] at hkeys
    have hothers : ∀ key ∈ rest.map Prod.fst,
        ((Table.put entry.1 (mergeAt (lower.lookup entry.1) entry.2) lower).lookup key).isNone =
          (lower.lookup key).isNone := by
      intro key hkey
      have hne : (key == entry.1) = false := by
        rw [← Bool.not_eq_true, Scalar.beq_iff_key_eq]
        intro hsame
        obtain ⟨other, hother, rfl⟩ := List.mem_map.1 hkey
        exact hkeys.1 (hsame ▸ List.mem_map_of_mem hother)
      rw [Table.lookup_put, hne, if_neg (by simp)]
    rw [mergeEntries_cons, ih hkeys.2, Table.map_fst_put, List.filter_congr hothers, List.map_cons,
      List.filter_cons, List.append_assoc]
    split <;> rfl

/-- Entries that are what they would be merged into change nothing. -/
theorem mergeEntries_eq_self (hsame : ∀ entry ∈ upper, ∃ value,
    lower.lookup entry.1 = some value ∧ mergeAt (some value) entry.2 = value) :
    mergeEntries lower upper = lower := by
  induction upper with
  | nil => rw [mergeEntries]
  | cons entry rest ih =>
    obtain ⟨value, hlookup, hvalue⟩ := hsame entry List.mem_cons_self
    rw [mergeEntries_cons, hlookup, hvalue, Table.put_eq_self hlookup]
    exact ih fun other hother => hsame other (List.mem_cons_of_mem entry hother)

end Entries

/-! ### Merging twice -/

theorem Keyed.mergeAt_mergeAt {upper : Value} (hkeyed : Keyed upper) (lower : Option Value) :
    mergeAt (some (mergeAt lower upper)) upper = mergeAt lower upper := by
  induction hkeyed generalizing lower with
  | scalar leaf => rfl
  | sequence items => rfl
  | @mapping entries hkeys _ ih =>
    by_cases hlower : ∃ base, lower = some (.mapping base)
    · obtain ⟨base, rfl⟩ := hlower
      refine congrArg Value.mapping (mergeEntries_eq_self fun entry hentry => ?_)
      refine ⟨mergeAt (base.lookup entry.1) entry.2, ?_, ih entry hentry _⟩
      rw [lookup_mergeEntries hkeys, lookup_of_mem hkeys hentry]
    · have htaken : mergeAt lower (.mapping entries) = .mapping entries :=
        mergeAt_of_not_both fun base _ hbase => absurd ⟨base, hbase⟩ hlower
      rw [htaken]
      refine congrArg Value.mapping (mergeEntries_eq_self fun entry hentry => ?_)
      have hself := ih entry hentry none
      rw [mergeAt_none] at hself
      exact ⟨entry.2, lookup_of_mem hkeys hentry, hself⟩

/-! ### Paths -/

variable {lower upper : Value} {path : List Scalar}

theorem at?_mapping_cons (entries : List (Scalar × Value)) (key : Scalar) (path : List Scalar) :
    (mapping entries).at? (key :: path) = (entries.lookup key).bind (·.at? path) := by
  rw [at?]

theorem at?_append (value : Value) (front back : List Scalar) :
    value.at? (front ++ back) = (value.at? front).bind (·.at? back) := by
  induction front generalizing value with
  | nil => rfl
  | cons key front ih =>
    cases value with
    | scalar | sequence => rfl
    | mapping entries =>
      rw [List.cons_append, at?_mapping_cons, at?_mapping_cons, Option.bind_assoc]
      simp only [ih]

/-- Down to where both values have a mapping, merging goes on with what they have there. -/
theorem at?_mergeAt {base higher : List (Scalar × Value)} (hkeyed : Keyed upper)
    (hlower : lower.at? path = some (.mapping base)) (hupper : upper.at? path = some (.mapping higher)) :
    Keyed (.mapping higher) ∧
      (mergeAt (some lower) upper).at? path = some (.mapping (mergeEntries base higher)) := by
  induction path generalizing lower upper with
  | nil =>
    obtain rfl : lower = .mapping base := Option.some.inj hlower
    obtain rfl : upper = .mapping higher := Option.some.inj hupper
    exact ⟨hkeyed, rfl⟩
  | cons key path ih =>
    cases lower with
    | scalar | sequence => cases hlower
    | mapping lowerEntries =>
      cases hkeyed with
      | scalar | sequence => cases hupper
      | @mapping upperEntries hkeys hvalues =>
        rw [at?_mapping_cons, Option.bind_eq_some_iff] at hlower hupper
        obtain ⟨old, hold, hlower⟩ := hlower
        obtain ⟨new, hnew, hupper⟩ := hupper
        have hkeyed : Keyed new := by
          obtain ⟨entry, hentry, rfl⟩ := Table.exists_mem_of_lookup hnew
          exact hvalues entry hentry
        obtain ⟨hhigher, hmerged⟩ := ih hkeyed hlower hupper
        refine ⟨hhigher, ?_⟩
        change (mapping (mergeEntries lowerEntries upperEntries)).at? (key :: path) = _
        rw [at?_mapping_cons, lookup_mergeEntries hkeys, hold, hnew]
        exact hmerged

/-- A path that goes on to a mapping goes through mappings. -/
theorem exists_mapping_at {value : Value} {entries : List (Scalar × Value)} {front back : List Scalar}
    (hat : value.at? (front ++ back) = some (.mapping entries)) :
    ∃ around, value.at? front = some (.mapping around) := by
  rw [at?_append, Option.bind_eq_some_iff] at hat
  obtain ⟨found, hfound, hback⟩ := hat
  cases back with
  | nil => exact ⟨entries, hfound.trans hback⟩
  | cons key back =>
    cases found with
    | scalar | sequence => cases hback
    | mapping around => exact ⟨around, hfound⟩

theorem BothMappings.of_append {front back : List Scalar}
    (hboth : BothMappings lower upper (front ++ back)) : BothMappings lower upper front := by
  obtain ⟨⟨_, hlower⟩, ⟨_, hupper⟩⟩ := hboth
  exact ⟨exists_mapping_at hlower, exists_mapping_at hupper⟩

theorem partAt_concat_iff {front : List Scalar} {key : Scalar} :
    PartAt lower upper (front ++ [key]) ↔
      BothMappings lower upper front ∧ ¬ BothMappings lower upper (front ++ [key]) := by
  constructor
  · rintro ⟨hbefore, hpart⟩
    exact ⟨hbefore front (List.prefix_append front [key]) (by simp), hpart⟩
  · rintro ⟨hfront, hpart⟩
    refine ⟨fun before hbefore hne => ?_, hpart⟩
    obtain ⟨back, rfl⟩ := (List.prefix_concat_iff.1 hbefore).resolve_left hne
    exact hfront.of_append

theorem at?_step {value : Value} {entries : List (Scalar × Value)} {front : List Scalar}
    (hfront : value.at? front = some (.mapping entries)) (key : Scalar) (rest : List Scalar) :
    value.at? (front ++ [key] ++ rest) = (entries.lookup key).bind (·.at? rest) := by
  rw [List.append_assoc, at?_append, hfront]
  exact at?_mapping_cons entries key rest

theorem at?_concat {value : Value} {entries : List (Scalar × Value)} {front : List Scalar}
    (hfront : value.at? front = some (.mapping entries)) (key : Scalar) :
    value.at? (front ++ [key]) = entries.lookup key := by
  have hstep := at?_step hfront key []
  rw [List.append_nil] at hstep
  exact hstep.trans (Option.bind_fun_some _)

/-- Where the two values part, the merged one goes on with the upper value if that has anything there. -/
theorem at?_mergeAt_of_partAt (hkeyed : Keyed upper)
    (hboth : BothMappings lower upper []) (hpart : PartAt lower upper path) (rest : List Scalar) :
    (mergeAt (some lower) upper).at? (path ++ rest) =
      if (upper.at? path).isSome then upper.at? (path ++ rest) else lower.at? (path ++ rest) := by
  cases path using List.reverseRecOn with
  | nil => exact absurd hboth hpart.2
  | append_singleton front key =>
    obtain ⟨⟨⟨base, hlower⟩, ⟨higher, hupper⟩⟩, hclash⟩ := partAt_concat_iff.1 hpart
    obtain ⟨hhigher, hmerged⟩ := at?_mergeAt hkeyed hlower hupper
    rw [at?_step hmerged, at?_step hlower, at?_step hupper, at?_concat hupper,
      lookup_mergeEntries hhigher.nodup]
    cases hvalue : higher.lookup key with
    | none => rfl
    | some value =>
      have htaken : mergeAt (base.lookup key) value = value := by
        refine mergeAt_of_not_both fun old new hold hnew => hclash ⟨⟨old, ?_⟩, ⟨new, ?_⟩⟩
        · rw [at?_concat hlower, hold]
        · rw [at?_concat hupper, hvalue, hnew]
      simp [htaken]

/-- Merging a mapping over another: along paths where both have mappings, the keys are those of the lower one
and then the new ones of the upper one; from the place where they part, all is as in the upper one, or as in
the lower one where the upper one has nothing. Merging the same mapping again changes nothing. -/
theorem merge_along_paths {base higher : List (Scalar × Value)} (hkeyed : Keyed (.mapping higher)) :
    ∃ merged, merge (.mapping base) (.mapping higher) = .ok merged ∧
      (∀ path lowerHere upperHere, (mapping base).at? path = some (.mapping lowerHere) →
        (mapping higher).at? path = some (.mapping upperHere) →
          ∃ entries, merged.at? path = some (.mapping entries) ∧
            entries.map Prod.fst = lowerHere.map Prod.fst ++
              (upperHere.map Prod.fst).filter fun key => (lowerHere.lookup key).isNone) ∧
      (∀ path rest, PartAt (.mapping base) (.mapping higher) path →
        (((mapping higher).at? path).isSome →
            merged.at? (path ++ rest) = (mapping higher).at? (path ++ rest)) ∧
          ((mapping higher).at? path = none →
            merged.at? (path ++ rest) = (mapping base).at? (path ++ rest))) ∧
      merge merged (.mapping higher) = .ok merged := by
  have hmerge : ∀ lower : List (Scalar × Value),
      merge (.mapping lower) (.mapping higher) = .ok (mergeAt (some (.mapping lower)) (.mapping higher)) := by
    intro lower
    cases higher with
    | nil => simp [merge, mergeAt, mergeEntries]
    | cons => simp [merge, mergeAt]
  refine ⟨_, hmerge base, ?_, ?_, ?_⟩
  · intro path lowerHere upperHere hlower hupper
    obtain ⟨hhere, hmerged⟩ := at?_mergeAt hkeyed hlower hupper
    exact ⟨_, hmerged, map_fst_mergeEntries hhere.nodup lowerHere⟩
  · intro path rest hpart
    have hbeyond := at?_mergeAt_of_partAt hkeyed ⟨⟨base, rfl⟩, ⟨higher, rfl⟩⟩ hpart rest
    refine ⟨fun hsome => ?_, fun hnone => ?_⟩
    · rw [hbeyond, if_pos hsome]
    · rw [hbeyond, hnone, if_neg (by simp)]
  · change merge (.mapping (mergeEntries base higher)) (.mapping higher) = _
    rw [hmerge]
    exact congrArg Except.ok (hkeyed.mergeAt_mergeAt (some (.mapping base)))

/-- A mapping over a mapping, over a scalar and under one. The truth value is the key one, which keeps its
place and its spelling. -/
theorem merge_along_paths_nested :
    let base : List (Scalar × Value) :=
      [(.text "a", .mapping [(.int 1, .text "x"), (.text "w", .mapping [])]),
        (.text "b", .mapping [(.text "z", .int 4)]), (.text "c", .int 5)]
    let higher : List (Scalar × Value) :=
      [(.text "c", .mapping [(.text "d", .int 6)]),
        (.text "a", .mapping [(.text "v", .null), (.bool true, .int 7)]), (.text "b", .int 8)]
    Keyed (.mapping higher) ∧
      ∃ merged, merge (.mapping base) (.mapping higher) = .ok merged ∧
        (∃ entries, merged.at? [.text "a"] = some (.mapping entries) ∧
          entries.map Prod.fst = [.int 1, .text "w", .text "v"]) ∧
        merged.at? [.text "c", .text "d"] = some (.int 6) ∧
        merged.at? [.text "b", .text "z"] = none ∧
        merged.at? [.text "a", .text "w"] = some (.mapping []) ∧
        merge merged (.mapping higher) = .ok merged := by
  intro base higher
  have hleaf : ∀ leaf : Scalar, Keyed (.scalar leaf) := .scalar
  have hkeyed : Keyed (.mapping higher) := by
    refine .mapping (by decide) ?_
    simp only [higher, List.forall_mem_cons, List.not_mem_nil, false_implies, implies_true, and_true]
    refine ⟨.mapping (by decide) ?_, .mapping (by decide) ?_, hleaf _⟩
    · simp [hleaf]
    · simp [hleaf]
  obtain ⟨merged, hmerge, hkeys, hpart, hagain⟩ := @merge_along_paths base higher hkeyed
  have hc : PartAt (.mapping base) (.mapping higher) ([] ++ [.text "c"]) := by
    refine partAt_concat_iff.2 ⟨⟨⟨_, rfl⟩, ⟨_, rfl⟩⟩, ?_⟩
    rintro ⟨⟨_, hlower⟩, -⟩
    cases hlower
  have hb : PartAt (.mapping base) (.mapping higher) ([] ++ [.text "b"]) := by
    refine partAt_concat_iff.2 ⟨⟨⟨_, rfl⟩, ⟨_, rfl⟩⟩, ?_⟩
    rintro ⟨-, ⟨_, hupper⟩⟩
    cases hupper
  have hw : PartAt (.mapping base) (.mapping higher) ([.text "a"] ++ [.text "w"]) := by
    refine partAt_concat_iff.2 ⟨⟨⟨_, rfl⟩, ⟨_, rfl⟩⟩, ?_⟩
    rintro ⟨-, ⟨_, hupper⟩⟩
    cases hupper
  exact ⟨hkeyed, merged, hmerge, hkeys [.text "a"] _ _ rfl rfl, (hpart _ [.text "d"] hc).1 rfl,
    (hpart _ [.text "z"] hb).1 rfl, (hpart _ [] hw).2 rfl, hagain⟩

end Value

end DisplayFilter
