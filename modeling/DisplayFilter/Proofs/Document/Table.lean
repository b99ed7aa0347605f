import DisplayFilter.Document.Table
/-!
# Entries of a table

What the entries are after one entry is put into a table, and after all entries of another table are. In a
table no key occurs twice, and putting keeps that.
-/

namespace DisplayFilter.Table

variable {κ α : Type} {table entries : Table κ α} {key : κ} {value : α} {entry : κ × α}

/-- No key occurs twice. -/
def Distinct (table : Table κ α) : Prop :=
  (table.map Prod.fst).Nodup

theorem distinct_nil : Distinct ([] : Table κ α) :=
  List.nodup_nil

theorem distinct_reverse_iff : Distinct table.reverse ↔ Distinct table := by
  rw [Distinct, List.map_reverse, (List.reverse_perm (table.map Prod.fst)).nodup_iff, Distinct]

theorem distinct_cons_iff :
    Distinct (entry :: table) ↔ (∀ other ∈ table, other.1 ≠ entry.1) ∧ Distinct table := by
  rw [Distinct, List.map_cons, List.nodup_cons, List.mem_map, not_exists]
  simp only [not_and, Distinct]

theorem distinct_map_snd {β : Type} (f : α → β) (hdistinct : Distinct table) :
    Distinct (table.map fun entry => (entry.1, f entry.2)) := by
  rw [Distinct, List.map_map]
  exact hdistinct

variable [BEq κ]

theorem putAll_cons (table : Table κ α) (entry : κ × α) (entries : Table κ α) :
    putAll table (entry :: entries) = putAll (put entry.1 entry.2 table) entries :=
  rfl

theorem mem_of_mem_put (hentry : entry ∈ put key value table) : entry.2 = value ∨ entry ∈ table := by
  induction table with
  | nil => exact .inl (congrArg Prod.snd (List.mem_singleton.1 hentry))
  | cons first rest ih =>
    rw [put] at hentry
    split at hentry
    · rcases List.mem_cons.1 hentry with rfl | hentry
      · exact .inl rfl
      · exact .inr (List.mem_cons_of_mem first hentry)
    · rcases List.mem_cons.1 hentry with rfl | hentry
      · exact .inr List.mem_cons_self
      · exact (ih hentry).imp_right (List.mem_cons_of_mem first)

theorem lookup_map_snd {β : Type} (f : α → β) (table : Table κ α) (key : κ) :
    (table.map fun entry => (entry.1, f entry.2)).lookup key = (table.lookup key).map f := by
  induction table with
  | nil => rfl
  | cons entry rest ih =>
    rw [List.map_cons, List.lookup_cons, List.lookup_cons, ih]
    split <;> rfl

/-- Of the entries that are put for one key the last one counts. -/
theorem lookup_putAll [EquivBEq κ] (table entries : Table κ α) (key : κ) :
    (putAll table entries).lookup key = (entries.reverse.lookup key).or (table.lookup key) := by
  induction entries generalizing table with
  | nil => rfl
  | cons entry entries ih =>
    rw [putAll_cons, ih, lookup_put, List.reverse_cons, List.lookup_append, Option.or_assoc,
      List.lookup_cons]
    cases key == entry.1 <;> rfl

variable [LawfulBEq κ]

theorem lookup_eq_some_iff (hdistinct : Distinct table) :
    table.lookup key = some value ↔ (key, value) ∈ table := by
  induction table with
  | nil => simp
  | cons first rest ih =>
    obtain ⟨hfirst, hrest⟩ := distinct_cons_iff.1 hdistinct
    rw [List.lookup_cons, List.mem_cons]
    by_cases hkey : key = first.1
    · subst hkey
      rw [beq_self_eq_true]
      constructor
      · exact fun hvalue => .inl (Prod.ext rfl (Option.some.inj hvalue).symm)
      · rintro (hsame | hold)
        · exact congrArg some (congrArg Prod.snd hsame).symm
        · exact (hfirst _ hold rfl).elim
    · rw [beq_eq_false_iff_ne.2 hkey]
      refine (ih hrest).trans ⟨.inr, ?_⟩
      rintro (hsame | hold)
      · exact absurd (congrArg Prod.fst hsame) hkey
      · exact hold

theorem lookup_reverse (hdistinct : Distinct table) (key : κ) :
    table.reverse.lookup key = table.lookup key := by
  refine Option.ext fun value => ?_
  rw [lookup_eq_some_iff hdistinct, lookup_eq_some_iff (distinct_reverse_iff.2 hdistinct),
    List.mem_reverse]

theorem lookup_putAll_of_distinct (table : Table κ α) (hentries : Distinct entries) (key : κ) :
    (putAll table entries).lookup key = (entries.lookup key).or (table.lookup key) := by
  rw [lookup_putAll, lookup_reverse hentries]

theorem mem_put_iff (hdistinct : Distinct table) :
    entry ∈ put key value table ↔ entry = (key, value) ∨ (entry ∈ table ∧ entry.1 ≠ key) := by
  induction table with
  | nil => simp [put]
  | cons first rest ih =>
    obtain ⟨other, old⟩ := first
    obtain ⟨hfirst, hrest⟩ := distinct_cons_iff.1 hdistinct
    rw [put]
    by_cases hkey : key = other
    · subst hkey
      rw [if_pos (by simp), List.mem_cons, List.mem_cons]
      constructor
      · rintro (hnew | hold)
        · exact .inl hnew
        · exact .inr ⟨.inr hold, hfirst entry hold⟩
      · rintro (hnew | ⟨rfl | hold, hne⟩)
        · exact .inl hnew
        · exact absurd rfl hne
        · exact .inr hold
    · rw [if_neg (by simpa using hkey), List.mem_cons, List.mem_cons, ih hrest]
      constructor
      · rintro (rfl | hnew | ⟨hold, hne⟩)
        · exact .inr ⟨.inl rfl, Ne.symm hkey⟩
        · exact .inl hnew
        · exact .inr ⟨.inr hold, hne⟩
      · rintro (hnew | ⟨hfirst | hold, hne⟩)
        · exact .inr (.inl hnew)
        · exact .inl hfirst
        · exact .inr (.inr ⟨hold, hne⟩)

theorem distinct_put (hdistinct : Distinct table) (key : κ) (value : α) :
    Distinct (put key value table) := by
  induction table with
  | nil => simp [put, Distinct]
  | cons first rest ih =>
    obtain ⟨other, old⟩ := first
    obtain ⟨hfirst, hrest⟩ := distinct_cons_iff.1 hdistinct
    rw [put]
    by_cases hkey : key = other
    · rw [if_pos (by simpa using hkey)]
      exact distinct_cons_iff.2 ⟨hfirst, hrest⟩
    · rw [if_neg (by simpa using hkey)]
      refine distinct_cons_iff.2 ⟨fun entry hentry => ?_, ih hrest⟩
      rcases (mem_put_iff hrest).1 hentry with rfl | ⟨hold, _⟩
      · exact hkey
      · exact hfirst entry hold

theorem distinct_putAll (hdistinct : Distinct table) (entries : Table κ α) :
    Distinct (putAll table entries) := by
  induction entries generalizing table with
  | nil => exact hdistinct
  | cons entry entries ih => exact ih (distinct_put hdistinct entry.1 entry.2)

/-- The upper table gives its entries, and the lower one those for other keys. -/
theorem mem_putAll_iff (htable : Distinct table) (hentries : Distinct entries) :
    entry ∈ putAll table entries ↔
      entry ∈ entries ∨ (entry ∈ table ∧ ∀ other ∈ entries, entry.1 ≠ other.1) := by
  induction entries generalizing table with
  | nil => simp [putAll]
  | cons first rest ih =>
    obtain ⟨hfirst, hrest⟩ := distinct_cons_iff.1 hentries
    rw [putAll_cons, ih (distinct_put htable first.1 first.2) hrest, mem_put_iff htable, List.mem_cons,
      List.forall_mem_cons]
    constructor
    · rintro (hin | ⟨hnew | ⟨hold, hne⟩, hothers⟩)
      · exact .inl (.inr hin)
      · exact .inl (.inl hnew)
      · exact .inr ⟨hold, hne, hothers⟩
    · rintro ((rfl | hin) | ⟨hold, hne, hothers⟩)
      · exact .inr ⟨.inl rfl, fun other hother => (hfirst other hother).symm⟩
      · exact .inl hin
      · exact .inr ⟨.inr ⟨hold, hne⟩, hothers⟩

end DisplayFilter.Table
