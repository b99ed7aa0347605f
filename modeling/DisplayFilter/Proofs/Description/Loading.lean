import DisplayFilter.Description.Dictionary
import DisplayFilter.Proofs.Document.Section
import DisplayFilter.Proofs.Document.Table
import DisplayFilter.Proofs.Outcome
/-!
# Labels of a document

A label document gives a dictionary unless it is out of place itself, or one of its sections is, or what it
says last of some operator is no label (`IsFaulty`). The dictionary has at each name what the document says
last of it, and the English label where it says nothing (`LaidOver`). A phrasebook made from a dictionary
takes its entries as they are, so it is always made, has every word, and calls fields and operators by their
labels (`Calls`).
-/

namespace DisplayFilter

open Value

/-! ### Labels of operators -/

namespace OperatorLabel

/-- A value that is neither a label nor a mapping with one. -/
def IsUnlabelled (value : Value) : Prop :=
  (∀ label, value ≠ .text label) ∧ value.field? "label" = none

theorem ofValue_labelled (operator : String) {value label : Value}
    (hlabel : value.field? "label" = some label) :
    ofValue operator value =
      .ok ⟨.text (((value.field? "symbol").map shown).getD operator), .text label.shown⟩ := by
  cases value with
  | mapping entries =>
    rw [ofValue, hlabel]
    exact nofun
  | _ => cases hlabel

theorem ofValue_unlabelled (operator : String) {value : Value} (hvalue : IsUnlabelled value) :
    ofValue operator value = .error (.invalidEntry operator value.literal) := by
  rw [ofValue, hvalue.2]
  exact hvalue.1

theorem labelled_cases {value : Value} (hvalue : ¬ IsUnlabelled value) :
    (∃ label, value = .text label) ∨ ∃ label, value.field? "label" = some label := by
  by_cases htext : ∃ label, value = .text label
  · exact .inl htext
  · cases hlabel : value.field? "label" with
    | some label => exact .inr ⟨label, rfl⟩
    | none => exact absurd ⟨fun label heq => htext ⟨label, heq⟩, hlabel⟩ hvalue

theorem exists_ofValue (operator : String) {value : Value} (hvalue : ¬ IsUnlabelled value) :
    ∃ labels, ofValue operator value = .ok labels := by
  rcases labelled_cases hvalue with ⟨label, rfl⟩ | ⟨label, hlabel⟩
  · exact ⟨_, rfl⟩
  · exact ⟨_, ofValue_labelled operator hlabel⟩

variable {table : Table String OperatorEntry}

/-- A table gives labels when all its entries do, each at its own name. -/
theorem exists_ofEntries (hall : ∀ entry ∈ table, ∃ labels, ofEntry entry.1 entry.2 = .ok labels) :
    ∃ labelled, ofEntries table = .ok labelled ∧ labelled.map Prod.fst = table.map Prod.fst ∧
      ∀ name, labelled.lookup name = (table.lookup name).bind fun entry => (ofEntry name entry).toOption := by
  induction table with
  | nil => exact ⟨[], rfl, rfl, fun _ => rfl⟩
  | cons first rest ih =>
    obtain ⟨operator, entry⟩ := first
    obtain ⟨⟨labels, hlabels⟩, hrest⟩ := List.forall_mem_cons.1 hall
    obtain ⟨others, hothers, hnames, hlookup⟩ := ih hrest
    refine ⟨(operator, labels) :: others, ?_, congrArg (operator :: ·) hnames, fun name => ?_⟩
    · rw [ofEntries, hlabels, hothers]
      rfl
    · rw [List.lookup_cons, List.lookup_cons, hlookup]
      cases hname : name == operator with
      | true =>
        obtain rfl := eq_of_beq hname
        exact congrArg Except.toOption hlabels.symm
      | false => rfl

theorem exists_error_of_mem {entry : String × OperatorEntry} {error : LabelError} (hentry : entry ∈ table)
    (herror : ofEntry entry.1 entry.2 = .error error) : ∃ other, ofEntries table = .error other := by
  induction table with
  | nil => cases hentry
  | cons first rest ih =>
    rw [ofEntries]
    rcases List.mem_cons.1 hentry with rfl | hentry
    · rw [herror]
      exact ⟨error, rfl⟩
    · obtain ⟨other, hother⟩ := ih hentry
      cases ofEntry first.1 first.2 with
      | error here => exact ⟨here, rfl⟩
      | ok labels =>
        rw [hother]
        exact ⟨other, rfl⟩

/-- Labels that are there already are taken as they are. -/
theorem ofEntries_labels (labelled : Table String OperatorLabel) :
    ofEntries (labelled.map fun entry => (entry.1, .labels entry.2)) = .ok labelled := by
  induction labelled with
  | nil => rfl
  | cons entry rest ih =>
    rw [List.map_cons, ofEntries, ih]
    rfl

end OperatorLabel

/-! ### Sections of labels -/

namespace LabelSections

/-- The names of the sections. -/
def names : List String :=
  ["fields", "operators", "vocabulary"]

/-- The entries of a section of the document, each name with what is said last of it. -/
def entries (document : Value) (name : String) : Table String Value :=
  Table.ofEntries ((document.sectionEntries name).map fun entry => (entry.1.shown, entry.2))

variable {document value : Value} {name : String}

theorem distinct_entries (document : Value) (name : String) : (entries document name).Distinct :=
  Table.distinct_putAll Table.distinct_nil _

theorem lookup_entries (document : Value) (name key : String) :
    (entries document name).lookup key = lastAt? (document.sectionEntries name) key := by
  rw [entries, Table.ofEntries, Table.lookup_putAll, lookup_reverse_shown]
  exact Option.or_none

theorem entriesOf_eq_entries (path : String)
    (hplaced : ∀ value, document.field? name = some value → ¬ value.IsMisplaced) :
    entriesOf path name document = .ok (entries document name) := by
  rw [entriesOf, entries, sectionEntries]
  cases hfield : document.field? name with
  | none => rfl
  | some value =>
    cases value with
    | mapping entries => cases entries <;> rfl
    | scalar | sequence =>
      refine if_neg fun htruthy => hplaced _ hfield ⟨htruthy, ?_⟩
      rintro ⟨_, ⟨⟩⟩

theorem entriesOf_of_isMisplaced (path : String) (hfield : document.field? name = some value)
    (hplace : value.IsMisplaced) : entriesOf path name document = .error (.sectionNotMapping name path) := by
  obtain ⟨htruthy, hmapping⟩ := hplace
  simp only [entriesOf, hfield, if_pos htruthy]
  cases value with
  | mapping entries => exact absurd ⟨entries, rfl⟩ hmapping
  | scalar | sequence => rfl

theorem ofDocument_mapping (path : String) (given : List (Scalar × Value)) :
    ofDocument path (.mapping given) = do
      let fields ← entriesOf path "fields" (.mapping given)
      let operators ← entriesOf path "operators" (.mapping given)
      let vocabulary ← entriesOf path "vocabulary" (.mapping given)
      return ⟨fields, operators, vocabulary⟩ := by
  cases given <;> rfl

theorem ofDocument_of_placed (path : String) (hdocument : ¬ document.IsMisplaced)
    (hparts : ∀ name ∈ names, ∀ value, document.field? name = some value → ¬ value.IsMisplaced) :
    ofDocument path document =
      .ok ⟨entries document "fields", entries document "operators", entries document "vocabulary"⟩ := by
  have hpart : ∀ name ∈ names, entriesOf path name document = .ok (entries document name) :=
    fun name hname => entriesOf_eq_entries path (hparts name hname)
  cases document with
  | mapping given =>
    rw [ofDocument_mapping, hpart "fields" (by decide), hpart "operators" (by decide),
      hpart "vocabulary" (by decide)]
    rfl
  | scalar | sequence =>
    refine if_neg fun htruthy => hdocument ⟨htruthy, ?_⟩
    rintro ⟨_, ⟨⟩⟩

theorem ofDocument_of_isMisplaced (path : String) (hdocument : document.IsMisplaced) :
    ofDocument path document = .error (.notMapping path) := by
  obtain ⟨htruthy, hmapping⟩ := hdocument
  cases document with
  | mapping given => exact absurd ⟨given, rfl⟩ hmapping
  | scalar | sequence => exact if_pos htruthy

/-- Where a document has sections, each of them has entries. -/
theorem exists_entriesOf_of_ofDocument {path : String} {given : List (Scalar × Value)}
    {sections : LabelSections} (hsections : ofDocument path (.mapping given) = .ok sections)
    (hname : name ∈ names) : ∃ entries, entriesOf path name (.mapping given) = .ok entries := by
  rw [ofDocument_mapping] at hsections
  obtain ⟨fields, hfields, hsections⟩ := exists_of_bind_eq_ok hsections
  obtain ⟨operators, hoperators, hsections⟩ := exists_of_bind_eq_ok hsections
  obtain ⟨vocabulary, hvocabulary, -⟩ := exists_of_bind_eq_ok hsections
  simp only [names, List.mem_cons, List.not_mem_nil, or_false] at hname
  rcases hname with rfl | rfl | rfl
  · exact ⟨fields, hfields⟩
  · exact ⟨operators, hoperators⟩
  · exact ⟨vocabulary, hvocabulary⟩

theorem exists_error_of_part (path : String) (hname : name ∈ names)
    (hfield : document.field? name = some value) (hplace : value.IsMisplaced) :
    ∃ error, ofDocument path document = .error error := by
  cases document with
  | scalar | sequence => cases hfield
  | mapping given =>
    cases hsections : ofDocument path (.mapping given) with
    | error error => exact ⟨error, rfl⟩
    | ok sections =>
      obtain ⟨entries, hentries⟩ := exists_entriesOf_of_ofDocument hsections hname
      cases hentries.symm.trans (entriesOf_of_isMisplaced path hfield hplace)

end LabelSections

/-! ### Dictionaries -/

/-- What keeps a document from giving labels: it is out of place, a section of it is, or what it says last of an
operator is no label. -/
inductive Value.IsFaulty (document : Value) : Prop where
  | document (hplace : document.IsMisplaced)
  | part {name : String} {value : Value} (hname : name ∈ LabelSections.names)
      (hfield : document.field? name = some value) (hplace : value.IsMisplaced)
  | operator {name : String} {value : Value}
      (hlast : lastAt? (document.sectionEntries "operators") name = some value)
      (hlabel : OperatorLabel.IsUnlabelled value)

namespace Dictionary

/-- The dictionary has the labels of the document over the English ones, and nothing else. -/
structure LaidOver (document : Value) (dictionary : Dictionary) : Prop where
  distinct : dictionary.fields.Distinct ∧ dictionary.operators.Distinct ∧ dictionary.vocabulary.Distinct
  field : ∀ name, dictionary.fields.lookup name =
    ((lastAt? (document.sectionEntries "fields") name).map shown).or (English.fields.lookup name)
  word : ∀ name, dictionary.vocabulary.lookup name =
    ((lastAt? (document.sectionEntries "vocabulary") name).map shown).or (English.vocabulary.lookup name)
  operator_text : ∀ name label, lastAt? (document.sectionEntries "operators") name = some (.text label) →
    dictionary.operators.lookup name = some ⟨.text name, .text label⟩
  operator_mapping : ∀ name value label, lastAt? (document.sectionEntries "operators") name = some value →
    value.field? "label" = some label → dictionary.operators.lookup name =
      some ⟨.text (((value.field? "symbol").map shown).getD name), .text label.shown⟩
  operator_absent : ∀ name, lastAt? (document.sectionEntries "operators") name = none →
    dictionary.operators.lookup name = English.operators.lookup name

variable {document : Value}

/-! ### Operators -/

/-- The table of operators with what a document says of them over the English labels. -/
def operatorEntries (document : Value) : Table String OperatorEntry :=
  Table.putAll (English.operators.map fun entry => (entry.1, .labels entry.2))
    ((LabelSections.entries document "operators").map fun entry => (entry.1, .given entry.2))

theorem distinct_operators : English.operators.Distinct := by
  unfold Table.Distinct
  decide

theorem distinct_operatorEntries (document : Value) : (operatorEntries document).Distinct :=
  Table.distinct_putAll (Table.distinct_map_snd _ distinct_operators) _

theorem lookup_operatorEntries (document : Value) (name : String) :
    (operatorEntries document).lookup name =
      ((lastAt? (document.sectionEntries "operators") name).map OperatorEntry.given).or
        ((English.operators.lookup name).map OperatorEntry.labels) := by
  rw [operatorEntries, Table.lookup_putAll_of_distinct _
    (Table.distinct_map_snd _ (LabelSections.distinct_entries document "operators")), Table.lookup_map_snd,
    Table.lookup_map_snd, LabelSections.lookup_entries]

theorem exists_ofEntry_of_mem
    (hlabels : ∀ name value, lastAt? (document.sectionEntries "operators") name = some value →
      ¬ OperatorLabel.IsUnlabelled value) :
    ∀ entry ∈ operatorEntries document, ∃ labels, OperatorLabel.ofEntry entry.1 entry.2 = .ok labels := by
  rintro ⟨name, entry⟩ hentry
  have hlookup := (Table.lookup_eq_some_iff (distinct_operatorEntries document)).2 hentry
  rw [lookup_operatorEntries] at hlookup
  cases hlast : lastAt? (document.sectionEntries "operators") name with
  | some value =>
    rw [hlast, Option.map_some, Option.some_or, Option.some.injEq] at hlookup
    subst hlookup
    exact OperatorLabel.exists_ofValue name (hlabels name value hlast)
  | none =>
    rw [hlast, Option.map_none, Option.none_or, Option.map_eq_some_iff] at hlookup
    obtain ⟨labels, -, rfl⟩ := hlookup
    exact ⟨labels, rfl⟩

theorem lookup_ofEntry {name : String} {value : Value} {labels : OperatorLabel}
    (hlast : lastAt? (document.sectionEntries "operators") name = some value)
    (hlabels : OperatorLabel.ofValue name value = .ok labels) :
    ((operatorEntries document).lookup name).bind
      (fun entry => (OperatorLabel.ofEntry name entry).toOption) = some labels := by
  rw [lookup_operatorEntries, hlast, Option.map_some, Option.some_or, Option.bind_some,
    OperatorLabel.ofEntry, hlabels]
  rfl

/-! ### From sections to a dictionary -/

/-- The texts of a section. -/
def textsOf (document : Value) (part : String) : Table String String :=
  (LabelSections.entries document part).map fun entry => (entry.1, entry.2.shown)

theorem distinct_fields : English.fields.Distinct := by
  unfold Table.Distinct
  decide +kernel

theorem distinct_vocabulary : English.vocabulary.Distinct := by
  unfold Table.Distinct
  decide

theorem lookup_putAll_textsOf (table : Table String String) (document : Value) (part name : String) :
    (Table.putAll table (textsOf document part)).lookup name =
      ((lastAt? (document.sectionEntries part) name).map shown).or (table.lookup name) := by
  rw [textsOf, Table.lookup_putAll_of_distinct _
    (Table.distinct_map_snd shown (LabelSections.distinct_entries document part)), Table.lookup_map_snd,
    LabelSections.lookup_entries]

theorem ofSections_eq (document : Value) :
    ofSections ⟨LabelSections.entries document "fields", LabelSections.entries document "operators",
        LabelSections.entries document "vocabulary"⟩ = do
      let operators ← OperatorLabel.ofEntries (operatorEntries document)
      return ⟨Table.putAll English.fields (textsOf document "fields"), operators,
        Table.putAll English.vocabulary (textsOf document "vocabulary")⟩ :=
  rfl

theorem laidOver_of_labelled {operators : Table String OperatorLabel}
    (hnames : operators.map Prod.fst = (operatorEntries document).map Prod.fst)
    (hlookup : ∀ name, operators.lookup name = ((operatorEntries document).lookup name).bind
      fun entry => (OperatorLabel.ofEntry name entry).toOption) :
    LaidOver document ⟨Table.putAll English.fields (textsOf document "fields"), operators,
      Table.putAll English.vocabulary (textsOf document "vocabulary")⟩ where
  distinct := by
    refine ⟨Table.distinct_putAll distinct_fields _, ?_, Table.distinct_putAll distinct_vocabulary _⟩
    rw [Table.Distinct, hnames]
    exact distinct_operatorEntries document
  field := lookup_putAll_textsOf English.fields document "fields"
  word := lookup_putAll_textsOf English.vocabulary document "vocabulary"
  operator_text name label hlast := (hlookup name).trans (lookup_ofEntry hlast rfl)
  operator_mapping name value label hlast hlabel :=
    (hlookup name).trans (lookup_ofEntry hlast (OperatorLabel.ofValue_labelled name hlabel))
  operator_absent name hlast := by
    rw [hlookup, lookup_operatorEntries, hlast, Option.map_none, Option.none_or]
    cases English.operators.lookup name <;> rfl

/-! ### Phrasebooks -/

/-- What a dictionary gives to a phrasebook: the tables as they are. -/
def makePhrasebook (dictionary : Dictionary) : Except LabelError Phrasebook :=
  Phrasebook.make (some (Phrasebook.ofTexts dictionary.fields))
    (some (dictionary.operators.map fun entry => (entry.1, .labels entry.2)))
    (some (Phrasebook.ofTexts dictionary.vocabulary))

/-- The phrasebook calls fields and operators by the labels of the dictionary, and by their own names where the
label is empty or missing, and has all words. -/
structure Calls (dictionary : Dictionary) (phrasebook : Phrasebook) : Prop where
  field : ∀ name, phrasebook.fieldLabel name =
    .text (((dictionary.fields.lookup name).filter (· ≠ "")).getD name)
  operator : ∀ operator : Operator, ∃ symbol label,
    dictionary.operators.lookup operator.symbol = some ⟨.text symbol, .text label⟩ ∧
      phrasebook.operatorLabel operator = .text (if label = "" then operator.symbol else label)
  word : ∀ name ∈ English.vocabulary.map Prod.fst, ∃ text,
    dictionary.vocabulary.lookup name = some text ∧ phrasebook.vocabulary.lookup name = some (.text text)

theorem makePhrasebook_eq (dictionary : Dictionary) :
    dictionary.makePhrasebook = .ok dictionary.phrasebook := by
  rw [makePhrasebook, Phrasebook.make, OperatorLabel.ofEntries_labels]
  rfl

theorem lookup_ofTexts (table : Table String String) (name : String) :
    (Phrasebook.ofTexts table).lookup name = (table.lookup name).map .text :=
  Table.lookup_map_snd Value.text table name

theorem labelOr_text (label name : String) :
    Phrasebook.labelOr (some (.text label)) name = .text (if label = "" then name else label) := by
  by_cases hempty : label = "" <;> simp [Phrasebook.labelOr, isTruthy, hempty]

theorem labelOr_lookup (label : Option String) (name : String) :
    Phrasebook.labelOr (label.map .text) name = .text ((label.filter (· ≠ "")).getD name) := by
  cases label with
  | none => rfl
  | some label =>
    rw [Option.map_some, labelOr_text]
    by_cases hempty : label = "" <;> simp [hempty, Option.filter]

theorem LaidOver.exists_labels {dictionary : Dictionary} (hlaid : LaidOver document dictionary)
    (hlabels : ∀ name value, lastAt? (document.sectionEntries "operators") name = some value →
      ¬ OperatorLabel.IsUnlabelled value) (operator : Operator) :
    ∃ symbol label, dictionary.operators.lookup operator.symbol = some ⟨.text symbol, .text label⟩ := by
  cases hlast : lastAt? (document.sectionEntries "operators") operator.symbol with
  | none =>
    rw [hlaid.operator_absent operator.symbol hlast]
    cases operator <;> exact ⟨_, _, rfl⟩
  | some value =>
    rcases OperatorLabel.labelled_cases (hlabels _ value hlast) with ⟨label, rfl⟩ | ⟨label, hlabel⟩
    · exact ⟨_, _, hlaid.operator_text _ label hlast⟩
    · exact ⟨_, _, hlaid.operator_mapping _ value label hlast hlabel⟩

theorem LaidOver.calls {dictionary : Dictionary} (hlaid : LaidOver document dictionary)
    (hlabels : ∀ name value, lastAt? (document.sectionEntries "operators") name = some value →
      ¬ OperatorLabel.IsUnlabelled value) : Calls dictionary dictionary.phrasebook where
  field name := by
    rw [Phrasebook.fieldLabel, phrasebook, lookup_ofTexts, labelOr_lookup]
  operator operator := by
    obtain ⟨symbol, label, hlookup⟩ := hlaid.exists_labels hlabels operator
    refine ⟨symbol, label, hlookup, ?_⟩
    rw [Phrasebook.operatorLabel, phrasebook, hlookup, Option.map_some, labelOr_text]
  word name hname := by
    have hsome : (dictionary.vocabulary.lookup name).isSome := by
      rw [hlaid.word, Option.isSome_or, Bool.or_eq_true]
      refine .inr (List.lookup_isSome_iff.2 ?_)
      obtain ⟨entry, hentry, rfl⟩ := List.mem_map.1 hname
      exact ⟨entry, hentry, beq_self_eq_true entry.1⟩
    obtain ⟨text, htext⟩ := Option.isSome_iff_exists.1 hsome
    have hdistinct : (Phrasebook.ofTexts dictionary.vocabulary).Distinct :=
      Table.distinct_map_snd _ hlaid.distinct.2.2
    refine ⟨text, htext, (Table.lookup_putAll_of_distinct _ hdistinct name).trans ?_⟩
    rw [lookup_ofTexts, htext]
    rfl

/-! ### Loading -/

theorem result_load_of_error {path : String} {error : LabelError}
    (herror : LabelSections.ofDocument path document = .error error) :
    (load path (.document document)).result = .error (.labels error) := by
  rw [load, ofDocument, herror]

theorem result_load_of_ok {path : String} {sections : LabelSections}
    (hsections : LabelSections.ofDocument path document = .ok sections) :
    (load path (.document document)).result = (ofSections sections).mapError .labels := by
  rw [load, ofDocument, hsections]

theorem exists_error_of_unlabelled {name : String} {value : Value}
    (hlast : lastAt? (document.sectionEntries "operators") name = some value)
    (hlabel : OperatorLabel.IsUnlabelled value) :
    ∃ error, OperatorLabel.ofEntries (operatorEntries document) = .error error := by
  have hentry : (name, .given value) ∈ operatorEntries document := by
    rw [← Table.lookup_eq_some_iff (distinct_operatorEntries document), lookup_operatorEntries, hlast]
    rfl
  exact OperatorLabel.exists_error_of_mem hentry (OperatorLabel.ofValue_unlabelled name hlabel)

/-- The checks one after the other: of the document, of its sections, and of its operators. -/
theorem load_cases (path : String) (document : Value) :
    (document.IsFaulty ∧ ∃ error, (load path (.document document)).result = .error (.labels error)) ∨
      (¬ document.IsFaulty ∧ ∃ dictionary, (load path (.document document)).result = .ok dictionary ∧
        LaidOver document dictionary ∧ Calls dictionary dictionary.phrasebook) := by
  by_cases hdocument : document.IsMisplaced
  · exact .inl ⟨.document hdocument, _,
      result_load_of_error (LabelSections.ofDocument_of_isMisplaced path hdocument)⟩
  by_cases hpart : ∃ name ∈ LabelSections.names, ∃ value,
      document.field? name = some value ∧ value.IsMisplaced
  · obtain ⟨name, hname, value, hfield, hplace⟩ := hpart
    obtain ⟨error, herror⟩ := LabelSections.exists_error_of_part path hname hfield hplace
    exact .inl ⟨.part hname hfield hplace, error, result_load_of_error herror⟩
  have hparts : ∀ name ∈ LabelSections.names, ∀ value,
      document.field? name = some value → ¬ value.IsMisplaced :=
    fun name hname value hfield hplace => hpart ⟨name, hname, value, hfield, hplace⟩
  have hresult := result_load_of_ok (LabelSections.ofDocument_of_placed path hdocument hparts)
  rw [ofSections_eq] at hresult
  by_cases hoperator : ∃ name value, lastAt? (document.sectionEntries "operators") name = some value ∧
      OperatorLabel.IsUnlabelled value
  · obtain ⟨name, value, hlast, hlabel⟩ := hoperator
    obtain ⟨error, herror⟩ := exists_error_of_unlabelled hlast hlabel
    rw [herror] at hresult
    exact .inl ⟨.operator hlast hlabel, error, hresult⟩
  have hlabels : ∀ name value, lastAt? (document.sectionEntries "operators") name = some value →
      ¬ OperatorLabel.IsUnlabelled value :=
    fun name value hlast hlabel => hoperator ⟨name, value, hlast, hlabel⟩
  obtain ⟨operators, hoperators, hnames, hlookup⟩ :=
    OperatorLabel.exists_ofEntries (exists_ofEntry_of_mem hlabels)
  rw [hoperators] at hresult
  have hlaid := laidOver_of_labelled hnames hlookup
  refine .inr ⟨?_, _, hresult, hlaid, hlaid.calls hlabels⟩
  rintro (hplace | ⟨hname, hfield, hplace⟩ | ⟨hlast, hlabel⟩)
  · exact hdocument hplace
  · exact hparts _ hname _ hfield hplace
  · exact hlabels _ _ hlast hlabel

/-- A document is refused exactly when it is faulty. Otherwise it gives a dictionary with its labels over the
English ones, and from that a phrasebook is made that calls everything by these labels. -/
theorem load_document (path : String) (document : Value) :
    ((∃ error, (load path (.document document)).result = .error (.labels error)) ↔ document.IsFaulty) ∧
      (¬ document.IsFaulty → ∃ dictionary phrasebook,
        (load path (.document document)).result = .ok dictionary ∧ LaidOver document dictionary ∧
          dictionary.makePhrasebook = .ok phrasebook ∧ phrasebook = dictionary.phrasebook ∧
          Calls dictionary phrasebook) := by
  rcases load_cases path document with ⟨hfaulty, hrefused⟩ | ⟨hsound, dictionary, hresult, hlaid, hcalls⟩
  · exact ⟨⟨fun _ => hfaulty, fun _ => hrefused⟩, fun hsound => absurd hfaulty hsound⟩
  · refine ⟨⟨?_, fun hfaulty => absurd hfaulty hsound⟩, fun _ => ?_⟩
    · rintro ⟨error, hrefused⟩
      cases hrefused.symm.trans hresult
    · exact ⟨dictionary, _, hresult, hlaid, makePhrasebook_eq dictionary, rfl, hcalls⟩

/-- The number and the text have the same text for a key, and the latter counts. A label that is empty is not
used, the label of an operator need not be a text, and a section without a value is no fault. -/
theorem load_document_same_text :
    let document : Value := .record
      [("fields", .mapping [(.int 1, .text "one"), (.text "1", .int 2), (.null, .text "")]),
        ("operators", .record [("==", .text "is"), ("contains", .record [("label", .bool true)])]),
        ("vocabulary", .null)]
    ¬ document.IsFaulty ∧ ∃ dictionary phrasebook,
      (load "labels.yaml" (.document document)).result = .ok dictionary ∧
        dictionary.makePhrasebook = .ok phrasebook ∧ dictionary.fields.lookup "1" = some "2" ∧
        dictionary.operators.lookup "contains" = some ⟨.text "contains", .text "True"⟩ ∧
        phrasebook.fieldLabel "None" = .text "None" ∧
        dictionary.vocabulary.lookup "and" = some "and" := by
  intro document
  have hsound : ¬ document.IsFaulty := by
    rintro (⟨-, hplace⟩ | ⟨hname, hfield, hplace⟩ | ⟨hlast, hlabel⟩)
    · exact hplace ⟨_, rfl⟩
    · simp only [LabelSections.names, List.mem_cons, List.not_mem_nil, or_false] at hname
      rcases hname with rfl | rfl | rfl
      · cases hfield
        exact hplace.2 ⟨_, rfl⟩
      · cases hfield
        exact hplace.2 ⟨_, rfl⟩
      · cases hfield
        cases hplace.1
    · obtain ⟨entry, hentry, rfl⟩ := exists_mem_of_lastAt? hlast
      have hentries : document.sectionEntries "operators" =
          [(.text "==", .text "is"), (.text "contains", .record [("label", .bool true)])] := rfl
      simp only [hentries, List.mem_cons, List.not_mem_nil, or_false] at hentry
      rcases hentry with rfl | rfl
      · exact hlabel.1 "is" rfl
      · cases hlabel.2
  obtain ⟨dictionary, phrasebook, hresult, hlaid, hmake, -, hcalls⟩ :=
    (load_document "labels.yaml" document).2 hsound
  refine ⟨hsound, dictionary, phrasebook, hresult, hmake, (hlaid.field "1").trans (by decide +kernel),
    hlaid.operator_mapping "contains" _ (.bool true) rfl rfl, ?_,
    (hlaid.word "and").trans (by decide +kernel)⟩
  rw [hcalls.field, hlaid.field]
  rfl

end Dictionary

end DisplayFilter
