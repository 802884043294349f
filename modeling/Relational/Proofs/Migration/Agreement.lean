import Relational.Migration.Lifecycle
import Relational.Proofs.Binary64.Reading

/-!
# What the dialects have in common

The dialects write the same statements up to the quotes around names, and they fail on the same
operations: `render_agrees`.

What they do not share is left out: clustered indexes, which SQLite does not have, and constraints
of existing tables.  A text that contains quotes itself would lose these with the others.

Taking the quotes out commutes with joining texts, so each part of a statement needs to be
compared once, and what is left to see is that no part brings quotes of its own.
-/

namespace Relational

namespace Schema

/-! ## The texts that are carried -/

/-- The text of a type as it was declared. -/
def ColumnType.texts : ColumnType → List String
  | .custom name => [name]
  | _ => []

/-- The text of a default value. -/
def Default.texts : Default → List String
  | .string text => [text]
  | .expression sql => [sql]
  | _ => []

/-- The texts of a column. -/
def Column.texts (column : Column) : List String :=
  column.name :: (column.type.texts ++ column.default.texts)

/-- The names in an index. -/
def Index.texts (index : Index) : List String := index.name.toList ++ index.columns

/-- The texts of a constraint. -/
def Constraint.texts : Constraint → List String
  | .unique name columns => name :: columns
  | .check name expression => [name, expression]

/-- The texts of a table. -/
def Table.texts (schema : Table) : List String :=
  schema.name :: (schema.columns.flatMap Column.texts ++ schema.indexes.flatMap Index.texts ++
    schema.constraints.flatMap Constraint.texts)

/-! ## What is written for them -/

theorem quote_notMem_toDigits (n : Nat) : '"' ∉ Nat.toDigits 10 n := fun h =>
  absurd (Text.isDigit_of_mem_toDigits h) (by decide)

/-- No type brings quotes of its own. -/
theorem ColumnType.quote_notMem_sqlName {type : ColumnType}
    (h : ∀ text ∈ type.texts, '"' ∉ text.toList) : '"' ∉ type.sqlName.toList := by
  cases type with
  | custom name => exact h name (List.mem_singleton_self name)
  | varchar length => simp [sqlName, quote_notMem_toDigits]
  | decimal precision scale => simp [sqlName, quote_notMem_toDigits]
  | integer | bigInt | smallInt | text | boolean | real | double | blob | timestamp | date =>
      decide

/-- No default value brings quotes of its own. -/
theorem Default.quote_notMem_toSql {value : Default}
    (h : ∀ text ∈ value.texts, '"' ∉ text.toList) {sql : String} (hsql : value.toSql = some sql) :
    '"' ∉ sql.toList := by
  cases value with
  | unset => cases hsql
  | null =>
      obtain rfl := Option.some.inj hsql
      decide
  | bool value =>
      obtain rfl := Option.some.inj hsql
      cases value <;> decide
  | integer value =>
      obtain rfl := Option.some.inj hsql
      intro hmem
      rcases Text.isDigit_or_eq_minus_of_mem_toString hmem with hdigit | hminus
      · exact absurd hdigit (by decide)
      · exact absurd hminus (by decide)
  | float value =>
      obtain rfl := Option.some.inj hsql
      rw [String.toList_ofList]
      intro hmem
      rcases Binary64.isDigit_or_mem_of_mem_toText hmem with hdigit | hmark
      · exact absurd hdigit (by decide)
      · exact absurd hmark (by decide)
  | string text =>
      obtain rfl := Option.some.inj hsql
      have htext := h text (List.mem_singleton_self text)
      rw [stringLiteral, String.toList_ofList]
      simp [htext]
  | expression sql =>
      obtain rfl := Option.some.inj hsql
      exact h _ (List.mem_singleton_self _)

end Schema

namespace Migration

open Schema

/-! ## Operations that both dialects have -/

namespace Operation

/-- The texts of an operation. -/
def texts : Operation → List String
  | .createTable schema | .dropTable schema => schema.texts
  | .addColumn table column | .dropColumn table column => table :: column.texts
  | .createIndex table index | .dropIndex table index => table :: index.texts
  | .addConstraint table constraint | .dropConstraint table constraint => table :: constraint.texts

/-- The indexes that an operation carries. -/
def indexes : Operation → List Index
  | .createTable schema | .dropTable schema => schema.indexes
  | .createIndex _ index | .dropIndex _ index => [index]
  | .addColumn .. | .dropColumn .. | .addConstraint .. | .dropConstraint .. => []

/-- Whether an operation changes a constraint of an existing table. -/
def changesConstraint : Operation → Bool
  | .addConstraint .. | .dropConstraint .. => true
  | _ => false

/-- An operation that the dialects write in the same way: it changes no constraint of an existing
table, none of its indexes is clustered, and none of its texts contains a quote. -/
structure IsShared (op : Operation) : Prop where
  kind : op.changesConstraint = false
  indexes : ∀ index ∈ op.indexes, index.kind ≠ .clustered
  texts : ∀ text ∈ op.texts, '"' ∉ text.toList

theorem IsShared.inverse {op : Operation} (h : op.IsShared) : op.inverse.IsShared := by
  cases op <;> exact ⟨h.kind, h.indexes, h.texts⟩

end Operation

/-! ## Taking quotes out -/

/-- A text without its double quotes. -/
def withoutQuotes (text : String) : String := String.ofList (text.toList.filter (· ≠ '"'))

theorem withoutQuotes_eq_self {text : String} (h : '"' ∉ text.toList) :
    withoutQuotes text = text := by
  have hall : ∀ c ∈ text.toList, decide (c ≠ '"') = true :=
    fun c hc => decide_eq_true fun heq => h (heq ▸ hc)
  rw [withoutQuotes, List.filter_eq_self.mpr hall, String.ofList_toList]

theorem withoutQuotes_append (text more : String) :
    withoutQuotes (text ++ more) = withoutQuotes text ++ withoutQuotes more := by
  simp [withoutQuotes]

theorem withoutQuotes_intercalate {separator : String} (h : '"' ∉ separator.toList)
    (parts : List String) :
    withoutQuotes (separator.intercalate parts) =
      separator.intercalate (parts.map withoutQuotes) := by
  induction parts with
  | nil => rfl
  | cons part parts ih =>
      cases parts with
      | nil => rw [List.map_singleton, String.intercalate_singleton, String.intercalate_singleton]
      | cons next parts =>
          rw [List.map_cons, List.map_cons, String.intercalate_cons_cons,
            String.intercalate_cons_cons, withoutQuotes_append, withoutQuotes_append, ih,
            withoutQuotes_eq_self h, List.map_cons]

theorem map_withoutQuotes_eq_self {texts : List String}
    (h : ∀ text ∈ texts, '"' ∉ text.toList) : texts.map withoutQuotes = texts := by
  rw [List.map_congr_left fun text htext => withoutQuotes_eq_self (h text htext), List.map_id']

theorem map_withoutQuotes_map {α : Type} {f g : α → String} {items : List α}
    (h : ∀ item ∈ items, withoutQuotes (f item) = g item) :
    (items.map f).map withoutQuotes = items.map g := by
  rw [List.map_map]
  exact List.map_congr_left h

/-! ## Results that agree -/

/-- Two results agree up to quotes if both are values, the second one the first with its quotes
taken out, or both are errors with such messages. -/
inductive AgreeUpToQuotes {α : Type} (strip : α → α) : Except Error α → Except Error α → Prop
  | ok {a b : α} (h : strip a = b) : AgreeUpToQuotes strip (.ok a) (.ok b)
  | error {e f : Error} (h : withoutQuotes e.message = f.message) :
      AgreeUpToQuotes strip (.error e) (.error f)

namespace AgreeUpToQuotes

variable {α β γ : Type} {strip : α → α} {strip' : β → β}

/-- What is done with results that agree gives results that agree. -/
theorem bind {x y : Except Error α} {f g : α → Except Error β} (h : AgreeUpToQuotes strip x y)
    (hnext : ∀ a, AgreeUpToQuotes strip' (f a) (g (strip a))) :
    AgreeUpToQuotes strip' (x >>= f) (y >>= g) := by
  cases h with
  | @ok a b hvalue =>
      subst hvalue
      exact hnext a
  | error hmessage => exact .error hmessage

theorem map {x y : Except Error α} {f g : α → β} (h : AgreeUpToQuotes strip x y)
    (hvalue : ∀ a, strip' (f a) = g (strip a)) :
    AgreeUpToQuotes strip' (x.map f) (y.map g) :=
  h.bind fun a => .ok (hvalue a)

/-- What is written of one thing after another agrees if it does for each. -/
theorem mapM {f g : γ → Except Error α} {items : List γ}
    (h : ∀ item ∈ items, AgreeUpToQuotes strip (f item) (g item)) :
    AgreeUpToQuotes (List.map strip) (items.mapM f) (items.mapM g) := by
  induction items with
  | nil => exact .ok rfl
  | cons item items ih =>
      rw [List.forall_mem_cons] at h
      rw [List.mapM_cons, List.mapM_cons]
      exact h.1.bind fun a => (ih h.2).bind fun rest => .ok rfl

end AgreeUpToQuotes

namespace Dialect

/-! ## Parts of statements -/

theorem withoutQuotes_quote {name : String} (h : '"' ∉ name.toList) :
    withoutQuotes (sqlite.quote name) = generic.quote name := by
  have hquote : withoutQuotes "\"" = "" := rfl
  show withoutQuotes ("\"" ++ name ++ "\"") = name
  rw [withoutQuotes_append, withoutQuotes_append, hquote, withoutQuotes_eq_self h,
    String.empty_append, String.append_empty]

theorem withoutQuotes_quoteList {names : List String} (h : ∀ name ∈ names, '"' ∉ name.toList) :
    withoutQuotes (sqlite.quoteList names) = generic.quoteList names := by
  have hnames := map_withoutQuotes_map fun name hname => withoutQuotes_quote (h name hname)
  rw [quoteList, withoutQuotes_intercalate (by decide), hnames, quoteList]

theorem withoutQuotes_columnDefinition {column : Column}
    (h : ∀ text ∈ column.texts, '"' ∉ text.toList) :
    withoutQuotes (sqlite.columnDefinition column) = generic.columnDefinition column := by
  rw [Column.texts, List.forall_mem_cons, List.forall_mem_append] at h
  obtain ⟨hname, htype, hvalue⟩ := h
  obtain ⟨restriction, hrestriction, hshape⟩ := exists_columnDefinition_eq column
  have hdefinition : ∀ d : Dialect, d.columnDefinition column = _ := fun d =>
    hshape d column.default
  have hwords : ∀ text ∈ restriction, '"' ∉ text.toList := by
    intro text htext
    rcases hrestriction text htext with rfl | rfl
    · decide
    · decide
  have hdefault : ∀ text ∈ (column.default.toSql.map ("DEFAULT " ++ ·)).toList,
      '"' ∉ text.toList := by
    cases hsql : column.default.toSql with
    | none => exact List.forall_mem_nil _
    | some sql =>
        rw [Option.map_some, Option.toList_some, List.forall_mem_singleton, String.toList_append,
          List.mem_append, not_or]
        exact ⟨by decide, Default.quote_notMem_toSql hvalue hsql⟩
  rw [hdefinition, hdefinition, withoutQuotes_intercalate (by decide), List.map_append,
    List.map_append, List.map_cons, List.map_singleton, withoutQuotes_quote hname,
    withoutQuotes_eq_self (ColumnType.quote_notMem_sqlName htype),
    map_withoutQuotes_eq_self hwords, map_withoutQuotes_eq_self hdefault]

theorem withoutQuotes_constraintDefinition {c : Constraint}
    (h : ∀ text ∈ c.texts, '"' ∉ text.toList) :
    withoutQuotes (sqlite.constraintDefinition c) = generic.constraintDefinition c := by
  cases c with
  | unique name columns =>
      rw [Constraint.texts, List.forall_mem_cons] at h
      simp (disch := simp) only [constraintDefinition_unique, withoutQuotes_append,
        withoutQuotes_eq_self, withoutQuotes_quote h.1, withoutQuotes_quoteList h.2]
  | check name expression =>
      rw [Constraint.texts, List.forall_mem_cons, List.forall_mem_singleton] at h
      simp (disch := simp) only [constraintDefinition_check, withoutQuotes_append,
        withoutQuotes_eq_self, withoutQuotes_quote h.1, withoutQuotes_eq_self h.2]

/-- The statement of a table without its indexes. -/
theorem withoutQuotes_createTableStatement {schema : Table}
    (h : ∀ text ∈ schema.texts, '"' ∉ text.toList) :
    withoutQuotes (sqlite.createTableStatement schema) = generic.createTableStatement schema := by
  rw [Table.texts, List.forall_mem_cons, List.forall_mem_append, List.forall_mem_append,
    List.forall_mem_flatMap, List.forall_mem_flatMap, List.forall_mem_flatMap] at h
  obtain ⟨hname, ⟨hcolumns, -⟩, hconstraints⟩ := h
  have hcolumnTexts := map_withoutQuotes_map fun c hc =>
    withoutQuotes_columnDefinition (hcolumns c hc)
  have hconstraintTexts := map_withoutQuotes_map fun c hc =>
    withoutQuotes_constraintDefinition (hconstraints c hc)
  simp (disch := simp) only [createTableStatement_eq, withoutQuotes_append, withoutQuotes_eq_self,
    withoutQuotes_quote hname, withoutQuotes_intercalate, List.map_append, hcolumnTexts,
    hconstraintTexts]

/-! ## Indexes -/

/-- What stands before the columns in the statement that creates an index. -/
def indexHeading (d : Dialect) (kind : IndexKind) (table name : String) : String :=
  "CREATE " ++ kind.modifier ++ " INDEX " ++ d.quote name ++ " ON " ++ d.quote table ++ " ("

theorem indexStatement_of_ne_nil (d : Dialect) (kind : IndexKind) (table name : String)
    {columns : List String} (h : columns ≠ []) :
    d.indexStatement kind table name columns =
      .ok (d.indexHeading kind table name ++ d.quoteList columns ++ ")") := by
  have hquoted : columns.map d.quote ≠ [] := fun hnil => h (List.map_eq_nil_iff.mp hnil)
  rw [indexStatement, IndexKind.createStatement, if_neg hquoted]
  rfl

theorem indexStatement_nil (d : Dialect) (kind : IndexKind) (table name : String) :
    d.indexStatement kind table name [] =
      .error (.query (.invalidArgument ("index on '" ++ d.quote table ++ "' has no columns")
        (d.indexHeading kind table name ++ ")"))) := rfl

theorem message_invalidArgument (message fragment : String) :
    (Error.query (.invalidArgument message fragment)).message =
      "Query error: " ++ ("invalid argument: " ++ message ++ " (in `" ++ fragment ++ "`)") := rfl

theorem withoutQuotes_indexHeading (kind : IndexKind) {table name : String}
    (htable : '"' ∉ table.toList) (hname : '"' ∉ name.toList) :
    withoutQuotes (sqlite.indexHeading kind table name) =
      generic.indexHeading kind table name := by
  have hmodifier : withoutQuotes kind.modifier = kind.modifier := by
    cases kind <;> rfl
  unfold indexHeading
  simp (disch := simp) only [withoutQuotes_append, withoutQuotes_eq_self, hmodifier,
    withoutQuotes_quote htable, withoutQuotes_quote hname]

/-- An index without columns cannot be written, and the errors write its table as the dialects
do. -/
theorem indexStatement_agrees (kind : IndexKind) {table name : String} {columns : List String}
    (htable : '"' ∉ table.toList) (hname : '"' ∉ name.toList)
    (hcolumns : ∀ column ∈ columns, '"' ∉ column.toList) :
    AgreeUpToQuotes withoutQuotes (sqlite.indexStatement kind table name columns)
      (generic.indexStatement kind table name columns) := by
  have hheading := withoutQuotes_indexHeading kind htable hname
  by_cases hnone : columns = []
  · rw [hnone, indexStatement_nil, indexStatement_nil]
    refine .error ?_
    rw [message_invalidArgument, message_invalidArgument]
    simp (disch := simp) only [withoutQuotes_append, withoutQuotes_eq_self,
      withoutQuotes_quote htable, hheading]
  · rw [indexStatement_of_ne_nil _ _ _ _ hnone, indexStatement_of_ne_nil _ _ _ _ hnone]
    refine .ok ?_
    simp (disch := simp) only [withoutQuotes_append, withoutQuotes_eq_self, hheading,
      withoutQuotes_quoteList hcolumns]

/-- No name that is made up for an index contains quotes. -/
theorem quote_notMem_effectiveName {table : String} {index : Index} (htable : '"' ∉ table.toList)
    (h : ∀ text ∈ index.texts, '"' ∉ text.toList) :
    '"' ∉ (index.effectiveName table).toList := by
  rw [Index.texts, List.forall_mem_append] at h
  obtain ⟨hname, hcolumns⟩ := h
  rw [Index.effectiveName]
  cases hgiven : index.name with
  | some name => exact hname name (by simp [hgiven])
  | none =>
      have hjoined : '"' ∉ ['_'].intercalate (index.columns.map String.toList) :=
        Text.intercalate_of_append (motive := fun cs => '"' ∉ cs) List.not_mem_nil
          List.not_mem_append (by decide) (List.forall_mem_map.mpr hcolumns)
      cases index.kind.isUnique <;> simp [htable, hjoined]

theorem createIndex_agrees {table : String} {index : Index} (htable : '"' ∉ table.toList)
    (hkind : index.kind ≠ .clustered) (h : ∀ text ∈ index.texts, '"' ∉ text.toList) :
    AgreeUpToQuotes withoutQuotes (sqlite.createIndex table index)
      (generic.createIndex table index) := by
  have hname := quote_notMem_effectiveName htable h
  have hsame : sqlite.indexKind index.kind = generic.indexKind index.kind := by
    cases hindex : index.kind with
    | clustered => exact absurd hindex hkind
    | nonUnique | unique => rfl
  rw [Index.texts, List.forall_mem_append] at h
  rw [createIndex, createIndex, hsame]
  exact indexStatement_agrees _ htable hname h.2

/-! ## Operations -/

theorem createTable_agrees {schema : Table}
    (hkinds : ∀ index ∈ schema.indexes, index.kind ≠ .clustered)
    (h : ∀ text ∈ schema.texts, '"' ∉ text.toList) :
    AgreeUpToQuotes (List.map withoutQuotes) (sqlite.createTable schema)
      (generic.createTable schema) := by
  have hstatement := withoutQuotes_createTableStatement h
  rw [Table.texts, List.forall_mem_cons, List.forall_mem_append, List.forall_mem_append,
    List.forall_mem_flatMap, List.forall_mem_flatMap] at h
  obtain ⟨hname, ⟨-, hindexes⟩, -⟩ := h
  have hmany := AgreeUpToQuotes.mapM fun index hindex =>
    createIndex_agrees hname (hkinds index hindex) (hindexes index hindex)
  have hshape : ∀ d : Dialect, d.createTable schema =
      (schema.indexes.mapM (d.createIndex schema.name)).map
        (d.createTableStatement schema :: ·) := by
    intro d
    rw [createTable]
    cases schema.indexes.mapM (d.createIndex schema.name) <;> rfl
  rw [hshape, hshape]
  exact hmany.map fun statements => by rw [List.map_cons, hstatement]

/-- The statements of one operation. -/
theorem render_agrees_of_isShared {op : Operation} (h : op.IsShared) :
    AgreeUpToQuotes (List.map withoutQuotes) (sqlite.render op) (generic.render op) := by
  obtain ⟨hkind, hindexes, htexts⟩ := h
  cases op with
  | createTable schema => exact createTable_agrees hindexes htexts
  | dropTable schema =>
      have hname := htexts schema.name List.mem_cons_self
      refine .ok ?_
      simp (disch := simp) only [List.map_cons, List.map_nil, withoutQuotes_append,
        withoutQuotes_eq_self, withoutQuotes_quote hname]
  | addColumn table column =>
      obtain ⟨htable, hcolumn⟩ := List.forall_mem_cons.mp htexts
      refine .ok ?_
      simp (disch := simp) only [List.map_cons, List.map_nil, withoutQuotes_append,
        withoutQuotes_eq_self, withoutQuotes_quote htable, withoutQuotes_columnDefinition hcolumn]
  | dropColumn table column =>
      obtain ⟨htable, hcolumn⟩ := List.forall_mem_cons.mp htexts
      have hname := hcolumn column.name List.mem_cons_self
      refine .ok ?_
      simp (disch := simp) only [List.map_cons, List.map_nil, withoutQuotes_append,
        withoutQuotes_eq_self, withoutQuotes_quote htable, withoutQuotes_quote hname]
  | createIndex table index =>
      obtain ⟨htable, hindex⟩ := List.forall_mem_cons.mp htexts
      exact (createIndex_agrees htable (hindexes index (List.mem_singleton_self index)) hindex).map
        fun sql => rfl
  | dropIndex table index =>
      obtain ⟨htable, hindex⟩ := List.forall_mem_cons.mp htexts
      have hname := quote_notMem_effectiveName htable hindex
      refine .ok ?_
      simp (disch := simp) only [dropIndex, List.map_cons, List.map_nil, withoutQuotes_append,
        withoutQuotes_eq_self, withoutQuotes_quote hname]
  | addConstraint | dropConstraint => cases hkind

theorem renderAll_agrees {ops : List Operation} (h : ∀ op ∈ ops, op.IsShared) :
    AgreeUpToQuotes (List.map withoutQuotes) (sqlite.renderAll ops) (generic.renderAll ops) := by
  have hcons : ∀ (d : Dialect) op ops, d.renderAll (op :: ops) = (d.render op >>= fun first =>
      d.renderAll ops >>= fun rest => Except.ok (first ++ rest)) := by
    intro d op ops
    rw [renderAll]
    cases d.render op with
    | error => rfl
    | ok first => cases hrest : d.renderAll ops <;> rfl
  induction ops with
  | nil => exact .ok rfl
  | cons op ops ih =>
      rw [List.forall_mem_cons] at h
      rw [hcons, hcons]
      exact (render_agrees_of_isShared h.1).bind fun first =>
        (ih h.2).bind fun rest => .ok List.map_append

end Dialect

/-- The dialects agree up to quotes on what they share: on each operation, and so on each migration
made of such operations, when it is applied and when it is reverted. -/
theorem render_agrees :
    (∀ op : Operation, op.IsShared → AgreeUpToQuotes (List.map withoutQuotes)
      (Dialect.sqlite.render op) (Dialect.generic.render op)) ∧
    ∀ m : Migration, (∀ op ∈ m.operations, op.IsShared) →
      AgreeUpToQuotes (List.map withoutQuotes) (m.sql .sqlite) (m.sql .generic) ∧
      AgreeUpToQuotes (List.map withoutQuotes) (m.revertSql .sqlite) (m.revertSql .generic) := by
  refine ⟨fun op h => Dialect.render_agrees_of_isShared h, fun m h => ?_⟩
  have hinverse : ∀ op ∈ m.inverseOperations, op.IsShared := by
    rw [inverseOperations, List.forall_mem_map]
    exact fun op hop => (h op (List.mem_reverse.mp hop)).inverse
  exact ⟨Dialect.renderAll_agrees h, Dialect.renderAll_agrees hinverse⟩

/-- A migration that both dialects can apply and neither can revert, for the index that it drops
has no columns. -/
theorem render_agrees_index_without_columns :
    let schema : Table :=
      { name := "order lines"
        columns :=
          [{ name := "id", type := .custom "NUMBER (3)", primaryKey := true },
           { name := "note", type := .varchar 12, nullable := false, default := .string "it's" }]
        indexes := [{ kind := .unique, columns := ["note", "id"] }]
        constraints := [.unique "u" ["note"], .check "k" "note <> ''"] }
    let m : Migration := ⟨"order lines",
      [.createTable schema, .dropIndex "order lines" { columns := [] }], .unapplied⟩
    (Operation.createTable schema).IsShared ∧
      AgreeUpToQuotes (List.map withoutQuotes) (Dialect.sqlite.render (.createTable schema))
        (Dialect.generic.render (.createTable schema)) ∧
      (∀ op ∈ m.operations, op.IsShared) ∧
      (AgreeUpToQuotes (List.map withoutQuotes) (m.sql .sqlite) (m.sql .generic) ∧
        m.sql .sqlite = .ok
          ["CREATE TABLE \"order lines\" (\n" ++
            "  \"id\" NUMBER (3) PRIMARY KEY,\n" ++
            "  \"note\" VARCHAR(12) NOT NULL DEFAULT 'it''s',\n" ++
            "  CONSTRAINT \"u\" UNIQUE (\"note\"),\n  CONSTRAINT \"k\" CHECK (note <> '')\n)",
            "CREATE UNIQUE INDEX \"uq_order lines_note_id\" ON \"order lines\" (\"note\", \"id\")",
            "DROP INDEX \"idx_order lines_\""] ∧
        m.sql .generic = .ok
          ["CREATE TABLE order lines (\n" ++
            "  id NUMBER (3) PRIMARY KEY,\n" ++
            "  note VARCHAR(12) NOT NULL DEFAULT 'it''s',\n" ++
            "  CONSTRAINT u UNIQUE (note),\n  CONSTRAINT k CHECK (note <> '')\n)",
            "CREATE UNIQUE INDEX uq_order lines_note_id ON order lines (note, id)",
            "DROP INDEX idx_order lines_"]) ∧
      AgreeUpToQuotes (List.map withoutQuotes) (m.revertSql .sqlite) (m.revertSql .generic) ∧
        m.revertSql .sqlite = .error (.query (.invalidArgument
          "index on '\"order lines\"' has no columns"
          "CREATE  INDEX \"idx_order lines_\" ON \"order lines\" ()")) ∧
        m.revertSql .generic = .error (.query (.invalidArgument
          "index on 'order lines' has no columns"
          "CREATE  INDEX idx_order lines_ ON order lines ()")) := by
  intro schema m
  have hcreate : (Operation.createTable schema).IsShared := ⟨rfl, by decide, by decide⟩
  have hdrop : (Operation.dropIndex "order lines" { columns := [] }).IsShared :=
    ⟨rfl, by decide, by decide⟩
  have hall : ∀ op ∈ m.operations, op.IsShared := by
    simp only [m, List.forall_mem_cons]
    exact ⟨hcreate, hdrop, List.forall_mem_nil _⟩
  obtain ⟨hsql, hrevert⟩ := render_agrees.2 m hall
  exact ⟨hcreate, render_agrees.1 _ hcreate, hall, ⟨hsql, by decide +kernel, by decide +kernel⟩,
    hrevert, by rfl, by rfl⟩

end Migration

end Relational
