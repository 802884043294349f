import Relational.Proofs.Schema.Clause

/-!
# Recovery of constraints

The constraints of a table can be read back from the statement that creates it in
SQLite: `scanConstraints_createTableStatement`.

The names may be any words, also the word that begins a constraint.  An expression
must not contain that word, and its parentheses must be balanced outside of its
strings.
-/

namespace Relational.Schema

open Migration

/-! ## Tables that can be read back -/

/-- Whether a name consists of ASCII letters, digits and underscores. -/
def isIdentifier (name : String) : Bool :=
  name ≠ "" && name.toList.all fun c => c.isAlphanum || c == '_'

/-- An expression that can be told from the statement around it: ASCII characters with
no white space at either end, without the word that begins a constraint, and with
balanced parentheses.  The word may be part of a longer one. -/
structure IsReadableExpression (expression : String) : Prop where
  ascii : Text.isAscii expression.toList = true
  first : expression.toList.head?.any Text.isBlank = false
  last : expression.toList.getLast?.any Text.isBlank = false
  word : Text.containsWord ConstraintScan.keyword false expression.toList = false
  balanced : Balanced expression.toList

/-- A constraint that can be read back. -/
def Constraint.IsReadable : Constraint → Prop
  | .unique name columns =>
      isIdentifier name = true ∧ columns ≠ [] ∧ ∀ column ∈ columns, isIdentifier column = true
  | .check name expression => isIdentifier name = true ∧ IsReadableExpression expression

/-- Whether a default value is written without text of its own. -/
def Default.isPlain : Default → Bool
  | .unset | .null | .bool _ | .integer _ => true
  | .float _ | .string _ | .expression _ => false

/-- A column that cannot be mistaken for a constraint. -/
structure Column.IsReadable (column : Column) : Prop where
  name : isIdentifier column.name = true
  type : ∀ declared, column.type ≠ .custom declared
  default : column.default.isPlain = true

/-- A table whose constraints can be read back. -/
structure Table.IsReadable (schema : Table) : Prop where
  name : isIdentifier schema.name = true
  columns : ∀ column ∈ schema.columns, column.IsReadable
  constraints : ∀ constraint ∈ schema.constraints, constraint.IsReadable

/-! ## Names -/

theorem toList_ne_nil_of_isIdentifier {name : String} (h : isIdentifier name = true) :
    name.toList ≠ [] := by
  simp only [isIdentifier, Bool.and_eq_true, decide_eq_true_eq] at h
  exact fun hnil => h.1 (String.toList_eq_nil_iff.mp hnil)

theorem isWord_of_mem_identifier {name : String} (h : isIdentifier name = true) {c : Char}
    (hc : c ∈ name.toList) : Text.isWord c = true := by
  simp only [isIdentifier, Bool.and_eq_true, List.all_eq_true, Bool.or_eq_true, beq_iff_eq] at h
  rcases h.2 c hc with hc | rfl
  · exact Text.isWord_of_isAlphanum c hc
  · decide

theorem ne_of_mem_identifier {name : String} (h : isIdentifier name = true) {c d : Char}
    (hc : c ∈ name.toList) (hd : Text.isMark d = true) : c ≠ d := by
  rintro rfl
  have hword := isWord_of_mem_identifier h hc
  rw [Text.isWord_eq_false_of_isMark hd] at hword
  cases hword

theorem quote_notMem_of_isIdentifier {name : String} (h : isIdentifier name = true) :
    '"' ∉ name.toList :=
  fun hmem => ne_of_mem_identifier h hmem (by decide) rfl

theorem comma_notMem_of_isIdentifier {name : String} (h : isIdentifier name = true) :
    ',' ∉ name.toList :=
  fun hmem => ne_of_mem_identifier h hmem (by decide) rfl

theorem Yields.quoted {name : String} (h : isIdentifier name = true) : Yields (quoted name) [] :=
  Yields.enclosed fun _ hc => isWord_of_mem_identifier h hc

theorem balanced_quoted {name : String} (h : isIdentifier name = true) :
    Balanced (quoted name) := by
  apply Balanced.of_all
  rw [List.all_eq_true]
  intro c hc
  rw [quoted, List.mem_cons, List.mem_append, List.mem_singleton] at hc
  rcases hc with rfl | hc | rfl
  · decide
  · have happostrophe : c ≠ '\'' := ne_of_mem_identifier h hc (by decide)
    have hopening : c ≠ '(' := ne_of_mem_identifier h hc (by decide)
    have hclosing : c ≠ ')' := ne_of_mem_identifier h hc (by decide)
    simp [happostrophe, hopening, hclosing]
  · decide

/-! ## Constraints -/

namespace Constraint

variable {c : Constraint}

theorem IsReadable.name (h : c.IsReadable) : isIdentifier c.name = true := by
  cases c with
  | unique => exact h.1
  | check => exact h.1

theorem IsReadable.yields_body (h : c.IsReadable) : Yields c.body [] := by
  cases c with
  | unique name columns =>
      obtain ⟨-, -, hcolumns⟩ := h
      apply Yields.intercalate_nil (Text.any_isWord_eq_false (by decide))
      rw [List.forall_mem_map]
      exact fun column hcolumn => Yields.quoted (hcolumns column hcolumn)
  | check name expression =>
      obtain ⟨-, hexpression⟩ := h
      exact Yields.of_not_containsWord hexpression.ascii hexpression.word

theorem IsReadable.balanced_body (h : c.IsReadable) : Balanced c.body := by
  cases c with
  | unique name columns =>
      obtain ⟨-, -, hcolumns⟩ := h
      apply Balanced.intercalate (Balanced.of_all (by decide))
      rw [List.forall_mem_map]
      exact fun column hcolumn => balanced_quoted (hcolumns column hcolumn)
  | check name expression => exact h.2.balanced

/-- The text after the heading gives the constraint. -/
theorem IsReadable.constraint?_body (h : c.IsReadable) (rest : List Char) :
    ConstraintScan.constraint? (quoted c.name) c.isUnique (c.body ++ ')' :: rest) = some c := by
  have hbalanced := h.balanced_body
  cases c with
  | unique name columns =>
      obtain ⟨hname, hne, hcolumns⟩ := h
      exact constraint?_quotedList (quote_notMem_of_isIdentifier hname) hne
        (fun column hcolumn => quote_notMem_of_isIdentifier (hcolumns column hcolumn))
        (fun column hcolumn => comma_notMem_of_isIdentifier (hcolumns column hcolumn)) hbalanced
        rest
  | check name expression =>
      have hname := unquote_quoted_eq (quote_notMem_of_isIdentifier h.1)
      have htrim := Text.trim_eq_self h.2.first h.2.last
      have hbody : balancedBody 0 false (expression.toList ++ ')' :: rest) =
          some expression.toList := balancedBody_eq_some_iff.mpr ⟨hbalanced, rest, rfl⟩
      show ConstraintScan.constraint? (quoted name) false (expression.toList ++ ')' :: rest) = _
      simp only [ConstraintScan.constraint?, hbody, Option.map_some, hname, htrim,
        String.ofList_toList, Bool.false_eq_true, if_false]

/-- The search finds a constraint where it is written and goes on after it. -/
theorem IsReadable.yields (h : c.IsReadable) :
    Yields (Dialect.sqlite.constraintDefinition c).toList [c] := by
  have hclosing : Text.isWord ')' = false := Text.isWord_eq_false_of_isMark (by decide)
  intro d rest hd
  -- The search goes on within the body, where it finds nothing more.
  rw [scan_constraintDefinition (toList_ne_nil_of_isIdentifier h.name)
      (quote_notMem_of_isIdentifier h.name),
    h.constraint?_body, h.yields_body ')' _ hclosing,
    ConstraintScan.scan_cons_of_not_isWord hclosing]
  rfl

end Constraint

/-! ## Columns -/

theorem yields_digits (n : Nat) : Yields (toString n).toList [] := by
  apply Yields.of_not_isLetter
  rw [List.any_eq_false]
  intro c hc
  simp [ConstraintScan.isLetter_eq_false_of_isDigit (Text.isDigit_of_mem_toString_nat hc)]

theorem ColumnType.yields_sqlName {type : ColumnType} (h : ∀ declared, type ≠ .custom declared) :
    Yields type.sqlName.toList [] := by
  have hopening : Text.isWord '(' = false := Text.isWord_eq_false_of_isMark (by decide)
  have hcomma : Text.isWord ',' = false := Text.isWord_eq_false_of_isMark (by decide)
  have hclosing : Text.isWord ')' = false := Text.isWord_eq_false_of_isMark (by decide)
  cases type with
  | custom declared => exact absurd rfl (h declared)
  | varchar length =>
      have hshape : (ColumnType.varchar length).sqlName.toList = "VARCHAR".toList ++
          '(' :: ((toString length.toNat).toList ++ ')' :: []) := by
        show ("VARCHAR(" ++ toString length.toNat ++ ")").toList = _
        simp
      rw [hshape]
      exact (Yields.of_not_containsWord (by decide) (by decide)).append hopening
        (((yields_digits _).append hclosing (Yields.nil.cons hclosing)).cons hopening)
  | decimal precision scale =>
      have hshape : (ColumnType.decimal precision scale).sqlName.toList = "DECIMAL".toList ++
          '(' :: ((toString precision.toNat).toList ++
            ',' :: ((toString scale.toNat).toList ++ ')' :: [])) := by
        show ("DECIMAL(" ++ toString precision.toNat ++ "," ++ toString scale.toNat ++
          ")").toList = _
        simp
      have hscale := (yields_digits scale.toNat).append hclosing (Yields.nil.cons hclosing)
      rw [hshape]
      exact (Yields.of_not_containsWord (by decide) (by decide)).append hopening
        (((yields_digits _).append hcomma (hscale.cons hcomma)).cons hopening)
  | integer | bigInt | smallInt | text | boolean | real | double | blob | timestamp | date =>
      exact Yields.of_not_isLetter (by decide)

theorem Default.yields_toSql {value : Default} (h : value.isPlain = true) {sql : String}
    (hsql : value.toSql = some sql) : Yields sql.toList [] := by
  cases value with
  | unset => cases hsql
  | null =>
      obtain rfl := Option.some.inj hsql
      exact Yields.of_not_isLetter (by decide)
  | bool value =>
      obtain rfl := Option.some.inj hsql
      cases value <;> exact Yields.of_not_isLetter (by decide)
  | integer value =>
      obtain rfl := Option.some.inj hsql
      apply Yields.of_not_isLetter
      rw [List.any_eq_false]
      intro c hc
      rcases Text.isDigit_or_eq_minus_of_mem_toString hc with hc | rfl
      · simp [ConstraintScan.isLetter_eq_false_of_isDigit hc]
      · decide
  | float | string | expression => cases h

theorem Column.IsReadable.yields {column : Column} (h : column.IsReadable) :
    Yields (Dialect.sqlite.columnDefinition column).toList [] := by
  obtain ⟨restriction, hrestriction, hshape⟩ := Dialect.exists_columnDefinition_eq column
  have hnames : ∀ text ∈ [Dialect.sqlite.quote column.name, column.type.sqlName],
      Yields text.toList [] := by
    rw [List.forall_mem_cons, List.forall_mem_singleton, toList_quote]
    exact ⟨Yields.quoted h.name, ColumnType.yields_sqlName h.type⟩
  have hdefault : ∀ text ∈ (column.default.toSql.map ("DEFAULT " ++ ·)).toList,
      Yields text.toList [] := by
    cases hsql : column.default.toSql with
    | none => exact List.forall_mem_nil _
    | some sql =>
        have hspace : Text.isWord ' ' = false := Text.isWord_eq_false_of_isMark (by decide)
        have hliteral : ("DEFAULT " ++ sql).toList = "DEFAULT".toList ++ ' ' :: sql.toList := by
          simp
        rw [Option.map_some, Option.toList_some, List.forall_mem_singleton, hliteral]
        exact (Yields.of_not_isLetter (by decide)).append hspace
          ((Default.yields_toSql h.default hsql).cons hspace)
  have hdefinition : Dialect.sqlite.columnDefinition column = _ := hshape .sqlite column.default
  rw [hdefinition, String.toList_intercalate]
  apply Yields.intercalate_nil (Text.any_isWord_eq_false (by decide))
  rw [List.forall_mem_map]
  refine List.forall_mem_append.mpr ⟨List.forall_mem_append.mpr ⟨hnames, ?_⟩, hdefault⟩
  intro text htext
  rcases hrestriction text htext with rfl | rfl
  · exact Yields.of_not_isLetter (by decide)
  · exact Yields.of_not_isLetter (by decide)

/-! ## Tables -/

theorem yields_parts {schema : Table} (h : schema.IsReadable) :
    Yields (",\n  ".intercalate (schema.columns.map Dialect.sqlite.columnDefinition ++
      schema.constraints.map Dialect.sqlite.constraintDefinition)).toList schema.constraints := by
  let columns := schema.columns.map fun c =>
    ((Dialect.sqlite.columnDefinition c).toList, ([] : List Constraint))
  let constraints := schema.constraints.map fun c =>
    ((Dialect.sqlite.constraintDefinition c).toList, [c])
  have hpieces : ∀ piece ∈ columns ++ constraints, Yields piece.1 piece.2 := by
    intro piece hpiece
    rcases List.mem_append.mp hpiece with hpiece | hpiece
    · obtain ⟨column, hcolumn, rfl⟩ := List.mem_map.mp hpiece
      exact (h.columns column hcolumn).yields
    · obtain ⟨constraint, hconstraint, rfl⟩ := List.mem_map.mp hpiece
      exact (h.constraints constraint hconstraint).yields
  have hseparator : [',', '\n', ' ', ' '].any Text.isWord = false :=
    Text.any_isWord_eq_false (by decide)
  have hyields := Yields.intercalate hseparator hpieces
  have hfound : ((columns ++ constraints).flatMap fun piece => piece.2) = schema.constraints := by
    simp [columns, constraints, List.flatMap_map]
  rw [hfound] at hyields
  rw [String.toList_intercalate]
  simpa [columns, constraints, Function.comp_def] using hyields

/-- The statement is the heading of the table, its parts and a closing parenthesis. -/
theorem yields_createTableStatement {schema : Table} (h : schema.IsReadable) :
    ∃ text, (Dialect.sqlite.createTableStatement schema).toList = text ++ '\n' :: [')'] ∧
      Yields text schema.constraints := by
  have hspace : Text.isWord ' ' = false := Text.isWord_eq_false_of_isMark (by decide)
  have hquote : Text.isWord '"' = false := Text.isWord_eq_false_of_isMark (by decide)
  have hopening : " (\n  ".toList = [' ', '(', '\n', ' ', ' '] := by decide
  have hend : "\n)".toList = ['\n', ')'] := by decide
  let parts := ",\n  ".intercalate (schema.columns.map Dialect.sqlite.columnDefinition ++
    schema.constraints.map Dialect.sqlite.constraintDefinition)
  have hstatement : Dialect.sqlite.createTableStatement schema =
      "CREATE TABLE " ++ Dialect.sqlite.quote schema.name ++ " (\n  " ++ parts ++ "\n)" :=
    Dialect.sqlite.createTableStatement_eq schema
  have hcreate : Yields "CREATE TABLE ".toList [] :=
    Yields.of_not_containsWord (by decide) (by decide)
  have hparts : Yields (' ' :: (['(', '\n', ' ', ' '] ++ parts.toList)) schema.constraints :=
    ((yields_parts h).separated (Text.any_isWord_eq_false (by decide))).cons hspace
  refine ⟨"CREATE TABLE ".toList ++ (quoted schema.name ++
    ' ' :: (['(', '\n', ' ', ' '] ++ parts.toList)), ?_, ?_⟩
  · rw [hstatement]
    simp only [String.toList_append, toList_quote, hopening, hend, List.append_assoc,
      List.cons_append, List.nil_append]
  · exact hcreate.append hquote ((Yields.quoted h.name).append hspace hparts)

/-- The constraints of a table are found in the statement that creates it in SQLite, in
order. -/
theorem scanConstraints_createTableStatement {schema : Table} (h : schema.IsReadable) :
    scanConstraints (Dialect.sqlite.createTableStatement schema) = schema.constraints ∧
      ∀ statements, Dialect.sqlite.render (.createTable schema) = .ok statements →
        ∃ sql indexes, statements = sql :: indexes ∧ scanConstraints sql = schema.constraints := by
  have hnewline : Text.isWord '\n' = false := Text.isWord_eq_false_of_isMark (by decide)
  have hclosing : Text.isWord ')' = false := Text.isWord_eq_false_of_isMark (by decide)
  obtain ⟨text, hshape, hyields⟩ := yields_createTableStatement h
  have hscan : scanConstraints (Dialect.sqlite.createTableStatement schema) =
      schema.constraints := by
    rw [scanConstraints, hshape, hyields '\n' [')'] hnewline,
      ConstraintScan.scan_cons_of_not_isWord hnewline,
      ConstraintScan.scan_cons_of_not_isWord hclosing]
    exact List.append_nil _
  refine ⟨hscan, ?_⟩
  intro statements hstatements
  rw [Dialect.render, Dialect.createTable] at hstatements
  split at hstatements
  · next indexes _ =>
      obtain rfl := Except.ok.inj hstatements
      exact ⟨_, indexes, rfl, hscan⟩
  · cases hstatements

/-- Names that are keywords, a doubled apostrophe and parentheses in strings. -/
theorem scanConstraints_createTableStatement_keyword_names :
    let expression := "length(a) > 0 OR (a = ')''(' AND (constraints <> 'x'))"
    let schema : Table :=
      { name := "constraint"
        columns :=
          [{ name := "CONSTRAINT", type := .varchar 12, primaryKey := true },
           { name := "unique", type := .decimal 10 2, nullable := false, default := .integer (-5) },
           { name := "a", type := .boolean, default := .bool true }]
        constraints :=
          [.unique "constraint" ["CONSTRAINT", "unique"], .check "CHECK" expression] }
    schema.IsReadable ∧
      scanConstraints (Dialect.sqlite.createTableStatement schema) = schema.constraints ∧
      ∀ statements, Dialect.sqlite.render (.createTable schema) = .ok statements →
        ∃ sql indexes, statements = sql :: indexes ∧ scanConstraints sql = schema.constraints := by
  intro expression schema
  have hbalanced : Balanced expression.toList := by
    have hshape : expression.toList = "length".toList ++ '(' :: ("a".toList ++ ')' ::
        (" > 0 OR ".toList ++ '(' :: (("a = ".toList ++ '\'' :: (")".toList ++ '\'' ::
          '\'' :: ("(".toList ++ '\'' :: (" AND ".toList ++ '(' :: (("constraints <> ".toList ++
            '\'' :: ("x".toList ++ '\'' :: [])) ++ ')' :: []))))) ++ ')' :: []))) := by
      decide
    have hinner : Balanced ("constraints <> ".toList ++ '\'' :: ("x".toList ++ '\'' :: [])) :=
      (Balanced.of_all (by decide)).append (Balanced.nil.string (by decide))
    have hstrings : Balanced ('\'' :: (")".toList ++ '\'' :: '\'' :: ("(".toList ++ '\'' ::
        (" AND ".toList ++ '(' :: (("constraints <> ".toList ++
          '\'' :: ("x".toList ++ '\'' :: [])) ++ ')' :: []))))) :=
      (((Balanced.of_all (by decide)).append (hinner.group .nil)).string (by decide)).string
        (by decide)
    rw [hshape]
    exact (Balanced.of_all (by decide)).append ((Balanced.of_all (by decide)).group
      ((Balanced.of_all (by decide)).append
        (((Balanced.of_all (by decide)).append hstrings).group .nil)))
  have hexpression : IsReadableExpression expression :=
    ⟨by decide, by decide, by decide, by decide, hbalanced⟩
  have hcolumns : ∀ column ∈ schema.columns, column.IsReadable := by
    simp only [schema, List.forall_mem_cons]
    exact ⟨⟨by decide, by simp, rfl⟩, ⟨by decide, by simp, rfl⟩,
      ⟨by decide, by simp, rfl⟩, List.forall_mem_nil _⟩
  have hconstraints : ∀ constraint ∈ schema.constraints, constraint.IsReadable := by
    simp only [schema, List.forall_mem_cons]
    exact ⟨⟨by decide, by decide, by decide⟩, ⟨by decide, hexpression⟩,
      List.forall_mem_nil _⟩
  have h : schema.IsReadable := ⟨by decide, hcolumns, hconstraints⟩
  exact ⟨h, scanConstraints_createTableStatement h⟩

end Relational.Schema
