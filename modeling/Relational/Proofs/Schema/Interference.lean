import Relational.Proofs.Schema.Beginning
import Relational.Proofs.Schema.Recovery

/-!
# Strings that are taken for constraints

Whether the constraints found in the statement of a table depend on what its strings contain:
`scanConstraints_ignores_strings_iff`.

They do for every table with a string among its default values, since the search does not know
where a string begins and ends.  A string can hold a clause of its own, and behind a few marks that
no beginning of a constraint can be read across, the clause is found whatever stands before it.
Strings without the word that begins a constraint do no harm, if the other text of the columns is
without it as well.
-/

namespace Relational.Schema

open Migration

/-! ## Tables that differ in their strings -/

/-- The default value with an empty string in place of any string. -/
def Default.blank : Default → Default
  | .string _ => .string ""
  | value => value

/-- The column without the string of its default value. -/
def Column.blank (column : Column) : Column := { column with default := column.default.blank }

/-- The table without the strings of its default values. -/
def Table.blank (schema : Table) : Table :=
  { schema with columns := schema.columns.map Column.blank }

theorem Default.eq_of_blank_eq {value other : Default} (h : other.blank = value.blank)
    (hstring : ∀ text, value ≠ .string text) : other = value := by
  cases value with
  | string text => exact absurd rfl (hstring text)
  | _ => cases other <;> first | exact h | cases h

theorem Column.eq_of_blank_eq {column other : Column} (h : other.blank = column.blank)
    (hstring : ∀ text, column.default ≠ .string text) : other = column := by
  obtain ⟨name, type, nullable, primaryKey, default⟩ := column
  obtain ⟨name', type', nullable', primaryKey', default'⟩ := other
  simp only [blank, Column.mk.injEq] at h
  obtain ⟨rfl, rfl, rfl, rfl, hdefault⟩ := h
  rw [Default.eq_of_blank_eq hdefault hstring]

/-- A table without strings is determined by what is left without them. -/
theorem Table.eq_of_blank_eq {schema other : Table} (h : other.blank = schema.blank)
    (hstrings : ∀ column ∈ schema.columns, ∀ text, column.default ≠ .string text) :
    other = schema := by
  obtain ⟨name, columns, indexes, constraints⟩ := schema
  obtain ⟨name', columns', indexes', constraints'⟩ := other
  simp only [blank, Table.mk.injEq] at h
  obtain ⟨rfl, hcolumns, rfl, rfl⟩ := h
  have heq : columns' = columns := by
    induction columns generalizing columns' with
    | nil => simpa using hcolumns
    | cons column columns ih =>
        cases columns' with
        | nil => cases hcolumns
        | cons column' columns' =>
            obtain ⟨hfirst, hrest⟩ := List.cons.inj hcolumns
            rw [List.forall_mem_cons] at hstrings
            rw [Column.eq_of_blank_eq hfirst hstrings.1, ih columns' hrest hstrings.2]
  rw [heq]

/-! ## Marks that nothing is read across -/

/-- The marks that end a name, each with a character after it that cannot follow a name. -/
def closingMarks : List Char := ['"', '.', '\x60', '.', ']', '.']

namespace ConstraintScan

theorem name_append_closingMarks {cs rest name after : List Char} (hname : IsWrittenName name)
    (h : cs ++ '\'' :: (closingMarks ++ rest) = name ++ after) :
    (∃ more, after = more ++ '\'' :: (closingMarks ++ rest)) ∨ ∃ more, after = '.' :: more := by
  cases hname with
  | word hname =>
      have hstop : '\'' ∉ name := fun hmem => absurd (hname '\'' hmem) (by decide)
      obtain ⟨more, -, hafter⟩ := Text.exists_append_of_notMem h hstop
      exact .inl ⟨more, hafter⟩
  | quoted hname =>
      obtain ⟨inner, rfl, hpaired⟩ := hname
      refine (Text.exists_append_of_enclosed (by decide) (by decide) h).imp_right ?_
      rintro ⟨lead, more, rfl, hmarks⟩
      -- The first quote is alone, so it closes the name.
      have hquotes := hpaired.of_append_cons (by decide)
      cases hquotes with
      | nil => exact ⟨_, (List.cons.inj hmarks).2.symm⟩
      | other hne _ => exact absurd (List.cons.inj hmarks).1.symm hne
      | pair _ => exact absurd (List.cons.inj (List.cons.inj hmarks).2).1 (by decide)
  | @marked first last inner hmarks hinner =>
      have hends : first ≠ '\'' ∧ last ≠ '\'' ∧ ∃ before more,
          Text.cut last (closingMarks ++ rest) = some (before, '.' :: more) := by
        simp only [List.mem_cons, List.not_mem_nil, or_false, Prod.mk.injEq] at hmarks
        rcases hmarks with ⟨rfl, rfl⟩ | ⟨rfl, rfl⟩
        · exact ⟨by decide, by decide, _, _, rfl⟩
        · exact ⟨by decide, by decide, _, _, rfl⟩
      obtain ⟨hfirst, hlast, before, marks, hcut⟩ := hends
      refine (Text.exists_append_of_enclosed hfirst hlast h).imp_right ?_
      rintro ⟨lead, more, rfl, hrest⟩
      have hmore : last ∉ more := fun hmem =>
        hinner (List.mem_append_right lead (List.mem_cons_of_mem _ hmem))
      rw [hrest, Text.cut_append_of_not_mem hmore] at hcut
      exact ⟨marks, (Prod.mk.inj (Option.some.inj hcut)).2⟩

/-- What begins before the marks does not reach across them. -/
theorem beginning?_append_closingMarks {cs rest name after : List Char} {unique : Bool}
    (h : beginning? (cs ++ '\'' :: (closingMarks ++ rest)) = some (name, unique, after)) :
    ∃ more, after = more ++ '\'' :: (closingMarks ++ rest) := by
  obtain ⟨lead, kind, hsplit, hname, hfirst, haround⟩ := beginning?_eq_some h
  have hstop : '\'' ∉ lead ++ kind := fun hmem => absurd (haround '\'' hmem) (by decide)
  rw [List.mem_append, not_or] at hstop
  obtain ⟨cs', -, hrest⟩ := Text.exists_append_of_notMem hsplit hstop.1
  rcases name_append_closingMarks hname hrest.symm with ⟨more, hmore⟩ | ⟨more, hmore⟩
  · have hkind : '\'' ∉ kind ++ ['('] := by simpa using hstop.2
    have hopening : more ++ '\'' :: (closingMarks ++ rest) = (kind ++ ['(']) ++ after := by
      simpa using hmore.symm
    obtain ⟨more', -, hafter⟩ := Text.exists_append_of_notMem hopening hkind
    exact ⟨more', hafter⟩
  · -- White space follows a name, and not the character behind a mark.
    cases kind with
    | nil => cases hfirst
    | cons c kind =>
        obtain ⟨rfl, -⟩ := List.cons.inj hmore
        exact absurd (show Text.isBlank '.' = true from hfirst) (by decide)

/-- The search arrives behind the marks, whatever stands before them. -/
theorem exists_scan_append_closingMarks (cs rest : List Char) (inWord : Bool) {read : Nat}
    (hread : read ≤ cs.length) :
    ∃ found, scan inWord read (cs ++ '\'' :: (closingMarks ++ rest)) =
      found ++ scan false 0 rest := by
  induction cs generalizing inWord read with
  | nil =>
      obtain rfl : read = 0 := Nat.le_zero.mp hread
      have hmarks : (['\'', '"', '.', '\x60', '.', ']'].any (isLetter 'C')) = false := by decide
      have hpoint : Text.isWord '.' = false := Text.isWord_eq_false_of_isMark (by decide)
      have hscan := scan_of_not_isLetter hmarks hpoint inWord rest
      rw [scan_cons_of_not_isWord hpoint] at hscan
      exact ⟨[], hscan⟩
  | cons c cs ih =>
      rw [List.cons_append]
      cases read with
      | succ read => exact ih _ (Nat.le_of_succ_le_succ hread)
      | zero =>
          rw [scan]
          split
          · exact ih _ (Nat.zero_le _)
          · next name unique after hbegins =>
              have hstart : beginning? (c :: cs ++ '\'' :: (closingMarks ++ rest)) =
                  some (name, unique, after) := by
                split at hbegins
                · cases hbegins
                · exact hbegins
              obtain ⟨more, rfl⟩ := beginning?_append_closingMarks hstart
              -- So what is read of the beginning ends before the marks.
              have hwithin : (cs ++ '\'' :: (closingMarks ++ rest)).length -
                  (more ++ '\'' :: (closingMarks ++ rest)).length ≤ cs.length := by
                rw [List.length_append, List.length_append]
                omega
              obtain ⟨found, hfound⟩ := ih (Text.isWord c) hwithin
              rw [hfound, ← List.append_assoc]
              exact ⟨_, rfl⟩

end ConstraintScan

/-! ## A clause in a string -/

/-- What stands around a part of a joined text does not depend on the part. -/
theorem exists_intercalate_around (separator : String) (before after : List String) :
    ∃ lead trail, ∀ part,
      separator.intercalate (before ++ part :: after) = lead ++ part ++ trail := by
  induction before with
  | nil =>
      cases after with
      | nil => exact ⟨"", "", by simp⟩
      | cons next after =>
          refine ⟨"", separator ++ separator.intercalate (next :: after), fun part => ?_⟩
          rw [List.nil_append, String.intercalate_cons_cons, String.empty_append,
            String.append_assoc]
  | cons first before ih =>
      obtain ⟨lead, trail, hjoined⟩ := ih
      refine ⟨first ++ separator ++ lead, trail, fun part => ?_⟩
      rw [List.cons_append, String.intercalate_cons_of_ne_nil (by simp), hjoined]
      simp only [String.append_assoc]

/-- What stands around the literal of a string does not depend on the string. -/
theorem exists_columnDefinition_around (column : Column) :
    ∃ lead trail, ∀ text,
      Dialect.sqlite.columnDefinition (column.withDefault (.string text)) =
        lead ++ Default.stringLiteral text ++ trail := by
  obtain ⟨restriction, -, hshape⟩ := Dialect.exists_columnDefinition_eq column
  obtain ⟨lead, trail, hjoined⟩ := exists_intercalate_around " "
    ([Dialect.sqlite.quote column.name, column.type.sqlName] ++ restriction) []
  refine ⟨lead ++ "DEFAULT ", trail, fun text => ?_⟩
  have hdefinition := hjoined ("DEFAULT " ++ Default.stringLiteral text)
  rw [← String.append_assoc] at hdefinition
  rw [hshape]
  exact hdefinition

/-- The table with another string in one of its columns. -/
def Table.withString (schema : Table) (before : List Column) (column : Column)
    (after : List Column) (text : String) : Table :=
  { schema with columns := before ++ column.withDefault (.string text) :: after }

theorem Table.blank_withString {schema : Table} {before after : List Column} {column : Column}
    {text : String} (hcolumns : schema.columns = before ++ column :: after)
    (hdefault : column.default = .string text) (other : String) :
    (schema.withString before column after other).blank = schema.blank := by
  simp [Table.withString, Table.blank, Column.blank, Column.withDefault, Default.blank, hcolumns,
    hdefault]

theorem exists_createTableStatement_around (schema : Table) (before : List Column)
    (column : Column) (after : List Column) :
    ∃ lead trail, ∀ text,
      Dialect.sqlite.createTableStatement (schema.withString before column after text) =
        lead ++ Default.stringLiteral text ++ trail := by
  obtain ⟨lead, trail, hcolumn⟩ := exists_columnDefinition_around column
  obtain ⟨lead', trail', hjoined⟩ := exists_intercalate_around ",\n  "
    (before.map Dialect.sqlite.columnDefinition) (after.map Dialect.sqlite.columnDefinition ++
      schema.constraints.map Dialect.sqlite.constraintDefinition)
  refine ⟨"CREATE TABLE " ++ Dialect.sqlite.quote schema.name ++ " (\n  " ++ (lead' ++ lead),
    trail ++ (trail' ++ "\n)"), fun text => ?_⟩
  have hparts := hjoined (Dialect.sqlite.columnDefinition (column.withDefault (.string text)))
  rw [Dialect.createTableStatement_eq, Table.withString, List.map_append, List.map_cons,
    List.append_assoc, List.cons_append, hparts, hcolumn]
  simp only [String.append_assoc]

/-- The table with a string from which a clause is read, wherever the string stands. -/
def Table.withClause (schema : Table) (before : List Column) (column : Column)
    (after : List Column) (clause : Constraint) : Table :=
  schema.withString before column after
    (String.ofList (closingMarks ++ (Dialect.sqlite.constraintDefinition clause).toList))

/-- A clause in a string is found, and what is found after it does not depend on the clause. -/
theorem exists_scanConstraints_withClause (schema : Table) (before : List Column)
    (column : Column) (after : List Column) :
    ∃ later, ∀ clause : Constraint, clause.IsReadable →
      '\'' ∉ (Dialect.sqlite.constraintDefinition clause).toList →
        ∃ earlier, scanConstraints (Dialect.sqlite.createTableStatement
          (schema.withClause before column after clause)) = earlier ++ clause :: later := by
  obtain ⟨lead, trail, hstatement⟩ := exists_createTableStatement_around schema before column after
  refine ⟨ConstraintScan.scan false 0 ('\'' :: trail.toList), fun clause hreadable hquote => ?_⟩
  have hmarks : '\'' ∉ closingMarks ++ (Dialect.sqlite.constraintDefinition clause).toList := by
    rw [List.mem_append, not_or]
    exact ⟨by decide, hquote⟩
  obtain ⟨earlier, hearlier⟩ := ConstraintScan.exists_scan_append_closingMarks lead.toList
    ((Dialect.sqlite.constraintDefinition clause).toList ++ '\'' :: trail.toList) false
    (Nat.zero_le _)
  have hword : Text.isWord '\'' = false := Text.isWord_eq_false_of_isMark (by decide)
  rw [hreadable.yields _ _ hword] at hearlier
  refine ⟨earlier, ?_⟩
  rw [scanConstraints, Table.withClause, hstatement, Default.stringLiteral, String.toList_append,
    String.toList_append, String.toList_ofList, String.toList_ofList, Text.double_of_notMem hmarks]
  simpa using hearlier

/-- Strings in the columns of a table decide which constraints are found. -/
theorem exists_scanConstraints_ne {schema : Table} {column : Column} {text : String}
    (hcolumn : column ∈ schema.columns) (hdefault : column.default = .string text) :
    ∃ other : Table, other.blank = schema.blank ∧
      scanConstraints (Dialect.sqlite.createTableStatement other) ≠
        scanConstraints (Dialect.sqlite.createTableStatement schema) := by
  obtain ⟨before, after, hcolumns⟩ := List.append_of_mem hcolumn
  obtain ⟨later, hfound⟩ := exists_scanConstraints_withClause schema before column after
  obtain ⟨earlier, hfirst⟩ := hfound (.unique "u" ["a"])
    ⟨by decide, by decide, by decide⟩ (by decide)
  obtain ⟨earlier', hsecond⟩ := hfound (.unique "v" ["a"])
    ⟨by decide, by decide, by decide⟩ (by decide)
  -- Two clauses are found as two constraints, so one of them is not what the table gives.
  have hdiffer : earlier ++ .unique "u" ["a"] :: later ≠
      earlier' ++ .unique "v" ["a"] :: later := by
    rw [List.append_cons, List.append_cons earlier']
    intro heq
    exact absurd (List.append_inj_right' (List.append_cancel_right heq) rfl) (by decide)
  rw [← hfirst, ← hsecond] at hdiffer
  by_cases hsame : scanConstraints (Dialect.sqlite.createTableStatement
      (schema.withClause before column after (.unique "u" ["a"]))) =
        scanConstraints (Dialect.sqlite.createTableStatement schema)
  · exact ⟨schema.withClause before column after (.unique "v" ["a"]),
      Table.blank_withString hcolumns hdefault _, fun heq => hdiffer (hsame.trans heq.symm)⟩
  · exact ⟨schema.withClause before column after (.unique "u" ["a"]),
      Table.blank_withString hcolumns hdefault _, hsame⟩

/-! ## Strings without the word -/

/-- The statement of a table up to the end of its columns. -/
def Table.columnText (schema : Table) : String :=
  "CREATE TABLE " ++ Dialect.sqlite.quote schema.name ++ " (\n  " ++
    ",\n  ".intercalate (schema.columns.map Dialect.sqlite.columnDefinition)

/-- What stands behind the columns is decided by the constraints, and no word goes on into it. -/
theorem exists_createTableStatement_eq (constraints : List Constraint) :
    ∃ c rest, Text.isWord c = false ∧
      ∀ schema : Table, schema.columns ≠ [] → schema.constraints = constraints →
        (Dialect.sqlite.createTableStatement schema).toList =
          schema.columnText.toList ++ c :: rest := by
  cases constraints with
  | nil =>
      refine ⟨'\n', [')'], Text.isWord_eq_false_of_isMark (by decide), ?_⟩
      intro schema _ hconstraints
      rw [Dialect.createTableStatement_eq, hconstraints, List.map_nil, List.append_nil,
        String.toList_append]
      rfl
  | cons constraint constraints =>
      let later := ",\n  ".intercalate
        ((constraint :: constraints).map Dialect.sqlite.constraintDefinition)
      refine ⟨',', ("\n  " ++ later ++ "\n)").toList, Text.isWord_eq_false_of_isMark (by decide),
        ?_⟩
      intro schema hcolumns hconstraints
      have hwritten : schema.columns.map Dialect.sqlite.columnDefinition ≠ [] := by
        simpa using hcolumns
      unfold Table.columnText
      rw [Dialect.createTableStatement_eq, hconstraints,
        String.intercalate_append_of_ne_nil hwritten (by simp)]
      simp only [String.toList_append, List.append_assoc]
      rfl

/-- Strings do not matter where neither they nor the text around them mention the word that begins
a constraint. -/
theorem scanConstraints_eq_of_not_mentions {schema other : Table}
    (hblank : other.blank = schema.blank)
    (hschema : ConstraintScan.mentions false schema.columnText.toList = false)
    (hother : ConstraintScan.mentions false other.columnText.toList = false) :
    scanConstraints (Dialect.sqlite.createTableStatement other) =
      scanConstraints (Dialect.sqlite.createTableStatement schema) := by
  have hconstraints : other.blank.constraints = schema.blank.constraints := by rw [hblank]
  have hcolumns : other.blank.columns = schema.blank.columns := by rw [hblank]
  by_cases hnone : schema.columns = []
  · rw [Table.eq_of_blank_eq hblank (by simp [hnone])]
  · have hnone' : other.columns ≠ [] := by
      intro hnil
      rw [Table.blank, Table.blank, hnil] at hcolumns
      exact hnone (List.map_eq_nil_iff.mp hcolumns.symm)
    obtain ⟨c, rest, hc, hstatement⟩ := exists_createTableStatement_eq schema.constraints
    rw [scanConstraints, scanConstraints, hstatement other hnone' hconstraints,
      hstatement schema hnone rfl, ConstraintScan.scan_of_not_mentions hc hschema,
      ConstraintScan.scan_of_not_mentions hc hother]

/-- What strings contain never changes which constraints are found exactly if there are no strings.
It does not if no text of the columns mentions the word that begins a constraint. -/
theorem scanConstraints_ignores_strings_iff (schema : Table) :
    ((∀ other : Table, other.blank = schema.blank →
        scanConstraints (Dialect.sqlite.createTableStatement other) =
          scanConstraints (Dialect.sqlite.createTableStatement schema)) ↔
      ∀ column ∈ schema.columns, ∀ text, column.default ≠ .string text) ∧
    ∀ other : Table, other.blank = schema.blank →
      ConstraintScan.mentions false schema.columnText.toList = false →
        ConstraintScan.mentions false other.columnText.toList = false →
          scanConstraints (Dialect.sqlite.createTableStatement other) =
            scanConstraints (Dialect.sqlite.createTableStatement schema) := by
  refine ⟨⟨fun hsame column hcolumn text hdefault => ?_, fun hstrings other hblank => ?_⟩, ?_⟩
  · obtain ⟨other, hblank, hdiffer⟩ := exists_scanConstraints_ne hcolumn hdefault
    exact hdiffer (hsame other hblank)
  · rw [Table.eq_of_blank_eq hblank hstrings]
  · exact fun other hblank hschema hother =>
      scanConstraints_eq_of_not_mentions hblank hschema hother

/-- Strings with other words, parentheses and apostrophes before a check that is found. -/
theorem scanConstraints_ignores_strings_iff_other_words :
    let written (text : String) : Table :=
      { name := "constraint"
        columns := [{ name := "a", type := .text, default := .string text }]
        constraints := [.check "k" "a <> ''"] }
    let schema := written "it's ("
    let other := written "no constraints: unique (a)"
    other.blank = schema.blank ∧
      ConstraintScan.mentions false schema.columnText.toList = false ∧
      ConstraintScan.mentions false other.columnText.toList = false ∧
      scanConstraints (Dialect.sqlite.createTableStatement other) =
        scanConstraints (Dialect.sqlite.createTableStatement schema) := by
  intro written schema other
  have hschema : ConstraintScan.mentions false schema.columnText.toList = false := by
    decide +kernel
  have hother : ConstraintScan.mentions false other.columnText.toList = false := by
    decide +kernel
  exact ⟨rfl, hschema, hother,
    (scanConstraints_ignores_strings_iff schema).2 other rfl hschema hother⟩

/-- A string that reads like a clause is taken for one. -/
theorem scanConstraints_finds_string :
    let written (text : String) : Table :=
      { name := "t", columns := [{ name := "a", type := .text, default := .string text }] }
    (written "CONSTRAINT x UNIQUE (b)").blank = (written "").blank ∧
      scanConstraints (Dialect.sqlite.createTableStatement (written "")) = [] ∧
      scanConstraints (Dialect.sqlite.createTableStatement (written "CONSTRAINT x UNIQUE (b)")) =
        [.unique "x" ["b"]] := by
  decide +kernel

end Relational.Schema
