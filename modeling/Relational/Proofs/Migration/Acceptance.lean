import Relational.Proofs.Migration.Convergence
import Relational.Proofs.Query.Resolution

/-!
# Declarations that are accepted

When a declaration is accepted: `check_eq_ok_iff`.  What can be planned has such a
declaration, so that whatever is said about plans starts from here.

Each check has a `Verdict`, which also says why it rejects what it rejects.  Verdicts are put
together as the checks are, so that acceptance is read off that of the last one.

A column that an index or a unique constraint lists is looked up as in a query, where
the name of its table may stand before it.  Listed in this way a column is accepted,
although the list is then not of columns of the table: `plan_lists_known_columns`.
-/

namespace Relational

namespace Schema

namespace Constraint

/-- The name of a unique constraint. -/
def uniqueName? : Constraint → Option String
  | .unique name _ => some name
  | .check .. => none

/-- Whether a constraint is a check. -/
def isCheck : Constraint → Bool
  | .unique .. => false
  | .check .. => true

end Constraint

namespace Table

/-- The names of the indexes and of the unique constraints, which share one space. -/
def keyNames (t : Table) : List String :=
  t.indexes.map (fun i => i.effectiveName t.name) ++ t.constraints.filterMap (·.uniqueName?)

/-- The columns that the indexes and the unique constraints list. -/
def listedColumns (t : Table) : List String :=
  t.indexes.flatMap Index.columns ++ t.constraints.flatMap Constraint.columns

/-- Whether a listed name means a column of a table: it is the name of a column, or the
name of the table, a dot and the name of a column.  A name with a dot is never read in
the first way, and the part before its first dot has none. -/
def Refers (t : Table) (listed : String) : Prop :=
  ('.' ∉ listed.toList ∧ t.hasColumn listed = true) ∨
    ('.' ∉ t.name.toList ∧ ∃ c ∈ t.columns, listed = t.name ++ "." ++ c.name)

end Table

end Schema

namespace Migration

open Schema

namespace Operation

/-- The columns that the indexes and the unique constraints of an operation list. -/
def listedColumns : Operation → List String
  | .createTable schema => schema.listedColumns
  | .dropTable schema => schema.listedColumns
  | .addColumn .. => []
  | .dropColumn .. => []
  | .createIndex _ index => index.columns
  | .dropIndex _ index => index.columns
  | .addConstraint _ constraint => constraint.columns
  | .dropConstraint _ constraint => constraint.columns

end Operation

namespace Declaration

/-- What is asked of a declaration apart from the columns that it lists. -/
structure WellFormed (declared : Table) : Prop where
  named : declared.name ≠ ""
  inhabited : declared.columns ≠ []
  columnsNamed : ∀ c ∈ declared.columns, c.name ≠ ""
  columnNames : (declared.columns.map Column.name).Nodup
  keyNames : declared.keyNames.Nodup
  constraintsNamed : ∀ k ∈ declared.constraints, k.name ≠ ""
  indexColumns : ∀ i ∈ declared.indexes, i.columns ≠ []
  uniqueColumns : ∀ name columns, .unique name columns ∈ declared.constraints → columns ≠ []

/-- What an accepted declaration satisfies. -/
structure Accepted (declared : Table) : Prop extends WellFormed declared where
  known : ∀ listed ∈ declared.listedColumns, declared.Refers listed

theorem accepted_iff {declared : Table} :
    Accepted declared ↔
      WellFormed declared ∧ ∀ listed ∈ declared.listedColumns, declared.Refers listed :=
  ⟨fun h => ⟨h.toWellFormed, h.known⟩, fun ⟨h, hknown⟩ => ⟨h, hknown⟩⟩

/-! ## Verdicts -/

/-- What a check comes to that asks for a condition and for some listed columns to be known.
It accepts if both hold.  It names the first listed column that is not known, or it rejects an
argument if the condition fails, and where both are at fault it may do either. -/
inductive Verdict (declared : Table) (condition : Prop) (columns : List String) :
    Except Query.Error Unit → Prop
  | accepted (holds : condition) (known : ∀ listed ∈ columns, declared.Refers listed) :
      Verdict declared condition columns (.ok ())
  | unknown (before after : List String) (listed fragment : String)
      (split : columns = before ++ listed :: after)
      (known : ∀ l ∈ before, declared.Refers l) (first : ¬ declared.Refers listed) :
      Verdict declared condition columns
        (.error (.unknownColumn (Query.Catalog.splitName declared.name listed).1
          (Query.Catalog.splitName declared.name listed).2 fragment))
  | invalid (message fragment : String) (fails : ¬ condition) :
      Verdict declared condition columns (.error (.invalidArgument message fragment))

namespace Verdict

variable {declared : Table} {P Q : Prop} {columns further : List String}
variable {first second : Except Query.Error Unit}

theorem eq_ok_iff (h : Verdict declared P columns first) :
    first = .ok () ↔ P ∧ ∀ listed ∈ columns, declared.Refers listed := by
  cases h with
  | accepted holds known => exact iff_of_true rfl ⟨holds, known⟩
  | unknown before after listed fragment hsplit known hfirst =>
      refine iff_of_false nofun fun ⟨_, hall⟩ => hfirst (hall listed ?_)
      rw [hsplit]
      exact List.mem_append_cons_self
  | invalid message fragment fails => exact iff_of_false nofun fun ⟨holds, _⟩ => fails holds

theorem congr (h : Verdict declared P columns first) (hcondition : P ↔ Q) :
    Verdict declared Q columns first :=
  propext hcondition ▸ h

/-- One check after another. -/
theorem bind (h : Verdict declared P columns first) (h' : Verdict declared Q further second) :
    Verdict declared (P ∧ Q) (columns ++ further) (first >>= fun _ => second) := by
  cases h with
  | accepted holds known =>
      cases h' with
      | accepted holds' known' =>
          exact accepted ⟨holds, holds'⟩ (List.forall_mem_append.mpr ⟨known, known'⟩)
      | unknown before after listed fragment hsplit known' hfirst =>
          refine unknown (columns ++ before) after listed fragment ?_ ?_ hfirst
          · rw [hsplit, List.append_assoc]
          · exact List.forall_mem_append.mpr ⟨known, known'⟩
      | invalid message fragment fails =>
          exact invalid message fragment fun ⟨_, holds'⟩ => fails holds'
  | unknown before after listed fragment hsplit known hfirst =>
      refine unknown before (after ++ further) listed fragment ?_ known hfirst
      rw [hsplit, List.append_assoc, List.cons_append]
  | invalid message fragment fails =>
      exact invalid message fragment fun ⟨holds, _⟩ => fails holds

/-- The same check of one thing after another. -/
theorem forM {α : Type} {check : α → Except Query.Error Unit} {condition : α → Prop}
    {columnsOf : α → List String}
    (h : ∀ item, Verdict declared (condition item) (columnsOf item) (check item))
    (items : List α) :
    Verdict declared (∀ item ∈ items, condition item) (items.flatMap columnsOf)
      (items.forM check) := by
  induction items with
  | nil => exact accepted (fun _ hitem => (nomatch hitem)) fun _ hlisted => (nomatch hlisted)
  | cons item items ih =>
      rw [List.flatMap_cons]
      exact ((h item).bind ih).congr List.forall_mem_cons.symm

/-- A check that looks at no listed column. -/
theorem of_eq_ok_iff (h : first = .ok () ↔ P)
    (hinvalid : ∀ e, first = .error e → ∃ message fragment, e = .invalidArgument message fragment) :
    Verdict declared P [] first := by
  cases hfirst : first with
  | ok _ => exact accepted (h.mp hfirst) fun _ hlisted => (nomatch hlisted)
  | error e =>
      obtain ⟨message, fragment, rfl⟩ := hinvalid e hfirst
      refine invalid message fragment fun holds => ?_
      rw [h.mpr holds] at hfirst
      cases hfirst

end Verdict

/-! ## Names -/

theorem checkColumnNames_eq_ok_iff {table : String} {seen names : List String} :
    checkColumnNames table seen names = .ok () ↔
      (∀ name ∈ names, name ≠ "" ∧ name ∉ seen) ∧ names.Nodup := by
  induction names generalizing seen with
  | nil => simp [checkColumnNames]
  | cons name names ih =>
      unfold checkColumnNames
      by_cases hempty : name = ""
      · simp [hempty]
      · by_cases hseen : name ∈ seen
        · simp [hempty, hseen]
        · rw [if_neg hempty, if_neg (by simpa using hseen), ih, List.nodup_cons,
            List.forall_mem_cons]
          simp only [List.mem_cons, not_or]
          constructor
          · rintro ⟨hrest, hnodup⟩
            exact ⟨⟨⟨hempty, hseen⟩, fun n hn => ⟨(hrest n hn).1, (hrest n hn).2.2⟩⟩,
              fun hmem => (hrest name hmem).2.1 rfl, hnodup⟩
          · rintro ⟨⟨-, hrest⟩, hnew, hnodup⟩
            exact ⟨fun n hn => ⟨(hrest n hn).1, fun heq => hnew (heq ▸ hn), (hrest n hn).2⟩,
              hnodup⟩

theorem checkColumnNames_eq_error {table : String} {seen names : List String} {e : Query.Error}
    (h : checkColumnNames table seen names = .error e) :
    ∃ message fragment, e = .invalidArgument message fragment := by
  induction names generalizing seen with
  | nil => cases h
  | cons name names ih =>
      unfold checkColumnNames at h
      split at h
      · cases h
        exact ⟨_, _, rfl⟩
      · split at h
        · cases h
          exact ⟨_, _, rfl⟩
        · exact ih h

theorem checkIndexNames_eq_ok_iff {table : String} {seen names : List (String × String)} :
    checkIndexNames table seen names = .ok () ↔
      (∀ entry ∈ names, seen.lookup entry.1 = none) ∧ (names.map Prod.fst).Nodup := by
  induction names generalizing seen with
  | nil => simp [checkIndexNames]
  | cons entry names ih =>
      obtain ⟨name, owner⟩ := entry
      unfold checkIndexNames
      cases hseen : seen.lookup name with
      | some previous =>
          constructor
          · exact fun h => (nomatch h)
          · rintro ⟨hfree, -⟩
            rw [hfree (name, owner) List.mem_cons_self] at hseen
            cases hseen
      | none =>
          rw [ih, List.forall_mem_cons, List.map_cons, List.nodup_cons]
          simp only [List.lookup_cons, hseen, true_and, List.mem_map, not_exists, not_and]
          constructor
          · rintro ⟨hrest, hnodup⟩
            refine ⟨fun e he => ?_, fun e he heq => ?_, hnodup⟩
            · have hfree := hrest e he
              split at hfree
              · cases hfree
              · exact hfree
            · have hfree := hrest e he
              simp [heq] at hfree
          · rintro ⟨hrest, hnew, hnodup⟩
            refine ⟨fun e he => ?_, hnodup⟩
            rw [beq_false_of_ne (hnew e he)]
            exact hrest e he

theorem checkIndexNames_eq_error {table : String} {seen names : List (String × String)}
    {e : Query.Error} (h : checkIndexNames table seen names = .error e) :
    ∃ message fragment, e = .invalidArgument message fragment := by
  induction names generalizing seen with
  | nil => cases h
  | cons entry names ih =>
      unfold checkIndexNames at h
      split at h
      · cases h
        exact ⟨_, _, rfl⟩
      · exact ih h

theorem map_fst_indexNames (declared : Table) :
    (indexNames declared).map Prod.fst = declared.keyNames := by
  rw [indexNames, List.map_append, List.map_map, List.map_filterMap, Table.keyNames]
  congr 2
  funext k
  cases k <;> rfl

/-! ## Listed columns -/

theorem hasColumn_catalog_iff {declared : Table} {table name : String} :
    (catalog declared).hasColumn table name = true ↔
      table = declared.name ∧ declared.hasColumn name = true := by
  by_cases htable : table = declared.name
  · simp [htable, Query.Catalog.hasColumn, Query.Catalog.columns?, catalog,
      Query.Catalog.withTable, Table.hasColumn_eq_true_iff]
  · simp [htable, Query.Catalog.hasColumn, Query.Catalog.columns?, catalog,
      Query.Catalog.withTable, Query.Catalog.empty, List.lookup_cons, beq_false_of_ne htable]

theorem resolves_catalog_iff {declared : Table} {listed : String} :
    (catalog declared).Resolves declared.name listed ↔ declared.Refers listed := by
  simp only [Query.Catalog.Resolves, Table.Refers, hasColumn_catalog_iff,
    Table.hasColumn_eq_true_iff, true_and]
  refine or_congr_right ⟨?_, ?_⟩
  · rintro ⟨table, column, hlisted, hdot, rfl, c, hc, rfl⟩
    exact ⟨hdot, c, hc, hlisted⟩
  · rintro ⟨hdot, c, hc, hlisted⟩
    exact ⟨declared.name, c.name, hlisted, hdot, rfl, c, hc, rfl⟩

theorem verdict_checkColumn (declared : Table) (fragment listed : String) :
    Verdict declared True [listed]
      ((catalog declared).checkColumn declared.name listed fragment) := by
  by_cases hlisted : declared.Refers listed
  · rw [Query.Catalog.checkColumn_eq_ok_iff.mpr (resolves_catalog_iff.mpr hlisted)]
    exact .accepted trivial (List.forall_mem_singleton.mpr hlisted)
  · rw [Query.Catalog.checkColumn_of_not_resolves fragment (mt resolves_catalog_iff.mp hlisted)]
    exact .unknown [] [] listed fragment rfl (fun _ h => (nomatch h)) hlisted

theorem verdict_checkColumns (declared : Table) (fragment : String) (columns : List String) :
    Verdict declared True columns (columns.forM fun listed =>
      (catalog declared).checkColumn declared.name listed fragment) := by
  have h := Verdict.forM (verdict_checkColumn declared fragment) columns
  simpa using h

theorem verdict_checkIndex (declared : Table) (index : Index) :
    Verdict declared (index.columns ≠ []) index.columns (checkIndex declared index) := by
  unfold checkIndex IndexKind.createStatement
  by_cases hcolumns : index.columns = []
  · rw [if_pos hcolumns]
    exact .invalid _ _ fun h => h hcolumns
  · rw [if_neg hcolumns]
    exact (verdict_checkColumns declared _ index.columns).congr (iff_of_true trivial hcolumns)

theorem verdict_checkConstraint (declared : Table) (constraint : Constraint) :
    Verdict declared
      (constraint.name ≠ "" ∧ ∀ name columns, constraint = .unique name columns → columns ≠ [])
      constraint.columns (checkConstraint declared constraint) := by
  unfold checkConstraint
  by_cases hname : constraint.name = ""
  · rw [if_pos hname]
    exact .invalid _ _ fun h => h.1 hname
  · rw [if_neg hname]
    cases constraint with
    | check name expression =>
        exact .accepted ⟨hname, nofun⟩ fun _ hlisted => (nomatch hlisted)
    | unique name columns =>
        by_cases hcolumns : columns = []
        · simp only [if_pos hcolumns]
          exact .invalid _ _ fun h => h.2 name columns rfl hcolumns
        · simp only [if_neg hcolumns]
          refine (verdict_checkColumns declared _ columns).congr (iff_of_true trivial ⟨hname, ?_⟩)
          rintro _ _ ⟨⟩
          exact hcolumns

/-! ## Acceptance -/

/-- What a declaration is checked for.  Its indexes come before its constraints, so that they
do among the listed columns too. -/
theorem verdict_check (declared : Table) :
    Verdict declared (WellFormed declared) declared.listedColumns (check declared) := by
  unfold check
  by_cases hnamed : declared.name = ""
  · rw [if_pos hnamed]
    exact .invalid _ _ fun h => h.named hnamed
  · by_cases hinhabited : declared.columns = []
    · rw [if_neg hnamed, if_pos hinhabited]
      exact .invalid _ _ fun h => h.inhabited hinhabited
    · rw [if_neg hnamed, if_neg hinhabited]
      have hcolumnNames : Verdict declared
          ((∀ name ∈ declared.columns.map Column.name, name ≠ "" ∧ name ∉ []) ∧
            (declared.columns.map Column.name).Nodup) []
          (checkColumnNames declared.name [] (declared.columns.map Column.name)) :=
        .of_eq_ok_iff checkColumnNames_eq_ok_iff fun _ => checkColumnNames_eq_error
      have hindexNames : Verdict declared
          ((∀ entry ∈ indexNames declared, List.lookup entry.1 [] = none) ∧
            ((indexNames declared).map Prod.fst).Nodup) []
          (checkIndexNames declared.name [] (indexNames declared)) :=
        .of_eq_ok_iff checkIndexNames_eq_ok_iff fun _ => checkIndexNames_eq_error
      have hindexes := Verdict.forM (verdict_checkIndex declared) declared.indexes
      have hconstraints := Verdict.forM (verdict_checkConstraint declared) declared.constraints
      -- The loops run one after another, and their conditions add up.
      refine (hcolumnNames.bind (hindexNames.bind (hindexes.bind hconstraints))).congr ?_
      rw [map_fst_indexNames]
      constructor
      · rintro ⟨⟨hnonempty, hcolumns⟩, ⟨-, hkeys⟩, hindexColumns, hconstraint⟩
        exact ⟨hnamed, hinhabited, fun c hc => (hnonempty c.name (List.mem_map_of_mem hc)).1,
          hcolumns, hkeys, fun k hk => (hconstraint k hk).1, hindexColumns,
          fun name columns hk => (hconstraint _ hk).2 name columns rfl⟩
      · intro h
        refine ⟨⟨?_, h.columnNames⟩, ⟨fun _ _ => rfl, h.keyNames⟩, h.indexColumns, ?_⟩
        · intro name hname
          obtain ⟨c, hc, rfl⟩ := List.mem_map.mp hname
          exact ⟨h.columnsNamed c hc, List.not_mem_nil⟩
        · rintro k hk
          exact ⟨h.constraintsNamed k hk, fun name columns heq =>
            h.uniqueColumns name columns (heq ▸ hk)⟩

/-- The conditions under which a declaration is accepted. -/
theorem check_eq_ok_iff {declared : Table} : check declared = .ok () ↔ Accepted declared :=
  (verdict_check declared).eq_ok_iff.trans accepted_iff.symm

theorem accepted_of_plan {declared : Table} {live : Option Table} {ops : List Operation}
    (h : plan declared live = .ok ops) : Accepted declared :=
  check_eq_ok_iff.mp (check_eq_ok_of_plan h)

/-! ## The operations of a plan -/

/-- The declared columns that a table lacks. -/
def missingColumns (declared live : Table) : List Column :=
  declared.columns.filter fun c => !live.hasColumn c.name

/-- The declared indexes that a table lacks. -/
def missingIndexes (declared live : Table) : List Index :=
  declared.indexes.filter fun i => !hasIndex live i

/-- The declared constraints that a table lacks. -/
def missingConstraints (declared live : Table) : List Constraint :=
  declared.constraints.filter fun k => !hasConstraint live k

theorem mem_missingIndexes_iff {declared live : Table} {index : Index} :
    index ∈ missingIndexes declared live ↔
      index ∈ declared.indexes ∧ hasIndex live index = false := by
  rw [missingIndexes, List.mem_filter, Bool.not_eq_true']

theorem mem_missingConstraints_iff {declared live : Table} {constraint : Constraint} :
    constraint ∈ missingConstraints declared live ↔
      constraint ∈ declared.constraints ∧ hasConstraint live constraint = false := by
  rw [missingConstraints, List.mem_filter, Bool.not_eq_true']

/-- An operation of a plan creates the table or adds a declared column, index or
constraint. -/
theorem mem_plan {declared : Table} {live : Option Table} {ops : List Operation}
    (h : plan declared live = .ok ops) {op : Operation} (hop : op ∈ ops) :
    op = creation declared ∨ (∃ c ∈ declared.columns, op = .addColumn declared.name c) ∨
      (∃ i ∈ declared.indexes, op = .createIndex declared.name (nameIndex declared.name i)) ∨
        ∃ k ∈ declared.constraints, op = .addConstraint declared.name k := by
  have hcheck := check_eq_ok_of_plan h
  cases live with
  | none =>
      rw [plan_none hcheck] at h
      cases h
      exact Or.inl (List.mem_singleton.mp hop)
  | some live =>
      rw [plan_some hcheck, additions_eq] at h
      cases h
      obtain ⟨part, hpart, rfl⟩ := List.mem_map.mp hop
      have hdeclared := (List.mem_filter.mp hpart).1
      simp only [parts, List.mem_append, List.mem_map] at hdeclared
      rcases hdeclared with (⟨c, hc, rfl⟩ | ⟨i, hi, rfl⟩) | ⟨k, hk, rfl⟩
      · exact Or.inr (Or.inl ⟨c, hc, rfl⟩)
      · exact Or.inr (Or.inr (Or.inl ⟨i, hi, rfl⟩))
      · exact Or.inr (Or.inr (Or.inr ⟨k, hk, rfl⟩))

theorem listedColumns_subset_of_mem_plan {declared : Table} {live : Option Table}
    {ops : List Operation} (h : plan declared live = .ok ops) {op : Operation} (hop : op ∈ ops) :
    op.listedColumns ⊆ declared.listedColumns := by
  rcases mem_plan h hop with rfl | ⟨c, -, rfl⟩ | ⟨i, hi, rfl⟩ | ⟨k, hk, rfl⟩
  · -- The names that the indexes are given change none of their columns.
    intro listed hlisted
    simpa [creation, Operation.listedColumns, Table.listedColumns, List.flatMap_map, nameIndex,
      Index.named] using hlisted
  · exact List.nil_subset _
  · exact fun listed hlisted =>
      List.mem_append_left _ (List.mem_flatMap.mpr ⟨i, hi, hlisted⟩)
  · exact fun listed hlisted =>
      List.mem_append_right _ (List.mem_flatMap.mpr ⟨k, hk, hlisted⟩)

end Declaration

open Declaration

/-- The columns that the indexes and unique constraints of a plan list are known: each is
a column of the declared table, or a column of it behind the name of the table and a dot.
They are columns of the table as they are listed if none of the second kind is listed, or
if these are also names of columns. -/
theorem plan_lists_known_columns (declared : Table) (live : Option Table) (ops : List Operation)
    (h : plan declared live = .ok ops) :
    (∀ op ∈ ops, ∀ listed ∈ op.listedColumns, declared.Refers listed) ∧
      ((∀ op ∈ ops, ∀ listed ∈ op.listedColumns, declared.hasColumn listed = true) ↔
        ∀ op ∈ ops, ∀ c ∈ declared.columns, declared.name ++ "." ++ c.name ∈ op.listedColumns →
          declared.hasColumn (declared.name ++ "." ++ c.name) = true) := by
  have hrefers : ∀ op ∈ ops, ∀ listed ∈ op.listedColumns, declared.Refers listed :=
    fun op hop listed hlisted =>
      (accepted_of_plan h).known listed (listedColumns_subset_of_mem_plan h hop hlisted)
  refine ⟨hrefers, fun hall op hop c _ hlisted => hall op hop _ hlisted, ?_⟩
  intro hqualified op hop listed hlisted
  rcases hrefers op hop listed hlisted with ⟨-, hcolumn⟩ | ⟨-, c, hc, rfl⟩
  · exact hcolumn
  · exact hqualified op hop c hc hlisted

/-- A column can have the name by which another one would be known.  An index on it is
then on a column of the table as it is listed. -/
theorem plan_lists_known_columns_named_alike :
    let declared : Table :=
      { name := "t", columns := [.ofType "a" .text, .ofType "t.a" .text],
        indexes := [.onColumns ["t.a"]], constraints := [.unique "u" ["a"]] }
    let live : Table := { name := "t", columns := [.ofType "a" .text] }
    let ops : List Operation :=
      [.addColumn "t" (.ofType "t.a" .text),
        .createIndex "t" ((Index.onColumns ["t.a"]).named "idx_t_t.a"),
        .addConstraint "t" (.unique "u" ["a"])]
    plan declared (some live) = .ok ops ∧
      (∀ op ∈ ops, ∀ listed ∈ op.listedColumns, declared.Refers listed) ∧
      ∀ op ∈ ops, ∀ listed ∈ op.listedColumns, declared.hasColumn listed = true := by
  intro declared live ops
  have hplan : plan declared (some live) = .ok ops := by rfl
  obtain ⟨hrefers, hcolumns⟩ := plan_lists_known_columns declared (some live) ops hplan
  exact ⟨hplan, hrefers, hcolumns.mpr (by decide)⟩

/-- An index on a column behind the name of its table is planned under the name that is
listed, which no column has. -/
theorem plan_lists_qualified_column :
    let declared : Table :=
      { name := "t", columns := [.ofType "a" .text],
        indexes := [(Index.onColumns ["t.a"]).named "n"] }
    plan declared none = .ok [.createTable declared] ∧
      "t.a" ∈ (Operation.createTable declared).listedColumns ∧
      declared.hasColumn "t.a" = false := by
  intro declared
  exact ⟨by rfl, by decide, by decide⟩

end Migration

end Relational
