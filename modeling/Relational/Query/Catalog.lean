import Relational.Query.Error
import Relational.Text.Split

/-!
# Known tables and columns

The tables and columns that are known when a query is written, and the
resolution of column names against them.
-/

namespace Relational.Query

/-- The known tables with their columns.  Of two entries for one table the first
counts. -/
structure Catalog where
  tables : List (String × List String)

namespace Catalog

/-- The catalog that knows nothing. -/
def empty : Catalog := ⟨[]⟩

/-- Adds a table, in place of one with the same name. -/
def withTable (catalog : Catalog) (name : String) (columns : List String) : Catalog :=
  ⟨(name, columns) :: catalog.tables⟩

/-- The columns of a table, if it is known. -/
def columns? (catalog : Catalog) (table : String) : Option (List String) :=
  catalog.tables.lookup table

/-- Whether a table is known. -/
def hasTable (catalog : Catalog) (table : String) : Bool :=
  (catalog.columns? table).isSome

/-- Whether a table is known with a column. -/
def hasColumn (catalog : Catalog) (table column : String) : Bool :=
  match catalog.columns? table with
  | some columns => columns.contains column
  | none => false

/-- The table and the column that a name means: a name with a dot is read as
table and column around the first dot, any other is a column of `base`. -/
def splitName (base column : String) : String × String :=
  match Text.cut '.' column.toList with
  | some (table, name) => (String.ofList table, String.ofList name)
  | none => (base, column)

theorem splitName_of_no_dot {name : String} (base : String) (h : '.' ∉ name.toList) :
    splitName base name = (base, name) := by
  rw [splitName, Text.cut_eq_none_iff.mpr h]

/-- The first dot is the one behind the table, since the table has none. -/
theorem splitName_append {table : String} (base column : String) (h : '.' ∉ table.toList) :
    splitName base (table ++ "." ++ column) = (table, column) := by
  have hparts : (table ++ "." ++ column).toList = table.toList ++ '.' :: column.toList := by
    simp
  rw [splitName, hparts, Text.cut_append_of_not_mem h]
  simp

theorem exists_append_of_dot {name : String} (h : '.' ∈ name.toList) :
    ∃ table column, name = table ++ "." ++ column ∧ '.' ∉ table.toList := by
  cases hcut : Text.cut '.' name.toList with
  | none => exact absurd h (Text.cut_eq_none_iff.mp hcut)
  | some parts =>
      obtain ⟨hname, htable⟩ := Text.eq_append_of_cut hcut
      refine ⟨String.ofList parts.1, String.ofList parts.2, ?_, by simpa using htable⟩
      apply String.toList_injective
      simp [hname]

/-- Accepts a name that means a known column. -/
def checkColumn (catalog : Catalog) (base column fragment : String) : Except Error Unit :=
  let (table, name) := splitName base column
  if catalog.hasColumn table name then .ok ()
  else .error (.unknownColumn table name fragment)

/-- Whether two catalogs know the same tables with the same sets of columns. -/
def sameAs (a b : Catalog) : Bool :=
  covers a b && covers b a
where
  covers (a b : Catalog) : Bool :=
    a.tables.all fun (table, _) =>
      b.hasTable table &&
        ((a.columns? table).getD []).all fun column => b.hasColumn table column

end Catalog

/-- A catalog together with the table that unqualified names belong to. -/
structure Resolver where
  catalog : Catalog
  table : String

/-- Accepts a column that is named and, given a resolver, known. -/
def checkColumn (resolver : Option Resolver) (column fragment : String) : Except Error Unit :=
  if column = "" then .error (.invalidArgument "empty column name" fragment)
  else
    match resolver with
    | some r => r.catalog.checkColumn r.table column fragment
    | none => .ok ()

end Relational.Query
