import Relational.Query.Error

/-!
# Indexes

Indexes of tables and their `CREATE INDEX` statements.
-/

namespace Relational.Schema

/-- The kind of an index. -/
inductive IndexKind where
  | nonUnique
  | unique
  | clustered
  deriving DecidableEq

namespace IndexKind

instance : Inhabited IndexKind := ⟨.nonUnique⟩

/-- The word between `CREATE` and `INDEX`. -/
def modifier : IndexKind → String
  | .nonUnique => ""
  | .unique => "UNIQUE"
  | .clustered => "CLUSTERED"

/-- Whether the index excludes repeated keys. -/
def isUnique : IndexKind → Bool
  | .unique => true
  | _ => false

/-- The statement that creates an index.  The places of the modifier and the
name keep their spaces when they are empty. -/
def createStatement (kind : IndexKind) (table : String) (name : Option String)
    (columns : List String) : Except Query.Error String :=
  let head := "CREATE " ++ kind.modifier ++ " INDEX " ++ name.getD "" ++ " ON " ++ table ++ " ("
  if columns = [] then
    .error (.invalidArgument ("index on '" ++ table ++ "' has no columns") (head ++ ")"))
  else .ok (head ++ ", ".intercalate columns ++ ")")

end IndexKind

/-- An index of a table.  One without a name is known by its columns. -/
structure Index where
  name : Option String := none
  kind : IndexKind := .nonUnique
  columns : List String
  deriving DecidableEq

namespace Index

/-- A plain index without a name. -/
def onColumns (columns : List String) : Index := { columns }

/-- The index with a name. -/
def named (index : Index) (name : String) : Index := { index with name := some name }

/-- The index with a kind. -/
def ofKind (index : Index) (kind : IndexKind) : Index := { index with kind }

/-- The name of the index on a table: its own, or one made of the table and the
columns. -/
def effectiveName (index : Index) (table : String) : String :=
  match index.name with
  | some name => name
  | none =>
      (if index.kind.isUnique then "uq" else "idx") ++ "_" ++ table ++ "_" ++
        "_".intercalate index.columns

end Index

end Relational.Schema
