import Relational.Proofs.Query.Resolution

/-!
# The first flaw of a condition

A condition is written exactly if no junction in it is without operands, no list in it is
without values, and all of its columns are named and known; otherwise the error is that of
the first of its nodes with a flaw, whatever stands to the right of it:
`Condition.render_reports_first_flaw`.

The nodes of a condition are taken depth first from left to right.  Each has flaws of its
own, apart from those of its operands.
-/

namespace Relational.Query

/-- What is found first in the lists of several items: it is the first in the list of an
item, and the items before that one have none. -/
theorem head?_flatMap_eq_some_iff {α β : Type} {f : α → List β} {items : List α} {b : β} :
    (items.flatMap f).head? = some b ↔ ∃ before item after, items = before ++ item :: after ∧
      (∀ i ∈ before, f i = []) ∧ (f item).head? = some b := by
  rw [List.head?_flatMap, List.findSome?_eq_some_iff]
  simp only [List.head?_eq_none_iff]
  exact exists₃_congr fun _ _ _ => and_congr_right fun _ => and_comm

/-! ## Names -/

/-- What is wrong with a name in a piece of SQL: it is empty or, given a catalog, it means a
column that the catalog does not know. -/
inductive NameFlaw (resolver : Option Resolver) (fragment : String) : String → Error → Prop where
  | empty : NameFlaw resolver fragment "" (.invalidArgument "empty column name" fragment)
  | unknown {r : Resolver} {name table column : String} (hresolver : resolver = some r)
      (hname : name ≠ "") (hmeans : Means r.table name table column)
      (hunknown : r.catalog.hasColumn table column = false) :
      NameFlaw resolver fragment name (.unknownColumn table column fragment)

theorem Catalog.checkColumn_eq_error_iff {catalog : Catalog} {base name fragment : String}
    {e : Error} :
    catalog.checkColumn base name fragment = .error e ↔
      ∃ table column, Means base name table column ∧ catalog.hasColumn table column = false ∧
        .unknownColumn table column fragment = e := by
  unfold checkColumn
  cases hsplit : splitName base name with
  | mk table column =>
      cases hknown : catalog.hasColumn table column <;> simp [means_iff, hsplit, and_assoc, hknown]

theorem nameFlaw_iff {resolver : Option Resolver} {fragment name : String} {e : Error} :
    NameFlaw resolver fragment name e ↔ checkColumn resolver name fragment = .error e := by
  unfold checkColumn
  constructor
  · rintro (_ | ⟨rfl, hname, hmeans, hunknown⟩)
    · rfl
    · rw [if_neg hname]
      exact Catalog.checkColumn_eq_error_iff.mpr ⟨_, _, hmeans, hunknown, rfl⟩
  · intro h
    -- Only a name that is not empty is looked up, and only in a catalog.
    by_cases hname : name = ""
    · subst hname
      cases h
      exact .empty
    · rw [if_neg hname] at h
      cases resolver with
      | none => cases h
      | some r =>
          obtain ⟨table, column, hmeans, hunknown, rfl⟩ := Catalog.checkColumn_eq_error_iff.mp h
          exact .unknown rfl hname hmeans hunknown

/-- Whether a name is not empty and, given a catalog, resolves. -/
def NameAccepted (resolver : Option Resolver) (name : String) : Prop :=
  name ≠ "" ∧ ∀ r ∈ resolver, r.catalog.Resolves r.table name

theorem nameAccepted_iff {resolver : Option Resolver} {name fragment : String} :
    NameAccepted resolver name ↔ checkColumn resolver name fragment = .ok () := by
  unfold NameAccepted checkColumn
  by_cases hname : name = ""
  · simp [hname]
  · cases resolver with
    | none => simp [hname]
    | some r => simp [hname, Catalog.checkColumn_eq_ok_iff]

namespace Condition

/-! ## Nodes -/

mutual

/-- The nodes of a condition, depth first from left to right. -/
def nodes : Condition → List Condition
  | .junction kind operands => .junction kind operands :: nodesOfList operands
  | .not operand => .not operand :: nodes operand
  | leaf => [leaf]

/-- The nodes of several conditions. -/
def nodesOfList : List Condition → List Condition
  | [] => []
  | c :: cs => nodes c ++ nodesOfList cs

end

/-- The columns that a node names itself, from left to right. -/
def ownColumns : Condition → List String
  | .junction .. => []
  | .not _ => []
  | leaf => leaf.columns

mutual

theorem columns_eq_flatMap : (c : Condition) → c.columns = c.nodes.flatMap ownColumns
  | .compare .. => rfl
  | .compareColumns .. => rfl
  | .isNull .. => rfl
  | .within .. => rfl
  | .like .. => rfl
  | .between .. => rfl
  | .junction kind operands => by
      rw [columns, nodes, List.flatMap_cons, columnsOfList_eq_flatMap operands]
      rfl
  | .not operand => by
      rw [columns, nodes, List.flatMap_cons, columns_eq_flatMap operand]
      rfl

theorem columnsOfList_eq_flatMap :
    (cs : List Condition) → columnsOfList cs = (nodesOfList cs).flatMap ownColumns
  | [] => rfl
  | c :: cs => by
      rw [columnsOfList, nodesOfList, List.flatMap_append, columns_eq_flatMap c,
        columnsOfList_eq_flatMap cs]

end

/-- That a junction has no operands, or a list no values. -/
def emptinessFaults : Condition → List Error
  | .junction kind [] => [.invalidArgument (kind.keyword ++ " without operands") kind.keyword]
  | .within column [] negated =>
      [.invalidArgument "empty IN list" (text (.within column [] negated))]
  | _ => []

theorem emptinessFaults_eq_nil_iff {node : Condition} :
    node.emptinessFaults = [] ↔
      (∀ kind, node ≠ .junction kind []) ∧ ∀ column negated, node ≠ .within column [] negated := by
  fun_cases emptinessFaults node with
  | case1 kind => simp
  | case2 column negated => simp
  | case3 _ hoperands hvalues => exact iff_of_true rfl ⟨hoperands, hvalues⟩

/-- What is wrong with a node itself, apart from its operands. -/
def ownFaults (resolver : Option Resolver) (node : Condition) : List Error :=
  node.emptinessFaults ++ columnFaults resolver node.ownColumns node.text

section

variable {resolver : Option Resolver}

mutual

/-- What is wrong with a condition is what is wrong with its nodes. -/
theorem faults_eq_flatMap :
    (c : Condition) → c.faults resolver = c.nodes.flatMap (ownFaults resolver)
  | .compare .. => (List.append_nil _).symm
  | .compareColumns .. => (List.append_nil _).symm
  | .isNull .. => (List.append_nil _).symm
  -- The fault of an empty list stands before that of its column, on both sides.
  | .within _ [] _ => (List.append_nil _).symm
  | .within _ (_ :: _) _ => (List.append_nil _).symm
  | .like .. => (List.append_nil _).symm
  | .between .. => (List.append_nil _).symm
  | .junction _ [] => rfl
  | .junction kind (c :: cs) => by
      rw [faults, nodes, List.flatMap_cons, faultsOfList_eq_flatMap (c :: cs)]
      rfl
  | .not operand => by
      rw [faults, nodes, List.flatMap_cons, faults_eq_flatMap operand]
      rfl

theorem faultsOfList_eq_flatMap :
    (cs : List Condition) →
      faultsOfList resolver cs = (nodesOfList cs).flatMap (ownFaults resolver)
  | [] => rfl
  | c :: cs => by
      rw [faultsOfList, nodesOfList, List.flatMap_append, faults_eq_flatMap c,
        faultsOfList_eq_flatMap cs]

end

theorem columnFaults_eq_nil_iff {columns : List String} {fragment : String} :
    columnFaults resolver columns fragment = [] ↔ ∀ name ∈ columns, NameAccepted resolver name := by
  simp only [columnFaults, List.flatMap_eq_nil_iff, failures_eq_nil_iff, ← nameAccepted_iff]

theorem ownFaults_eq_nil_iff {node : Condition} :
    node.ownFaults resolver = [] ↔
      (∀ kind, node ≠ .junction kind []) ∧
        (∀ column negated, node ≠ .within column [] negated) ∧
          ∀ name ∈ node.ownColumns, NameAccepted resolver name := by
  rw [ownFaults, List.append_eq_nil_iff, emptinessFaults_eq_nil_iff, columnFaults_eq_nil_iff,
    and_assoc]

theorem faults_eq_nil_iff {c : Condition} :
    c.faults resolver = [] ↔
      (∀ kind, .junction kind [] ∉ c.nodes) ∧
        (∀ column negated, .within column [] negated ∉ c.nodes) ∧
          ∀ name ∈ c.columns, NameAccepted resolver name := by
  simp only [faults_eq_flatMap, columns_eq_flatMap, List.flatMap_eq_nil_iff,
    ownFaults_eq_nil_iff, List.forall_mem_flatMap]
  constructor
  · intro h
    exact ⟨fun kind hmem => (h _ hmem).1 kind rfl,
      fun column negated hmem => (h _ hmem).2.1 column negated rfl,
      fun node hnode => (h node hnode).2.2⟩
  · rintro ⟨hoperands, hvalues, hcolumns⟩ node hnode
    refine ⟨?_, ?_, hcolumns node hnode⟩
    · rintro kind rfl
      exact hoperands kind hnode
    · rintro column negated rfl
      exact hvalues column negated hnode

/-! ## Flaws -/

theorem head?_columnFaults_eq_some_iff {columns : List String} {fragment : String} {e : Error} :
    (columnFaults resolver columns fragment).head? = some e ↔
      ∃ before name after, columns = before ++ name :: after ∧
        (∀ n ∈ before, NameAccepted resolver n) ∧ NameFlaw resolver fragment name e := by
  rw [columnFaults, head?_flatMap_eq_some_iff]
  simp only [failures_eq_nil_iff, ← nameAccepted_iff, head?_failures, nameFlaw_iff]

/-- What is wrong with a node itself, first of all: a junction without operands, a list
without values, or else the first of its columns with a flaw. -/
inductive Flaw (resolver : Option Resolver) : Condition → Error → Prop where
  | noOperands (kind : Junction) :
      Flaw resolver (.junction kind [])
        (.invalidArgument (kind.keyword ++ " without operands") kind.keyword)
  | noValues (column : String) (negated : Bool) :
      Flaw resolver (.within column [] negated)
        (.invalidArgument "empty IN list" (text (.within column [] negated)))
  | column {node : Condition} {before after : List String} {name : String} {e : Error}
      (hvalues : ∀ column negated, node ≠ .within column [] negated)
      (hcolumns : node.ownColumns = before ++ name :: after)
      (hbefore : ∀ n ∈ before, NameAccepted resolver n)
      (hname : NameFlaw resolver node.text name e) : Flaw resolver node e

theorem flaw_iff {node : Condition} {e : Error} :
    node.Flaw resolver e ↔ (node.ownFaults resolver).head? = some e := by
  constructor
  · rintro (kind | ⟨column, negated⟩ | ⟨hvalues, hcolumns, hbefore, hname⟩)
    · rfl
    · rfl
    · -- A node with a column of its own is no junction.
      have hempty : node.emptinessFaults = [] := by
        refine emptinessFaults_eq_nil_iff.mpr ⟨?_, hvalues⟩
        rintro kind rfl
        simp [ownColumns] at hcolumns
      rw [ownFaults, hempty, List.nil_append, head?_columnFaults_eq_some_iff]
      exact ⟨_, _, _, hcolumns, hbefore, hname⟩
  · intro h
    unfold ownFaults at h
    -- What is told of an empty node is its flaw; any other has only flaws of its columns.
    fun_cases emptinessFaults node with
    | case1 kind =>
        cases h
        exact .noOperands kind
    | case2 column negated =>
        cases h
        exact .noValues column negated
    | case3 _ hoperands hvalues =>
        rw [emptinessFaults_eq_nil_iff.mpr ⟨hoperands, hvalues⟩, List.nil_append,
          head?_columnFaults_eq_some_iff] at h
        obtain ⟨before, name, after, hcolumns, hbefore, hname⟩ := h
        exact .column hvalues hcolumns hbefore hname

theorem ownFaults_eq_nil_iff_forall_not_flaw {node : Condition} :
    node.ownFaults resolver = [] ↔ ∀ e, ¬ node.Flaw resolver e := by
  simp only [flaw_iff, ← Option.eq_none_iff_forall_ne_some, List.head?_eq_none_iff]

end

/-- A condition is written exactly if none of its junctions is without operands, none of its
lists is without values, and each of its columns has a name that, given a catalog, resolves.
Otherwise the error is that of the first node with a flaw, whatever comes after that node.
`build` writes it without a catalog and `buildChecked` with one. -/
theorem render_reports_first_flaw (resolver : Option Resolver) (c : Condition) :
    ((∃ statement, c.render resolver = .ok statement) ↔
      (∀ kind, .junction kind [] ∉ c.nodes) ∧
        (∀ column negated, .within column [] negated ∉ c.nodes) ∧
          ∀ name ∈ c.columns, NameAccepted resolver name) ∧
    ∀ e, c.render resolver = .error e ↔
      ∃ before node after, c.nodes = before ++ node :: after ∧
        (∀ n ∈ before, ∀ e', ¬ n.Flaw resolver e') ∧ node.Flaw resolver e := by
  constructor
  · simp only [render_eq, valueUnless_eq_ok_iff, exists_and_left, exists_eq', and_true,
      faults_eq_nil_iff]
  · intro e
    rw [render_eq, valueUnless_eq_error_iff, faults_eq_flatMap, head?_flatMap_eq_some_iff]
    simp only [ownFaults_eq_nil_iff_forall_not_flaw, flaw_iff]

/-- An empty list comes before its column, and both before what is to their right. -/
example :
    build (.all [.isNull "a" false, .not (.within "" [] true), .any []]) =
      .error (.invalidArgument "empty IN list" " NOT IN ()") := by rfl

end Condition

end Relational.Query
