import Mathlib.Algebra.Ring.Nat
import Relational.Proofs.Query.Rendering
import Relational.Text.Number

/-!
# Placeholders and parameters

A statement has as many placeholders as it has parameters, and the parameters are
the literals of its joins and of its condition from left to right, provided that no
name has a question mark in it: `Select.placeholders_eq_length_params`.
-/

namespace Relational.Query

/-- The number of placeholders in a text. -/
def placeholders (sql : String) : Nat := sql.toList.count '?'

@[simp] theorem placeholders_append (a b : String) :
    placeholders (a ++ b) = placeholders a + placeholders b := by
  rw [placeholders, String.toList_append, List.count_append]
  rfl

theorem placeholders_eq_zero_iff {sql : String} : placeholders sql = 0 ↔ '?' ∉ sql.toList :=
  List.count_eq_zero

/-- A separator without placeholders adds none. -/
theorem placeholders_intercalate {separator : String} (h : placeholders separator = 0)
    (parts : List String) :
    placeholders (separator.intercalate parts) = (parts.map placeholders).sum := by
  induction parts with
  | nil => rfl
  | cons part parts ih =>
      cases parts with
      | nil => simp
      | cons next rest =>
          rw [String.intercalate_cons_cons, placeholders_append, placeholders_append, ih, h,
            Nat.add_zero, List.map_cons (l := next :: rest), List.sum_cons]

theorem placeholders_intercalate_eq_zero {separator : String} {parts : List String}
    (h : placeholders separator = 0) (hparts : ∀ part ∈ parts, placeholders part = 0) :
    placeholders (separator.intercalate parts) = 0 := by
  have hnone : parts.map placeholders = parts.map fun _ => 0 :=
    List.map_congr_left hparts
  rw [placeholders_intercalate h, hnone, List.map_const', List.sum_replicate_nat, Nat.mul_zero]

/-- The list of a membership test has a placeholder for each value. -/
theorem placeholders_marks (values : List Value) :
    placeholders (", ".intercalate (values.map fun _ => "?")) = values.length := by
  have hone : placeholders "?" = 1 := rfl
  rw [placeholders_intercalate rfl, List.map_const', List.map_replicate, hone,
    List.sum_replicate_nat, Nat.mul_one]

theorem placeholders_toString (i : Int) : placeholders (toString i) = 0 := by
  rw [placeholders_eq_zero_iff]
  intro hmem
  rcases Text.isDigit_or_eq_minus_of_mem_toString hmem with h | h
  · exact absurd h (by decide)
  · exact absurd h (by decide)

theorem placeholders_comparison (op : Comparison) : placeholders op.sql = 0 := by
  cases op <;> rfl

theorem placeholders_junction (kind : Junction) : placeholders kind.keyword = 0 := by
  cases kind <;> rfl

namespace Condition

mutual

/-- A condition has as many placeholders as literals. -/
theorem placeholders_text :
    (c : Condition) → (∀ name ∈ c.columns, placeholders name = 0) →
      placeholders c.text = c.literals.length
  | .compare column op value, h => by
      have hcolumn : placeholders column = 0 := h column (by simp [columns])
      simp only [text, placeholders_append, hcolumn, placeholders_comparison]
      rfl
  | .compareColumns left op right, h => by
      have hleft : placeholders left = 0 := h left (by simp [columns])
      have hright : placeholders right = 0 := h right (by simp [columns])
      simp only [text, placeholders_append, hleft, hright, placeholders_comparison]
      rfl
  | .isNull column negated, h => by
      have hcolumn : placeholders column = 0 := h column (by simp [columns])
      have hkeyword : placeholders (if negated then " IS NOT NULL" else " IS NULL") = 0 := by
        cases negated <;> rfl
      simp only [text, placeholders_append, hcolumn, hkeyword]
      rfl
  | .within column values negated, h => by
      have hcolumn : placeholders column = 0 := h column (by simp [columns])
      have hliterals : (within column values negated).literals.length = values.length := by
        simp [literals, bindings]
      have hkeyword : placeholders (if negated then " NOT IN (" else " IN (") = 0 := by
        cases negated <;> rfl
      simp only [text, placeholders_append, hcolumn, hkeyword, placeholders_marks, hliterals]
      show 0 + 0 + values.length + 0 = values.length
      omega
  | .like column pattern negated, h => by
      have hcolumn : placeholders column = 0 := h column (by simp [columns])
      have hkeyword : placeholders (if negated then " NOT LIKE ?" else " LIKE ?") = 1 := by
        cases negated <;> rfl
      simp only [text, placeholders_append, hcolumn, hkeyword]
      rfl
  | .between column low high, h => by
      have hcolumn : placeholders column = 0 := h column (by simp [columns])
      simp only [text, placeholders_append, hcolumn]
      rfl
  | .junction kind operands, h => by
      have hseparator : placeholders (" " ++ kind.keyword ++ " ") = 0 := by
        simp only [placeholders_append, placeholders_junction]
        rfl
      rw [text, placeholders_intercalate hseparator, literals_junction]
      exact placeholders_enclosedTexts operands h
  | .not operand, h => by
      have hoperand := placeholders_text operand h
      simp only [text, placeholders_append, hoperand]
      show 0 + operand.literals.length + 0 = operand.literals.length
      omega

/-- Several conditions have as many placeholders together as literals. -/
theorem placeholders_enclosedTexts :
    (cs : List Condition) → (∀ name ∈ columnsOfList cs, placeholders name = 0) →
      ((enclosedTexts cs).map placeholders).sum = (literalsOfList cs).length
  | [], _ => rfl
  | c :: cs, h => by
      have hfirst := placeholders_text c fun name hname =>
        h name (List.mem_append_left _ hname)
      have hrest := placeholders_enclosedTexts cs fun name hname =>
        h name (List.mem_append_right _ hname)
      have henclosed : placeholders ("(" ++ c.text ++ ")") = placeholders c.text := by
        simp only [placeholders_append]
        show 0 + placeholders c.text + 0 = placeholders c.text
        omega
      rw [enclosedTexts, List.map_cons, List.sum_cons, hrest, henclosed, hfirst,
        literalsOfList_cons, List.length_append]

end

end Condition

namespace Select

/-- The names that a query is written with: its table, what it returns, the tables
joined to it, and the columns of its conditions and of its order. -/
def names (select : Select) : List String :=
  select.table ::
    ((match select.projection with
      | .all => []
      | .count => []
      | .columns names => names) ++
      select.joins.flatMap (fun join => join.target :: join.on.columns) ++
      (match select.scope.condition with
      | none => []
      | some condition => condition.columns) ++
      match select.scope.order with
      | none => []
      | some order => order.keys.map SortKey.column)

end Select

theorem placeholders_projection {projection : Projection}
    (h : ∀ names, projection = .columns names → ∀ name ∈ names, placeholders name = 0) :
    placeholders projection.text = 0 := by
  cases projection with
  | all => rfl
  | count => rfl
  | columns names => exact placeholders_intercalate_eq_zero rfl (h names rfl)

theorem placeholders_join {join : Join}
    (h : ∀ name ∈ join.target :: join.on.columns, placeholders name = 0) :
    placeholders join.text = join.on.literals.length := by
  have htarget : placeholders join.target = 0 := h join.target List.mem_cons_self
  have hon := join.on.placeholders_text fun name hname => h name (List.mem_cons_of_mem _ hname)
  have hkeyword : placeholders join.kind.keyword = 0 := by
    cases join.kind <;> rfl
  simp only [Join.text, placeholders_append, htarget, hon, hkeyword]
  show 0 + 0 + 0 + 0 + join.on.literals.length = join.on.literals.length
  omega

theorem placeholders_joinsText {joins : List Join}
    (h : ∀ join ∈ joins, ∀ name ∈ join.target :: join.on.columns, placeholders name = 0) :
    placeholders (joinsText joins) = (joins.flatMap fun join => join.on.literals).length := by
  induction joins with
  | nil => rfl
  | cons join joins ih =>
      have hfirst := placeholders_join (h join List.mem_cons_self)
      have hrest := ih fun j hj => h j (List.mem_cons_of_mem join hj)
      have hsplit : joinsText (join :: joins) = " " ++ join.text ++ joinsText joins := by
        simp [joinsText]
      rw [hsplit, placeholders_append, placeholders_append, hfirst, hrest, List.flatMap_cons,
        List.length_append]
      show 0 + join.on.literals.length + _ = _
      omega

namespace Scope

theorem placeholders_conditionText {scope : Scope}
    (h : ∀ condition, scope.condition = some condition →
      ∀ name ∈ condition.columns, placeholders name = 0) :
    placeholders scope.conditionText = scope.literals.length := by
  unfold conditionText literals
  cases hcondition : scope.condition with
  | none => rfl
  | some condition =>
      simp only [placeholders_append, condition.placeholders_text (h condition hcondition)]
      show 0 + condition.literals.length = condition.literals.length
      omega

theorem placeholders_orderText {scope : Scope}
    (h : ∀ order, scope.order = some order →
      ∀ name ∈ order.keys.map SortKey.column, placeholders name = 0) :
    placeholders scope.orderText = 0 := by
  unfold orderText
  cases horder : scope.order with
  | none => rfl
  | some order =>
      have hkeys : ∀ part ∈ order.keys.map SortKey.sql, placeholders part = 0 := by
        intro part hpart
        obtain ⟨key, hkey, rfl⟩ := List.mem_map.mp hpart
        have hcolumn := h order horder key.column (List.mem_map_of_mem hkey)
        have hdirection : placeholders key.direction.keyword = 0 := by
          cases key.direction <;> rfl
        simp only [SortKey.sql, placeholders_append, hcolumn, hdirection]
        rfl
      have htext : placeholders order.text = 0 := by
        unfold Order.text
        split
        · rfl
        · rw [placeholders_append, placeholders_intercalate_eq_zero rfl hkeys]
          rfl
      show placeholders (if order.text = "" then "" else " " ++ order.text) = 0
      split
      · rfl
      · rw [placeholders_append, htext]
        rfl

theorem placeholders_limitText (scope : Scope) : placeholders scope.limitText = 0 := by
  unfold limitText
  split
  · rfl
  · rw [placeholders_append, placeholders_toString]
    rfl

end Scope

namespace Select

theorem placeholders_text {select : Select}
    (h : ∀ name ∈ select.names, placeholders name = 0) :
    placeholders select.text = select.literals.length := by
  have hprojection : placeholders select.projection.text = 0 := by
    apply placeholders_projection
    intro names hnames name hname
    exact h name (by simp [Select.names, hnames, hname])
  have hjoins : placeholders (joinsText select.joins) =
      (select.joins.flatMap fun join => join.on.literals).length := by
    apply placeholders_joinsText
    intro join hjoin name hname
    have hmem : name ∈ select.joins.flatMap fun join => join.target :: join.on.columns :=
      List.mem_flatMap.mpr ⟨join, hjoin, hname⟩
    exact h name (by simp only [Select.names, List.mem_cons, List.mem_append, hmem]; simp)
  have hcondition : placeholders select.scope.conditionText = select.scope.literals.length := by
    apply Scope.placeholders_conditionText
    intro condition hcondition name hname
    exact h name (by simp [Select.names, hcondition, hname])
  have horder : placeholders select.scope.orderText = 0 := by
    apply Scope.placeholders_orderText
    intro order horder name hname
    exact h name (by simp only [Select.names, horder, List.mem_cons, List.mem_append, hname]; simp)
  have htable : placeholders select.table = 0 := h select.table List.mem_cons_self
  unfold text literals
  simp only [placeholders_append, hprojection, htable, hjoins, hcondition, horder,
    select.scope.placeholders_limitText, List.length_append]
  show 0 + 0 + 0 + 0 + _ + _ + 0 + 0 = _
  omega

/-- A statement has a placeholder for each parameter, and its parameters are the
literals of the joins, in the order in which they were added, and then those of the
condition, each from left to right. -/
theorem placeholders_eq_length_params {select : Select} {statement : Statement}
    (hnames : ∀ name ∈ select.names, '?' ∉ name.toList)
    (h : select.build = .ok statement ∨ ∃ catalog, select.buildChecked catalog = .ok statement) :
    statement.sql.toList.count '?' = statement.params.length ∧
      statement.params = select.literals := by
  have hstatement : select.statement = statement := by
    rcases h with hbuild | ⟨catalog, hbuild⟩
    · rw [build_eq] at hbuild
      exact (valueUnless_eq_ok_iff.mp hbuild).2
    · rw [buildChecked_eq] at hbuild
      exact (valueUnless_eq_ok_iff.mp hbuild).2
  subst hstatement
  constructor
  · exact placeholders_text fun name hname => placeholders_eq_zero_iff.mpr (hnames name hname)
  · rfl

/-- Two joins and a condition with literals of every kind. -/
theorem placeholders_eq_length_params_joins :
    let select : Select :=
      { projection := .columns ["u.name"], table := "users",
        joins := [.inner "orders" (.all [.compareColumns "users.id" .eq "orders.user_id",
            .not (.within "orders.kind" [.int 1, .null, .text "?"] true)]),
          .leftOuter "refunds" (.like "refunds.note" "%?%" false)],
        scope := ⟨some (.any [.between "age" (.int 18) (.int 65), .isNull "age" false]),
          some (.parse ["-age"]), 10⟩ }
    let statement : Statement :=
      ⟨"SELECT u.name FROM users JOIN orders ON (users.id = orders.user_id) AND " ++
          "(NOT (orders.kind NOT IN (?, ?, ?))) LEFT OUTER JOIN refunds ON " ++
          "refunds.note LIKE ? WHERE (age BETWEEN ? AND ?) OR (age IS NULL) " ++
          "ORDER BY age DESC LIMIT 10",
        [.int 1, .null, .text "?", .text "%?%", .int 18, .int 65]⟩
    ((∀ name ∈ select.names, '?' ∉ name.toList) ∧ select.build = .ok statement) ∧
      statement.sql.toList.count '?' = statement.params.length ∧
      statement.params = select.literals := by
  intro select statement
  have hnames : ∀ name ∈ select.names, '?' ∉ name.toList := by decide
  have hfaults : select.faults none = [] := by decide
  have hstatement : select.statement = statement := by decide +kernel
  have hbuild : select.build = .ok statement := by
    rw [build_eq, hfaults, hstatement, valueUnless_nil]
  exact ⟨⟨hnames, hbuild⟩, placeholders_eq_length_params hnames (Or.inl hbuild)⟩

end Select

end Relational.Query
