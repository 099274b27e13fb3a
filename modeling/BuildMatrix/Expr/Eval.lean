import BuildMatrix.Environment

/-!
# Evaluating conditions

Both sides of a joining word are evaluated, the left one first, so that an error on either side
is an error of the whole condition.
-/

namespace BuildMatrix

/-- The value that a literal writes. -/
def Literal.value : Literal → Value
  | int n => .int n
  | str s => .str s

/-- The value of an operand. -/
def Operand.value (ctx : Context) : Operand → Value
  | attr name => ctx.lookup name
  | literal l => l.value
  | list items => .list (items.map Literal.value)

namespace Expr

/-- The value of a condition, a truth value. -/
def evaluate (ctx : Context) : Expr → Except EvalError Value
  | compare left op right =>
    ((left.value ctx).compareWith op (right.value ctx)).map Value.bool
  | combine left op right => do
    let l ← evaluate ctx left
    let r ← evaluate ctx right
    return .bool (op.apply l.isTruthy r.isTruthy)

/-- Whether a condition holds. -/
def holds (ctx : Context) (e : Expr) : Except EvalError Bool :=
  (e.evaluate ctx).map Value.isTruthy

end Expr

end BuildMatrix
