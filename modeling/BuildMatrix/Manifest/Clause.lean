import BuildMatrix.Expr.Eval
import BuildMatrix.Expr.Parser
import BuildMatrix.Json

/-!
# Clauses

A clause is a condition of a rule with its statement as written. It may be marked as temporary, and
then it must give a reason. `firstMatch` looks for the first clause that holds; a clause whose
condition has no value ends the search with the error.
-/

namespace BuildMatrix

/-- A condition with its statement, and what its author says about it. -/
structure Clause where
  stmt : String
  expr : Expr
  temporary : Bool := false
  reason : Option String := none
  deriving DecidableEq, Repr

/-- Why a clause is refused. -/
inductive ClauseError
  | statement (e : StatementError)
  | missingReason
  deriving DecidableEq, Repr

/-- The message of an error. -/
def ClauseError.message : ClauseError → String
  | statement e => "Invalid if clause: " ++ e.message
  | missingReason => "Invalid if clause: \"reason\" must be set when \"temporary: true\""

namespace Clause

/-- Reads a clause. An empty reason is no reason. -/
def make (stmt : String) (temporary : Bool) (reason : Option String) :
    Except ClauseError Clause :=
  match Expr.parse stmt with
  | .error e => .error (.statement e)
  | .ok expr =>
    if temporary && (reason.getD "").isEmpty then .error .missingReason
    else .ok ⟨stmt, expr, temporary, reason⟩

/-- Whether the condition holds. -/
def holds (c : Clause) (ctx : Context) : Except EvalError Bool :=
  c.expr.holds ctx

/-- The statement with the author's remarks. -/
def render (c : Clause) : String :=
  let temporary := if c.temporary then " (temporary)" else ""
  let reason := match c.reason with
    | some r => " (reason: " ++ r ++ ")"
    | none => ""
  c.stmt ++ temporary ++ reason

/-- The clause as it enters the digest of a rule. -/
def canonical (c : Clause) : JsonValue :=
  .obj [("if", .str c.stmt), ("reason", .ofOption c.reason), ("temporary", .bool c.temporary)]

/-- The first clause that holds. -/
def firstMatch (ctx : Context) : List Clause → Except EvalError (Option Clause)
  | [] => .ok none
  | c :: cs =>
    match c.holds ctx with
    | .error e => .error e
    | .ok true => .ok (some c)
    | .ok false => firstMatch ctx cs

end Clause

end BuildMatrix
