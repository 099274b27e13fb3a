import BuildMatrix.Expr.Token

/-!
# Reading conditions

A statement is read by the grammar

* condition: a group, or two groups joined by `and` or `or`;
* group: a condition in parentheses, or a comparison;
* comparison: an operand, a comparison operator and an operand;
* operand: an attribute name, a number, a text, or a list;
* list: numbers and texts between square brackets, at least one, with commas between them.

One level holds at most one `and` or `or`: `A == 1 and B == 2 or C == 3` is refused and needs
parentheses. Each reader takes the tokens that are left and returns the ones it does not use.
-/

namespace BuildMatrix

/-- What a reader looked for. -/
inductive Expected
  | closingParen
  | comparison
  | operand
  | listItem
  | commaOrBracket
  deriving DecidableEq, Repr

/-- Why a statement is no condition. -/
inductive SyntaxError
  | lexical (e : LexError) (offset : Nat)
  | emptyStatement
  | unexpected (token : Token)
  | chained (token : Token)
  | expected (what : Expected) (found : Option Token)
  deriving DecidableEq, Repr

/-- A refused statement and the reason. -/
structure StatementError where
  stmt : String
  reason : SyntaxError
  deriving DecidableEq, Repr

/-- What a reader looked for, as it is called where another token stands. -/
def Expected.render : Expected → String
  | closingParen => "')'"
  | comparison => "comparison operator"
  | operand | listItem => "operand"
  | commaOrBracket => "',' or ']'"

/-- What a reader looked for, as it is called at the end of the statement. -/
def Expected.renderAtEnd : Expected → String
  | closingParen => "')'"
  | comparison => "comparison operator"
  | operand => "operand"
  | listItem => "list item"
  | commaOrBracket => "']'"

/-- A message about a place in a statement. -/
def atOffset (message : String) (offset : Nat) : String :=
  message ++ " at offset " ++ toString offset

/-- The message of the reason alone. -/
def SyntaxError.message : SyntaxError → String
  | lexical e offset => atOffset e.message offset
  | emptyStatement => "empty statement"
  | unexpected t => atOffset ("unexpected '" ++ t.lexeme.render ++ "'") t.offset
  | chained t => atOffset "more than one 'and'/'or' without parentheses" t.offset
  | expected what (some t) =>
    atOffset ("expected " ++ what.render ++ ", found '" ++ t.lexeme.render ++ "'") t.offset
  | expected what none => "expected " ++ what.renderAtEnd ++ ", found end of statement"

/-- The message with the statement. -/
def StatementError.message (e : StatementError) : String :=
  "Invalid if statement: " ++ e.stmt ++ " (" ++ e.reason.message ++ ")"

namespace Expr

/-- The error of a reader that looked for `what` at the start of `ts`. -/
def failAt {α : Type} (what : Expected) (ts : List Token) : Except SyntaxError (α × List Token) :=
  .error (.expected what ts.head?)

/-- A number or a text; `what` names the place. -/
def readLiteral (what : Expected) : List Token → Except SyntaxError (Literal × List Token)
  | ⟨.int n, _⟩ :: ts => .ok (.int n, ts)
  | ⟨.str s, _⟩ :: ts => .ok (.str s, ts)
  | ts => failAt what ts

/-- The rest of a list after its first item. -/
def readListRest : List Token → Except SyntaxError (List Literal × List Token)
  | ⟨.rightBracket, _⟩ :: ts => .ok ([], ts)
  | ⟨.comma, _⟩ :: ⟨.int n, _⟩ :: ts => do
    let (items, ts) ← readListRest ts
    return (.int n :: items, ts)
  | ⟨.comma, _⟩ :: ⟨.str s, _⟩ :: ts => do
    let (items, ts) ← readListRest ts
    return (.str s :: items, ts)
  | ⟨.comma, _⟩ :: ts => failAt .listItem ts
  | ts => failAt .commaOrBracket ts

/-- One side of a comparison. -/
def readOperand : List Token → Except SyntaxError (Operand × List Token)
  | ⟨.attr name, _⟩ :: ts => .ok (.attr name, ts)
  | ⟨.leftBracket, _⟩ :: ts => do
    let (first, ts) ← readLiteral .listItem ts
    let (items, ts) ← readListRest ts
    return (.list (first :: items), ts)
  | ts => do
    let (l, ts) ← readLiteral .operand ts
    return (.literal l, ts)

/-- A comparison operator. -/
def readOperator : List Token → Except SyntaxError (CompareOp × List Token)
  | ⟨.compare op, _⟩ :: ts => .ok (op, ts)
  | ts => failAt .comparison ts

/-- Two operands with an operator between them. -/
def readComparison (ts : List Token) : Except SyntaxError (Expr × List Token) := do
  let (left, ts) ← readOperand ts
  let (op, ts) ← readOperator ts
  let (right, ts) ← readOperand ts
  return (.compare left op right, ts)

/-- One group or two joined ones, where `group` reads a group. A second joining word after the
second group is an error. -/
def readCondition (group : List Token → Except SyntaxError (Expr × List Token))
    (ts : List Token) : Except SyntaxError (Expr × List Token) := do
  let (left, ts) ← group ts
  match ts with
  | ⟨.combine op, _⟩ :: ts =>
    let (right, ts) ← group ts
    match ts with
    | ⟨.combine again, offset⟩ :: _ => .error (.chained ⟨.combine again, offset⟩)
    | _ => return (.combine left op right, ts)
  | _ => return (left, ts)

/-- A group with at most `depth` parentheses around each of its comparisons. -/
def readGroup : Nat → List Token → Except SyntaxError (Expr × List Token)
  | depth + 1, ⟨.leftParen, _⟩ :: ts => do
    let (inner, ts) ← readCondition (readGroup depth) ts
    match ts with
    | ⟨.rightParen, _⟩ :: ts => return (inner, ts)
    | ts => failAt .closingParen ts
  | _, ts => readComparison ts

/-- The condition that all the tokens together form. A statement of `n` tokens has fewer than `n`
parentheses around a comparison. -/
def ofTokens (ts : List Token) : Except SyntaxError Expr :=
  if ts.isEmpty then .error .emptyStatement
  else do
    let (e, rest) ← readCondition (readGroup ts.length) ts
    match rest with
    | [] => return e
    | t :: _ => .error (.unexpected t)

/-- Reads a statement. -/
def parse (stmt : String) : Except StatementError Expr :=
  match tokenize stmt with
  | .error (e, offset) => .error ⟨stmt, .lexical e offset⟩
  | .ok ts => (ofTokens ts).mapError (StatementError.mk stmt)

end Expr

end BuildMatrix
