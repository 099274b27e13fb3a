import BuildMatrix.Text.Quoted

/-!
# Conditions

A condition compares operands and joins comparisons with `and` and `or`. An operand is an
attribute, a number, a text or a non-empty list of numbers and texts; this file holds the tree of
a condition and its written form.
-/

namespace BuildMatrix

/-- The comparison operators. -/
inductive CompareOp
  | eq
  | ne
  | lt
  | le
  | gt
  | ge
  | isIn
  | notIn
  deriving DecidableEq, Repr

namespace CompareOp

/-- The written form of an operator. -/
def render : CompareOp → String
  | eq => "=="
  | ne => "!="
  | lt => "<"
  | le => "<="
  | gt => ">"
  | ge => ">="
  | isIn => "in"
  | notIn => "not in"

/-- Whether the operator asks for membership. -/
def isMembership : CompareOp → Bool
  | isIn | notIn => true
  | _ => false

/-- The operators in the order of their definition. -/
def all : List CompareOp :=
  [eq, ne, lt, le, gt, ge, isIn, notIn]

end CompareOp

/-- The words that join two conditions. -/
inductive BoolOp
  | and
  | or
  deriving DecidableEq, Repr

namespace BoolOp

/-- The written form of a joining word. -/
def render : BoolOp → String
  | and => "and"
  | or => "or"

/-- The truth function of a joining word. -/
def apply : BoolOp → Bool → Bool → Bool
  | and => Bool.and
  | or => Bool.or

end BoolOp

/-- A number or a text written out in a condition. -/
inductive Literal
  | int (n : Int)
  | str (s : String)
  deriving DecidableEq, Repr

/-- One side of a comparison. -/
inductive Operand
  | attr (name : String)
  | literal (l : Literal)
  | list (items : List Literal)
  deriving DecidableEq, Repr

/-- A condition. -/
inductive Expr
  | compare (left : Operand) (op : CompareOp) (right : Operand)
  | combine (left : Expr) (op : BoolOp) (right : Expr)
  deriving DecidableEq, Repr

/-- The written form of a number or text. -/
def Literal.render : Literal → String
  | int n => toString n
  | str s => Text.quoted s

/-- The written form of an operand. -/
def Operand.render : Operand → String
  | attr name => name
  | literal l => l.render
  | list items => "[" ++ ", ".intercalate (items.map Literal.render) ++ "]"

namespace Expr

/-- Whether the condition joins two others, so that it needs parentheses inside a third. -/
def isCombine : Expr → Bool
  | compare .. => false
  | combine .. => true

/-- Puts parentheses around the written form of a joined condition. -/
def group (e : Expr) (text : String) : String :=
  if e.isCombine then "(" ++ text ++ ")" else text

/-- The written form of a condition. -/
def render : Expr → String
  | compare left op right => left.render ++ " " ++ op.render ++ " " ++ right.render
  | combine left op right =>
    group left left.render ++ " " ++ op.render ++ " " ++ group right right.render

@[simp] theorem render_compare (l : Operand) (op : CompareOp) (r : Operand) :
    render (compare l op r) = l.render ++ " " ++ op.render ++ " " ++ r.render := rfl

@[simp] theorem render_combine (l : Expr) (op : BoolOp) (r : Expr) :
    render (combine l op r) = group l l.render ++ " " ++ op.render ++ " " ++ group r r.render :=
  rfl

end Expr

end BuildMatrix
