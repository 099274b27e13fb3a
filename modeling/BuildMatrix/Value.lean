import BuildMatrix.Expr.Basic
import BuildMatrix.Version

/-!
# Values

The values that a condition computes with, their order and the comparison operators on them.
Where a version stands on one side, the other side is read as a version too, except for
membership, where versions are compared as texts.
-/

namespace BuildMatrix

/-- A value of an attribute or of a literal. -/
inductive Value
  | int (n : Int)
  | str (s : String)
  | version (v : Version)
  | bool (b : Bool)
  | list (items : List Value)
  deriving Repr, Inhabited

/-- Why a comparison has no answer. -/
inductive EvalError
  | incomparable (left : Value) (op : CompareOp) (right : Value)
  | noContainer (left right : Value)
  deriving Repr

namespace Value

/-! ## Equality -/

mutual

/-- Whether two values are the same. -/
def same : Value → Value → Bool
  | int a, int b => a == b
  | str a, str b => a == b
  | version a, version b => a == b
  | bool a, bool b => a == b
  | list as, list bs => sameItems as bs
  | _, _ => false

/-- Whether two lists hold the same values. -/
def sameItems : List Value → List Value → Bool
  | [], [] => true
  | a :: as, b :: bs => same a b && sameItems as bs
  | _, _ => false

end

mutual

theorem eq_of_same : ∀ {a b : Value}, same a b = true → a = b
  | int _, int _, h => by simpa [same] using h
  | str _, str _, h => by simpa [same] using h
  | version _, version _, h => by simpa [same] using h
  | bool _, bool _, h => by simpa [same] using h
  | list as, list bs, h => by
    rw [same] at h
    rw [eq_of_sameItems h]
  | int _, str _, h | int _, version _, h | int _, bool _, h | int _, list _, h => by
    simp [same] at h
  | str _, int _, h | str _, version _, h | str _, bool _, h | str _, list _, h => by
    simp [same] at h
  | version _, int _, h | version _, str _, h | version _, bool _, h | version _, list _, h => by
    simp [same] at h
  | bool _, int _, h | bool _, str _, h | bool _, version _, h | bool _, list _, h => by
    simp [same] at h
  | list _, int _, h | list _, str _, h | list _, version _, h | list _, bool _, h => by
    simp [same] at h

theorem eq_of_sameItems : ∀ {as bs : List Value}, sameItems as bs = true → as = bs
  | [], [], _ => rfl
  | a :: as, b :: bs, h => by
    simp only [sameItems, Bool.and_eq_true] at h
    rw [eq_of_same h.1, eq_of_sameItems h.2]
  | [], _ :: _, h | _ :: _, [], h => by simp [sameItems] at h

end

mutual

theorem same_refl : ∀ a : Value, same a a = true
  | int _ | str _ | version _ | bool _ => by simp [same]
  | list as => by simp [same, sameItems_refl as]

theorem sameItems_refl : ∀ as : List Value, sameItems as as = true
  | [] => rfl
  | a :: as => by simp [sameItems, same_refl a, sameItems_refl as]

end

theorem same_iff {a b : Value} : same a b = true ↔ a = b :=
  ⟨eq_of_same, fun h => h ▸ same_refl a⟩

instance : DecidableEq Value := fun _ _ => decidable_of_iff _ same_iff

/-! ## Written form and coercions -/

/-- Whether a value counts as true: zero, the empty text and the empty list do not. -/
def isTruthy : Value → Bool
  | int n => n != 0
  | str s => !s.isEmpty
  | version _ => true
  | bool b => b
  | list items => !items.isEmpty

/-- The name of a value's kind in messages. -/
def kind : Value → String
  | int _ => "int"
  | str _ => "str"
  | version _ => "version"
  | bool _ => "bool"
  | list _ => "list"

mutual

/-- The written form of a value. -/
def render : Value → String
  | int n => toString n
  | str s => Text.quoted s
  | version v => v.render
  | bool b => if b then "true" else "false"
  | list items => "[" ++ ", ".intercalate (renderItems items) ++ "]"

/-- The written forms of the values of a list. -/
def renderItems : List Value → List String
  | [] => []
  | v :: vs => render v :: renderItems vs

end

mutual

/-- The value with every version replaced by its written form. -/
def stringify : Value → Value
  | version v => str v.render
  | list items => list (stringifyItems items)
  | v => v

/-- A list with every version replaced by its written form. -/
def stringifyItems : List Value → List Value
  | [] => []
  | v :: vs => stringify v :: stringifyItems vs

end

/-- The version that a value stands for: a number is a major version, a text is read leniently. -/
def toVersion : Value → Option Version
  | version v => some v
  | int n => if 0 ≤ n then some ⟨n.toNat, 0, 0, [], []⟩ else none
  | str s => Version.readLenient s
  | _ => none

/-- Whether a value is a version itself. -/
def isVersion : Value → Bool
  | version _ => true
  | _ => false

/-! ## Comparison -/

mutual

/-- The order of two values of the same kind; lists are ordered item by item. -/
def order : Value → Value → Option Ordering
  | int a, int b => some (compare a b)
  | str a, str b => some (compare a b)
  | version a, version b => some (a.order b)
  | bool a, bool b => some (compare a b)
  | list as, list bs => orderItems as bs
  | _, _ => none

/-- The order of two lists: the first differing items decide, then the lengths. -/
def orderItems : List Value → List Value → Option Ordering
  | [], [] => some .eq
  | [], _ :: _ => some .lt
  | _ :: _, [] => some .gt
  | a :: as, b :: bs =>
    match order a b with
    | some .eq => orderItems as bs
    | other => other

end

/-- Whether the first value is an item of the second, or a part of it for two texts. -/
def isIn : Value → Value → Except EvalError Bool
  | v, list items => .ok (items.contains v)
  | str part, str s => .ok (Text.occursIn part.toList s.toList)
  | left, right => .error (.noContainer left right)

/-- What an ordering operator says about an order. -/
def holdsOrder : CompareOp → Ordering → Bool
  | .lt, o => o == .lt
  | .le, o => o != .gt
  | .gt, o => o == .gt
  | .ge, o => o != .lt
  | .eq, o => o == .eq
  | _, o => o != .eq

/-- Applies an operator other than membership to two values that need no further coercion. -/
def compareSame (op : CompareOp) (left right : Value) : Except EvalError Bool :=
  match op with
  | .eq => .ok (left == right)
  | .ne => .ok (left != right)
  | _ =>
    match order left right with
    | some o => .ok (holdsOrder op o)
    | none => .error (.incomparable left op right)

/-- Applies an operator. -/
def compareWith (op : CompareOp) (left right : Value) : Except EvalError Bool :=
  let versions := left.isVersion || right.isVersion
  match op with
  | .isIn =>
    if versions then isIn left.stringify right.stringify else isIn left right
  | .notIn =>
    (if versions then isIn left.stringify right.stringify else isIn left right).map not
  | _ =>
    if versions then
      match left.toVersion, right.toVersion with
      | some l, some r => compareSame op (version l) (version r)
      | _, _ => .error (.incomparable left op right)
    else compareSame op left right

end Value

/-- The message of an error. -/
def EvalError.message : EvalError → String
  | incomparable left op right =>
    "Cannot compare " ++ left.render ++ " " ++ op.render ++ " " ++ right.render
  | noContainer left right =>
    "Invalid input: 'in' requires a list or a string on the right, got " ++ left.kind ++ " in " ++
      right.kind

end BuildMatrix
