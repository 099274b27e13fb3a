import BuildMatrix.Expr.Eval
import BuildMatrix.Proofs.Value.Comparison
import BuildMatrix.Proofs.Version.Reading
import Mathlib.Data.Prod.Lex

/-!
# Tests of the SDK version

A comparison of the attribute `IDF_VERSION` with a text of one to three numbers, or with a number,
compares numbers: major ones first, then minor ones, then patches.

* `CompareOp.Relates`: what the comparison operators say in a linear order.
* `Version.order_ofNumbers`: versions are ordered by the numbers that they are made of.
* `Expr.evaluate_version_test`: what a test of the SDK version gives.
-/

namespace BuildMatrix

/-- What an operator says of two members of a linear order; membership operators say nothing. -/
def CompareOp.Relates {α : Type} [LinearOrder α] : CompareOp → α → α → Prop
  | eq, x, y => x = y
  | ne, x, y => x ≠ y
  | lt, x, y => x < y
  | le, x, y => x ≤ y
  | gt, x, y => x > y
  | ge, x, y => x ≥ y
  | isIn, _, _ | notIn, _, _ => False

instance {α : Type} [LinearOrder α] (op : CompareOp) (x y : α) : Decidable (op.Relates x y) :=
  match op with
  | .eq => inferInstanceAs (Decidable (x = y))
  | .ne => inferInstanceAs (Decidable (x ≠ y))
  | .lt => inferInstanceAs (Decidable (x < y))
  | .le => inferInstanceAs (Decidable (x ≤ y))
  | .gt => inferInstanceAs (Decidable (x > y))
  | .ge => inferInstanceAs (Decidable (x ≥ y))
  | .isIn | .notIn => inferInstanceAs (Decidable False)

/-- Some numbers as three, the missing ones being zero, in lexicographic order. -/
def triple (numbers : List Nat) : ℕ ×ₗ ℕ ×ₗ ℕ :=
  toLex (numbers.getD 0 0, toLex (numbers.getD 1 0, numbers.getD 2 0))

variable {op : CompareOp}

namespace Version

theorem order_ofNumbers (ms ns : List Nat) :
    (ofNumbers ms).order (ofNumbers ns) = compare (triple ms) (triple ns) := by
  rw [order, Prod.Lex.compare_def]
  simp [ofNumbers, triple, compareLex, compareOn, comparePrePart, compareParts,
    Prod.Lex.compare_def]

end Version

namespace Value

/-- The answer of an operator by the order is the one in a linear order. -/
theorem holdsOrder_compare {α : Type} [LinearOrder α] (hop : op.isMembership = false) (x y : α) :
    holdsOrder op (compare x y) = decide (op.Relates x y) := by
  rw [Bool.eq_iff_iff, decide_eq_true_iff]
  cases op with
  | eq => rw [holdsOrder, beq_iff_eq, compare_eq_iff_eq, CompareOp.Relates]
  | ne => exact bne_iff_ne.trans (not_congr compare_eq_iff_eq)
  | lt => rw [holdsOrder, beq_iff_eq, compare_lt_iff_lt, CompareOp.Relates]
  | le => rw [holdsOrder, bne_iff_ne, compare_le_iff_le, CompareOp.Relates]
  | gt => rw [holdsOrder, beq_iff_eq, compare_gt_iff_gt, CompareOp.Relates, gt_iff_lt]
  | ge => rw [holdsOrder, bne_iff_ne, compare_ge_iff_ge, CompareOp.Relates]
  | isIn | notIn => exact absurd hop (by decide)

/-- Between versions the order decides. -/
theorem compareSame_version (hop : op.isMembership = false) (v w : Version) :
    compareSame op (version v) (version w) = .ok (holdsOrder op (v.order w)) := by
  have heq : (version v == version w) = (v.order w == .eq) := by
    rw [Bool.eq_iff_iff, beq_iff_eq, beq_iff_eq, Version.order_eq_iff, version.injEq]
  cases op with
  | eq => rw [compareSame, heq, holdsOrder]
  | ne =>
    rw [compareSame, bne, heq]
    rfl
  | lt | le | gt | ge => rfl
  | isIn | notIn => exact absurd hop (by decide)

/-- Next to a version a value is compared as the version that it stands for. -/
theorem compareWith_version {b : Value} {v w : Version} (hop : op.isMembership = false)
    (hb : b.toVersion = some w) :
    compareWith op (version v) b = .ok (holdsOrder op (v.order w)) := by
  rw [compareWith_of_versions hop rfl rfl hb, compareSame_version hop]

end Value

namespace Expr

open Version

variable {ctx : Context} {M m p : Nat}

theorem evaluate_idfVersion (hop : op.isMembership = false)
    (hversion : ctx.env.sdkVersion = ⟨M, m, p, [], []⟩) {right : Operand} {numbers : List Nat}
    (hright : (right.value ctx).toVersion = some (ofNumbers numbers)) :
    (compare (.attr "IDF_VERSION") op right).evaluate ctx =
      .ok (.bool (decide (op.Relates (triple [M, m, p]) (triple numbers)))) := by
  have hleft : (Operand.attr "IDF_VERSION").value ctx = .version (ofNumbers [M, m, p]) :=
    congrArg Value.version hversion
  rw [evaluate, hleft, Value.compareWith_version hop hright, order_ofNumbers,
    Value.holdsOrder_compare hop]
  rfl

/-- **Tests of the SDK version are numeric.** Where the SDK has the version `M.m.p`, comparing
`IDF_VERSION` with a text of one to three numbers, which may have zeros in front, letters `v` before
them and white space around, always has an answer: the one of the lexicographic order of three
numbers, missing ones being zero. A number is compared as a major version. -/
theorem evaluate_version_test (hversion : ctx.env.sdkVersion = ⟨M, m, p, [], []⟩)
    (hop : op.isMembership = false) :
    (∀ text numerals, Writes text numerals →
      (compare (.attr "IDF_VERSION") op (.literal (.str text))).evaluate ctx =
        .ok (.bool (decide (op.Relates (triple [M, m, p]) (triple (numbersOf numerals)))))) ∧
    ∀ n : Nat, (compare (.attr "IDF_VERSION") op (.literal (.int n))).evaluate ctx =
      .ok (.bool (decide (op.Relates (triple [M, m, p]) (triple [n, 0, 0])))) := by
  refine ⟨fun text numerals htext => ?_, fun n => ?_⟩
  · exact evaluate_idfVersion hop hversion (readLenient_of_writes htext)
  · refine evaluate_idfVersion hop hversion ?_
    show (if 0 ≤ (n : Int) then some (⟨(n : Int).toNat, 0, 0, [], []⟩ : Version) else none) = _
    rw [if_pos (Int.natCast_nonneg n), Int.toNat_natCast]
    rfl

/-- A context with the SDK in a version. -/
def sdkContext (M m p : Nat) : Context where
  env := { Environment.ofTargets Targets.builtin with version := some ⟨M, m, p, [], []⟩ }
  target := "esp32"
  configName := ""

theorem evaluate_version_test_sample :
    (compare (.attr "IDF_VERSION") .lt (.literal (.str " vv05.10\n"))).evaluate
        (sdkContext 5 9 2) = .ok (.bool true) ∧
      (compare (.attr "IDF_VERSION") .gt (.literal (.int 5))).evaluate
        (sdkContext 5 9 2) = .ok (.bool true) := by
  have htext : Writes " vv05.10\n" [['0', '5'], ['1', '0']] := by
    refine ⟨?_, by simp, by simp, [' '], ['v', 'v'], ['\n'], by decide, by simp, by simp, by simp⟩
    rw [List.forall_mem_cons, List.forall_mem_singleton]
    exact ⟨⟨by simp, by simp, by decide +kernel⟩, ⟨by simp, by simp, by decide +kernel⟩⟩
  constructor
  · rw [(evaluate_version_test (by rfl) rfl).1 _ _ htext, decide_eq_true (by decide)]
  · exact ((evaluate_version_test (by rfl) rfl).2 5).trans (by rw [decide_eq_true (by decide)])

end Expr

end BuildMatrix
