import BuildMatrix.Proofs.Path.Order
import BuildMatrix.Version
import Mathlib.Data.List.TakeWhile

/-!
# The order of versions

Versions are in a total order, and only a version itself is equal to it in this order. Both come
from the orders of the parts: numbers, identifiers, and lists of identifiers.

* `compareIds`: the common part of the two orders of identifiers.
* `compareParts_eq_compareLex`: identifiers are compared one after the other.
* `Version.order_eq_iff`: equal in the order means equal.
-/

namespace BuildMatrix.Version

/-! ## Identifiers -/

section

variable (numbers : String → String → Ordering)

/-- Numeric identifiers come first, in an order of their own; the others are ordered as texts. -/
def compareIds (a b : String) : Ordering :=
  match isNumeric a, isNumeric b with
  | true, false => .lt
  | false, true => .gt
  | false, false => compare a b
  | true, true => numbers a b

instance [Std.TransCmp numbers] : Std.TransCmp (compareIds numbers) where
  eq_swap {a b} := by
    cases ha : isNumeric a <;> cases hb : isNumeric b <;> simp only [compareIds, ha, hb]
    · exact Std.OrientedCmp.eq_swap
    · rfl
    · rfl
    · exact Std.OrientedCmp.eq_swap
  isLE_trans {a b c} hab hbc := by
    -- either all three are of one kind, or the kinds alone decide
    cases ha : isNumeric a <;> cases hb : isNumeric b <;> cases hc : isNumeric c <;>
      simp only [compareIds, ha, hb, hc] at hab hbc ⊢ <;>
      first | contradiction | rfl | exact Std.TransCmp.isLE_trans hab hbc

instance [Std.LawfulEqCmp numbers] : Std.LawfulEqCmp (compareIds numbers) where
  compare_self {a} := by
    cases ha : isNumeric a <;> simp [compareIds, ha]
  eq_of_compare {a b} h := by
    cases ha : isNumeric a <;> cases hb : isNumeric b <;> simp_all [compareIds]

end

theorem comparePre_eq_compareIds :
    comparePre = compareIds (compareLex (compareOn String.length) compare) :=
  rfl

instance : Std.TransCmp comparePre := by
  rw [comparePre_eq_compareIds]
  infer_instance

instance : Std.LawfulEqCmp comparePre := by
  have : Std.LawfulEqCmp (compareLex (compareOn String.length) compare) :=
    { eq_of_compare := fun {a b} h => by
        rw [compareLex, Ordering.then_eq_eq] at h
        exact Std.LawfulEqCmp.eq_of_compare h.2 }
  rw [comparePre_eq_compareIds]
  infer_instance

/-- An identifier without the zeros in front. -/
def withoutZeros (s : String) : String :=
  String.ofList (s.toList.dropWhile (· = '0'))

/-- The order of numbers in which leading zeros count at last. -/
def compareZeros : String → String → Ordering :=
  compareLex
    (compareLex (compareOn fun s => (withoutZeros s).length) (compareOn withoutZeros))
    (compareOn String.length)

/-- How many zeros there are in front is seen from the length. -/
theorem eq_of_withoutZeros_eq {a b : String} (h : withoutZeros a = withoutZeros b)
    (hlength : a.length = b.length) : a = b := by
  have hdrop : a.toList.dropWhile (· = '0') = b.toList.dropWhile (· = '0') :=
    String.ofList_injective h
  have hzeros (s : String) : s.toList.takeWhile (· = '0') =
      List.replicate (s.toList.takeWhile (· = '0')).length '0' :=
    List.eq_replicate_of_mem fun c hc => by simpa using List.mem_takeWhile_imp hc
  have hsplit (s : String) : s.length =
      (s.toList.takeWhile (· = '0')).length + (s.toList.dropWhile (· = '0')).length := by
    rw [← List.length_append, List.takeWhile_append_dropWhile, String.length_toList]
  have htake : (a.toList.takeWhile (· = '0')).length = (b.toList.takeWhile (· = '0')).length := by
    rw [hsplit a, hsplit b, hdrop] at hlength
    omega
  apply String.toList_injective
  rw [← List.takeWhile_append_dropWhile (p := (· = '0')) (l := a.toList), hzeros a, htake, hdrop,
    ← hzeros b, List.takeWhile_append_dropWhile]

instance : Std.TransCmp compareZeros := by
  rw [compareZeros]
  infer_instance

instance : Std.LawfulEqCmp compareZeros where
  compare_self := by simp [compareZeros, compareLex, compareOn]
  eq_of_compare {a b} h := by
    simp only [compareZeros, compareLex, compareOn, Ordering.then_eq_eq,
      Std.LawfulEqCmp.compare_eq_iff_eq] at h
    exact eq_of_withoutZeros_eq h.1.2 h.2

theorem compareBuild_eq_compareIds : compareBuild = compareIds compareZeros :=
  rfl

instance : Std.TransCmp compareBuild := by
  rw [compareBuild_eq_compareIds]
  infer_instance

instance : Std.LawfulEqCmp compareBuild := by
  rw [compareBuild_eq_compareIds]
  infer_instance

/-! ## Parts -/

/-- Identifiers are compared one after the other. -/
theorem compareParts_eq_compareLex (cmp : String → String → Ordering) :
    compareParts cmp = List.compareLex cmp := by
  funext as bs
  induction as generalizing bs with
  | nil => cases bs <;> rfl
  | cons a as ih =>
    cases bs with
    | nil => rfl
    | cons b bs => rw [compareParts, List.compareLex_cons_cons, ih]

instance (cmp : String → String → Ordering) [Std.TransCmp cmp] :
    Std.TransCmp (compareParts cmp) := by
  rw [compareParts_eq_compareLex]
  infer_instance

instance (cmp : String → String → Ordering) [Std.LawfulEqCmp cmp] :
    Std.LawfulEqCmp (compareParts cmp) := by
  rw [compareParts_eq_compareLex]
  infer_instance

/-- Having no pre-release part is decided upon first. -/
theorem comparePrePart_eq_compareLex :
    comparePrePart = compareLex (compareOn List.isEmpty) (compareParts comparePre) := by
  funext as bs
  cases as <;> cases bs <;> rfl

instance : Std.TransCmp comparePrePart := by
  rw [comparePrePart_eq_compareLex]
  infer_instance

theorem compareParts_eq_iff {cmp : String → String → Ordering} [Std.LawfulEqCmp cmp]
    {as bs : List String} : compareParts cmp as bs = .eq ↔ as = bs :=
  Std.LawfulEqCmp.compare_eq_iff_eq

theorem comparePrePart_eq_iff {as bs : List String} : comparePrePart as bs = .eq ↔ as = bs := by
  rw [comparePrePart_eq_compareLex, compareLex, Ordering.then_eq_eq, compareParts_eq_iff]
  constructor
  · intro h
    exact h.2
  · rintro rfl
    exact ⟨Std.ReflCmp.compare_self, rfl⟩

/-! ## Versions -/

instance : Std.TransCmp fun a b : Version => comparePrePart a.pre b.pre :=
  transCmp_comap pre

instance : Std.TransCmp fun a b : Version => compareParts compareBuild a.build b.build :=
  transCmp_comap build

theorem order_eq_compareLex : order =
    compareLex (compareOn major) (compareLex (compareOn minor) (compareLex (compareOn patch)
      (compareLex (fun a b => comparePrePart a.pre b.pre)
        fun a b => compareParts compareBuild a.build b.build))) :=
  rfl

instance : Std.TransCmp order := by
  rw [order_eq_compareLex]
  infer_instance

/-- **Versions that are equal in the order are the same.** -/
theorem order_eq_iff {a b : Version} : a.order b = .eq ↔ a = b := by
  rw [order, Ordering.then_eq_eq, Ordering.then_eq_eq, Ordering.then_eq_eq, Ordering.then_eq_eq,
    comparePrePart_eq_iff, compareParts_eq_iff, Nat.compare_eq_eq, Nat.compare_eq_eq,
    Nat.compare_eq_eq]
  cases a
  cases b
  simp

end BuildMatrix.Version
