import BuildMatrix.Text.Number
import Mathlib.Data.Bool.AllAny
import Mathlib.Data.Nat.Digits.Defs
import Mathlib.Tactic.Ring

/-!
# Numbers in a base

A run of digits writes a number in a base of up to sixteen, the most significant digit first. The
letters among the digits may have either case, and there may be zeros in front.

* `Text.placeValue`: the value of a digit by its place among all digits.
* `Text.WritesNat`: whether digits write a number.
* `Text.readNat_of_writesNat`: then this number is read.
-/

namespace BuildMatrix.Text

/-- The digits in the order of their values; those above nine follow a second time in capitals. -/
def digitChars : List Char :=
  "0123456789abcdefABCDEF".toList

/-- The value of a digit by its place among all digits. -/
def placeValue (c : Char) : Nat :=
  if digitChars.idxOf c < 16 then digitChars.idxOf c else digitChars.idxOf c - 6

/-- Whether digits write a number in a base. -/
structure WritesNat (base : Nat) (digits : List Char) (n : Nat) : Prop where
  ne_nil : digits ≠ []
  mem : ∀ c ∈ digits, c ∈ digitChars
  lt : ∀ c ∈ digits, placeValue c < base
  eq : n = Nat.ofDigits base (digits.reverse.map placeValue)

theorem writesNat_iff {base n : Nat} {digits : List Char} :
    WritesNat base digits n ↔ digits ≠ [] ∧
      (digits.all fun c => c ∈ digitChars ∧ placeValue c < base) = true ∧
      n = Nat.ofDigits base (digits.reverse.map placeValue) := by
  rw [List.all_iff_forall_prop]
  exact ⟨fun h => ⟨h.ne_nil, fun c hc => ⟨h.mem c hc, h.lt c hc⟩, h.eq⟩,
    fun ⟨hne, hdigits, heq⟩ => ⟨hne, fun c hc => (hdigits c hc).1, fun c hc => (hdigits c hc).2, heq⟩⟩

instance (base : Nat) (digits : List Char) (n : Nat) : Decidable (WritesNat base digits n) :=
  decidable_of_iff _ writesNat_iff.symm

theorem digitValue_of_mem : ∀ c ∈ digitChars, digitValue c = some (placeValue c) :=
  List.all_iff_forall_prop.mp (by decide)

theorem readDigits_eq_ofDigits {base : Nat} {cs : List Char} (hmem : ∀ c ∈ cs, c ∈ digitChars)
    (hlt : ∀ c ∈ cs, placeValue c < base) (n : Nat) :
    readDigits base n cs =
      some (Nat.ofDigits base (cs.reverse.map placeValue) + base ^ cs.length * n) := by
  induction cs generalizing n with
  | nil => simp [readDigits]
  | cons c cs ih =>
    rw [List.forall_mem_cons] at hmem hlt
    rw [readDigits, digitValue_of_mem c hmem.1]
    simp only [if_pos hlt.1]
    rw [ih hmem.2 hlt.2, List.reverse_cons, List.map_append, List.map_singleton,
      Nat.ofDigits_append, Nat.ofDigits_singleton, List.length_map, List.length_reverse,
      List.length_cons]
    congr 1
    ring

/-- **Numbers in a base.** The number that digits write is read. -/
theorem readNat_of_writesNat {base n : Nat} {digits : List Char} (h : WritesNat base digits n) :
    readNat base digits = some n := by
  obtain ⟨c, cs, hdigits⟩ := List.exists_cons_of_ne_nil h.ne_nil
  have hread := readDigits_eq_ofDigits h.mem h.lt 0
  rw [Nat.mul_zero, Nat.add_zero, ← h.eq] at hread
  rw [hdigits] at hread ⊢
  exact hread

end BuildMatrix.Text
