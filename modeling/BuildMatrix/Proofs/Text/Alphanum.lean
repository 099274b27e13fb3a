import BuildMatrix.Text.Blank
import BuildMatrix.Text.Number

/-!
# Letters and digits of ASCII

* `Text.isAlphanum_iff`: the numbers of letters and digits.
* `Text.isBlank_of_isAlphanum`: letters and digits are no white space.
* `Text.isAlphanum_of_digitValue`: the digits of all bases are letters or digits.
-/

namespace BuildMatrix.Text

variable {c : Char}

theorem le_iff_toNat_le {c d : Char} : c ≤ d ↔ c.toNat ≤ d.toNat :=
  UInt32.le_iff_toNat_le

/-- A character lies between two others if its number does. -/
theorem le_and_le_iff (first last : Char) :
    (first ≤ c ∧ c ≤ last) ↔ first.toNat ≤ c.toNat ∧ c.toNat ≤ last.toNat :=
  and_congr le_iff_toNat_le le_iff_toNat_le

theorem isUpper_iff : c.isUpper = true ↔ 65 ≤ c.toNat ∧ c.toNat ≤ 90 := by
  have h : c.isUpper = true ↔ 'A' ≤ c ∧ c ≤ 'Z' := decide_eq_true_iff
  exact h.trans (le_and_le_iff 'A' 'Z')

theorem isLower_iff : c.isLower = true ↔ 97 ≤ c.toNat ∧ c.toNat ≤ 122 := by
  have h : c.isLower = (decide ('a' ≤ c) && decide (c ≤ 'z')) := rfl
  rw [h, Bool.and_eq_true, decide_eq_true_eq, decide_eq_true_eq]
  exact le_and_le_iff 'a' 'z'

theorem isDigit_iff : c.isDigit = true ↔ 48 ≤ c.toNat ∧ c.toNat ≤ 57 := by
  have h : c.isDigit = (decide ('0' ≤ c) && decide (c ≤ '9')) := rfl
  rw [h, Bool.and_eq_true, decide_eq_true_eq, decide_eq_true_eq]
  exact le_and_le_iff '0' '9'

/-- The numbers of letters and digits. -/
theorem isAlphanum_iff : c.isAlphanum = true ↔
    (65 ≤ c.toNat ∧ c.toNat ≤ 90) ∨ (97 ≤ c.toNat ∧ c.toNat ≤ 122) ∨
      (48 ≤ c.toNat ∧ c.toNat ≤ 57) := by
  have h : c.isAlphanum = (c.isUpper || c.isLower || c.isDigit) := rfl
  rw [h, Bool.or_eq_true, Bool.or_eq_true, isUpper_iff, isLower_iff, isDigit_iff, or_assoc]

/-- Letters and digits are no white space. -/
theorem isBlank_of_isAlphanum (h : c.isAlphanum = true) : isBlank c = false := by
  rw [isAlphanum_iff] at h
  simp only [isBlank, Bool.or_eq_false_iff, Bool.and_eq_false_iff, decide_eq_false_iff_not,
    beq_eq_false_iff_ne]
  omega

/-- The digits of all bases are letters or digits. -/
theorem isAlphanum_of_digitValue (h : (digitValue c).isSome = true) : c.isAlphanum = true := by
  rw [isAlphanum_iff]
  unfold digitValue at h
  simp only [le_iff_toNat_le] at h
  have h0 : '0'.toNat = 48 ∧ '9'.toNat = 57 := ⟨rfl, rfl⟩
  have ha : 'a'.toNat = 97 ∧ 'f'.toNat = 102 := ⟨rfl, rfl⟩
  have hA : 'A'.toNat = 65 ∧ 'F'.toNat = 70 := ⟨rfl, rfl⟩
  rw [h0.1, h0.2, ha.1, ha.2, hA.1, hA.2] at h
  split at h
  · omega
  · split at h
    · omega
    · split at h
      · omega
      · exact absurd h nofun

end BuildMatrix.Text
