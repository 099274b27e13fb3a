import BuildMatrix.Proofs.Text.Alphanum

/-!
# Written numbers are read back

* `Text.readDigits_of_isDigit`: decimal digits are read as the number that they write.
* `Text.readNat_toDigits`: the decimal digits of a number are read as this number.
-/

namespace BuildMatrix.Text

theorem digitValue_of_isDigit {c : Char} (h : c.isDigit = true) :
    digitValue c = some (c.toNat - '0'.toNat) := by
  have hlow : '0' ≤ c := (isDigit_iff.mp h).1
  have hhigh : c ≤ '9' := (isDigit_iff.mp h).2
  rw [digitValue, if_pos ⟨hlow, hhigh⟩]

/-- Decimal digits are read as the number that they write. -/
theorem readDigits_of_isDigit {cs : List Char} (h : ∀ c ∈ cs, c.isDigit = true) (n : Nat) :
    readDigits 10 n cs = some (Nat.ofDigitChars 10 cs n) := by
  induction cs generalizing n with
  | nil => rfl
  | cons c cs ih =>
    have hc := h c List.mem_cons_self
    have hlt : c.toNat - '0'.toNat < 10 := by
      have hrange := isDigit_iff.mp hc
      show c.toNat - 48 < 10
      omega
    rw [readDigits, digitValue_of_isDigit hc, Nat.ofDigitChars_cons]
    simp only [if_pos hlt]
    exact ih (fun d hd => h d (List.mem_cons_of_mem _ hd)) _

/-- Every digit of a number is the digit of a number below the base. -/
theorem exists_digitChar_of_mem_toDigits {b n : Nat} (hb : 1 < b) {c : Char}
    (h : c ∈ Nat.toDigits b n) : ∃ k < b, c = k.digitChar := by
  induction n using Nat.strongRecOn with
  | ind n ih =>
    rw [Nat.toDigits_eq_if hb] at h
    split at h
    · next hlt => exact ⟨n, hlt, List.mem_singleton.mp h⟩
    · next hge =>
      rcases List.mem_append.mp h with h | h
      · exact ih (n / b) (Nat.div_lt_self (by omega) hb) h
      · exact ⟨n % b, Nat.mod_lt _ (by omega), List.mem_singleton.mp h⟩

theorem isDigit_of_mem_toDigits {n : Nat} {c : Char} (h : c ∈ Nat.toDigits 10 n) :
    c.isDigit = true :=
  Nat.isDigit_of_mem_toDigits (by decide) (by decide) h

/-- **Decimal numbers.** The decimal digits of a number are read as this number. -/
theorem readNat_toDigits (n : Nat) : readNat 10 (Nat.toDigits 10 n) = some n := by
  obtain ⟨c, cs, hdigits⟩ := List.exists_cons_of_ne_nil (Nat.toDigits_ne_nil (n := n) (b := 10))
  have hread := readDigits_of_isDigit (fun _ => isDigit_of_mem_toDigits (n := n)) 0
  rw [Nat.ofDigitChars_ten_toDigits] at hread
  rw [hdigits] at hread ⊢
  exact hread

end BuildMatrix.Text
