import BuildMatrix.Proofs.Text.Lines
import BuildMatrix.Proofs.Text.Number
import BuildMatrix.Version

/-!
# Reading numbers as a version

A text with one to three decimal numbers and dots between them is read as a version, whichever of
the two readers does it. The reader of full versions refuses numbers with superfluous zeros in
front, and texts of one or two numbers; then the other reader takes over.

* `Version.IsNumeral`: decimal digits of a number that fits a word.
* `Version.readNumber_append`, `Text.readUnsigned_of_isNumeral`: how each reader reads such digits.
* `Version.readChars_intercalate`: the reader of full versions refuses, or reads the numbers.
* `Version.readLenient_of_writes`: white space around and letters `v` in front do not matter.
-/

namespace BuildMatrix.Version

variable {digits rest : List Char} {numerals : List (List Char)} {text : String}

/-- Decimal digits of a number that fits a word; there may be zeros in front. -/
structure IsNumeral (digits : List Char) : Prop where
  ne_nil : digits ≠ []
  isDigit : ∀ c ∈ digits, c.isDigit = true
  lt_bound : Nat.ofDigitChars 10 digits 0 < Text.unsignedBound

/-- The version of some numbers, the missing ones being zero. -/
def ofNumbers (numbers : List Nat) : Version :=
  ⟨numbers.getD 0 0, numbers.getD 1 0, numbers.getD 2 0, [], []⟩

/-- The numbers that some digits write. -/
def numbersOf (numerals : List (List Char)) : List Nat :=
  numerals.map fun digits => Nat.ofDigitChars 10 digits 0

/-- Whether a text holds one to three numbers with dots between them, after letters `v` and with
white space around. -/
structure Writes (text : String) (numerals : List (List Char)) : Prop where
  isNumeral : ∀ digits ∈ numerals, IsNumeral digits
  ne_nil : numerals ≠ []
  length_le : numerals.length ≤ 3
  exists_eq : ∃ before marks after : List Char,
    text.toList = before ++ (marks ++ List.intercalate ['.'] numerals) ++ after ∧
      (∀ c ∈ before, Text.isBlank c = true) ∧ (∀ c ∈ marks, c = 'v') ∧
      ∀ c ∈ after, Text.isBlank c = true

/-! ## Single numbers -/

theorem IsNumeral.notMem (h : IsNumeral digits) {c : Char} (hc : c.isDigit = false) :
    c ∉ digits := by
  intro hmem
  exact absurd ((h.isDigit c hmem).symm.trans hc) nofun

theorem IsNumeral.exists_head (h : IsNumeral digits) :
    ∃ c cs, digits = c :: cs ∧ c.isDigit = true := by
  obtain ⟨c, cs, rfl⟩ := List.exists_cons_of_ne_nil h.ne_nil
  exact ⟨c, cs, rfl, h.isDigit c List.mem_cons_self⟩

/-- A number may have zeros in front, of which the reader takes no notice. -/
theorem readUnsigned_of_isNumeral (h : IsNumeral digits) :
    Text.readUnsigned digits = some (Nat.ofDigitChars 10 digits 0) := by
  obtain ⟨c, cs, rfl, hc⟩ := h.exists_head
  have hsign : c ≠ '+' := by
    rintro rfl
    exact absurd hc (by decide)
  have hread : Text.readNat 10 (c :: cs) = some (Nat.ofDigitChars 10 (c :: cs) 0) :=
    Text.readDigits_of_isDigit h.isDigit 0
  rw [Text.readUnsigned]
  · rw [hread, Option.filter_some, decide_eq_true h.lt_bound]
    rfl
  · intro rest heq
    exact hsign (List.cons.inj heq).1

/-- The reader of full versions refuses superfluous zeros. -/
theorem readNumber_append (h : IsNumeral digits) (hrest : ∀ c ∈ rest.head?, c.isDigit = false) :
    readNumber (digits ++ rest) = if 1 < digits.length ∧ digits.head? = some '0' then none
      else some (Nat.ofDigitChars 10 digits 0, rest) := by
  have htake : (digits ++ rest).takeWhile Char.isDigit = digits :=
    Text.takeWhile_append_eq h.isDigit hrest
  have hdrop : (digits ++ rest).dropWhile Char.isDigit = rest :=
    Text.dropWhile_append_eq h.isDigit hrest
  rw [readNumber]
  simp only [htake, hdrop, readUnsigned_of_isNumeral h]
  split
  · rfl
  · rw [List.isEmpty_eq_false_iff.mpr h.ne_nil]
    rfl

/-! ## Numbers with dots between them -/

theorem readNumber_eq_none_or (h : IsNumeral digits)
    (hrest : ∀ c ∈ rest.head?, c.isDigit = false) :
    readNumber (digits ++ rest) = none ∨
      readNumber (digits ++ rest) = some (Nat.ofDigitChars 10 digits 0, rest) := by
  rw [readNumber_append h hrest]
  split
  · exact Or.inl rfl
  · exact Or.inr rfl

theorem readChars_of_none {cs : List Char} (h : readNumber cs = none) : readChars cs = none := by
  rw [readChars, h]
  rfl

/-- The reader of full versions refuses, or it reads the numbers that the digits write. -/
theorem readChars_intercalate (h : ∀ digits ∈ numerals, IsNumeral digits)
    (hne : numerals ≠ []) (hlength : numerals.length ≤ 3) :
    readChars (List.intercalate ['.'] numerals) = none ∨
      readChars (List.intercalate ['.'] numerals) = some (ofNumbers (numbersOf numerals)) := by
  have hdot (cs : List Char) : ∀ c ∈ ('.' :: cs).head?, c.isDigit = false := by simp
  have hnil : ∀ c ∈ ([] : List Char).head?, c.isDigit = false := nofun
  match numerals, hne, hlength with
  | [a], _, _ =>
    have ha := readNumber_eq_none_or (h a (by simp)) hnil
    rw [List.append_nil] at ha
    left
    rw [List.intercalate_singleton]
    rcases ha with ha | ha
    · exact readChars_of_none ha
    · rw [readChars, ha]
      rfl
  | [a, b], _, _ =>
    have ha := readNumber_eq_none_or (h a (by simp)) (hdot b)
    have hb := readNumber_eq_none_or (h b (by simp)) hnil
    rw [List.append_nil] at hb
    left
    rw [List.intercalate_cons_cons, List.intercalate_singleton, List.append_assoc,
      List.singleton_append]
    rcases ha with ha | ha
    · exact readChars_of_none ha
    · rcases hb with hb | hb <;>
        simp only [readChars, ha, hb, readDot, Option.bind_eq_bind, Option.bind_some,
          Option.bind_none]
  | [a, b, c], _, _ =>
    have ha := readNumber_eq_none_or (h a (by simp)) (hdot (b ++ '.' :: c))
    have hb := readNumber_eq_none_or (h b (by simp)) (hdot c)
    have hc := readNumber_eq_none_or (h c (by simp)) hnil
    rw [List.append_nil] at hc
    rw [List.intercalate_cons_cons, List.intercalate_cons_cons, List.intercalate_singleton,
      List.append_assoc, List.append_assoc, List.singleton_append, List.singleton_append]
    rcases ha with ha | ha
    · exact Or.inl (readChars_of_none ha)
    · rcases hb with hb | hb
      · left
        simp only [readChars, ha, hb, readDot, Option.bind_eq_bind, Option.bind_some,
          Option.bind_none]
      · rcases hc with hc | hc
        · left
          simp only [readChars, ha, hb, hc, readDot, Option.bind_eq_bind, Option.bind_some,
            Option.bind_none]
        · right
          simp only [readChars, ha, hb, hc, readDot, Option.bind_eq_bind, Option.bind_some]
          rfl

theorem mapM_readUnsigned (h : ∀ digits ∈ numerals, IsNumeral digits) :
    numerals.mapM Text.readUnsigned = some (numbersOf numerals) := by
  induction numerals with
  | nil => rfl
  | cons digits numerals ih =>
    obtain ⟨hfirst, hrest⟩ := List.forall_mem_cons.mp h
    rw [List.mapM_cons, readUnsigned_of_isNumeral hfirst, ih hrest]
    rfl

/-- The other reader reads any of them. -/
theorem readShort_intercalate (h : ∀ digits ∈ numerals, IsNumeral digits)
    (hne : numerals ≠ []) (hlength : numerals.length ≤ 3) :
    readShort (List.intercalate ['.'] numerals) = some (ofNumbers (numbersOf numerals)) := by
  have hpieces : Text.piecesOf '.' (List.intercalate ['.'] numerals) = numerals :=
    Text.piecesOf_intercalate hne fun digits hdigits => (h digits hdigits).notMem (by decide)
  rw [readShort, hpieces, mapM_readUnsigned h]
  match numerals, hne, hlength with
  | [a], _, _ => rfl
  | [a, b], _, _ => rfl
  | [a, b, c], _, _ => rfl

/-! ## The whole text -/

theorem mem_intercalate (h : ∀ digits ∈ numerals, IsNumeral digits) :
    ∀ c ∈ List.intercalate ['.'] numerals, c = '.' ∨ c.isDigit = true := by
  induction numerals with
  | nil => simp
  | cons digits numerals ih =>
    obtain ⟨hfirst, hrest⟩ := List.forall_mem_cons.mp h
    intro c hc
    cases numerals with
    | nil =>
      rw [List.intercalate_singleton] at hc
      exact Or.inr (hfirst.isDigit c hc)
    | cons next numerals =>
      rw [List.intercalate_cons_cons, List.mem_append, List.mem_append, List.mem_singleton] at hc
      rcases hc with (hc | hc) | hc
      · exact Or.inr (hfirst.isDigit c hc)
      · exact Or.inl hc
      · exact ih hrest c hc

theorem exists_head_intercalate (h : ∀ digits ∈ numerals, IsNumeral digits) (hne : numerals ≠ []) :
    ∃ c cs, List.intercalate ['.'] numerals = c :: cs ∧ c.isDigit = true := by
  obtain ⟨digits, numerals, rfl⟩ := List.exists_cons_of_ne_nil hne
  obtain ⟨c, cs, rfl, hc⟩ := (h digits List.mem_cons_self).exists_head
  cases numerals with
  | nil => exact ⟨c, cs, List.intercalate_singleton .., hc⟩
  | cons next numerals => exact ⟨c, _, by rw [List.intercalate_cons_cons]; rfl, hc⟩

theorem not_isBlank_of_isDigit {c : Char} (h : c.isDigit = true) : Text.isBlank c = false := by
  obtain ⟨hlow, hhigh⟩ := Text.isDigit_iff.mp h
  simp only [Text.isBlank, Bool.or_eq_false_iff, Bool.and_eq_false_iff, decide_eq_false_iff_not,
    beq_eq_false_iff_ne]
  omega

/-- **A text that holds one to three numbers is read as their version.** -/
theorem readLenient_of_writes (h : Writes text numerals) :
    readLenient text = some (ofNumbers (numbersOf numerals)) := by
  obtain ⟨hnumeral, hne, hlength, before, marks, after, htext, hbefore, hmarks, hafter⟩ := h
  obtain ⟨c, cs, hbody, hc⟩ := exists_head_intercalate hnumeral hne
  have hblank : ∀ d ∈ marks ++ List.intercalate ['.'] numerals, Text.isBlank d = false := by
    intro d hd
    rcases List.mem_append.mp hd with hd | hd
    · rw [hmarks d hd]
      decide
    · rcases mem_intercalate hnumeral d hd with rfl | hd
      · decide
      · exact not_isBlank_of_isDigit hd
  have htrim : Text.trimChars text.toList = marks ++ List.intercalate ['.'] numerals := by
    rw [htext]
    refine Text.trimChars_append_append ?_ hbefore hafter
      (fun d hd => hblank d (List.mem_of_mem_head? hd))
      (fun d hd => hblank d (List.mem_of_mem_getLast? hd))
    rw [hbody]
    simp
  have hdrop : (marks ++ List.intercalate ['.'] numerals).dropWhile (· = 'v') =
      List.intercalate ['.'] numerals := by
    refine Text.dropWhile_append_eq (fun d hd => decide_eq_true (hmarks d hd)) fun d hd =>
      decide_eq_false ?_
    rw [hbody, List.head?_cons, Option.mem_some] at hd
    rintro rfl
    rw [hd] at hc
    exact absurd hc (by decide)
  rw [readLenient, htrim]
  simp only [hdrop]
  -- Where the reader of full versions refuses, the other one reads the same numbers.
  rcases readChars_intercalate hnumeral hne hlength with hread | hread
  · rw [hread]
    exact readShort_intercalate hnumeral hne hlength
  · rw [hread]

end BuildMatrix.Version
