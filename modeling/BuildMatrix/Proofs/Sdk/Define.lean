import BuildMatrix.Proofs.Text.Alphanum
import BuildMatrix.Proofs.Text.Base
import BuildMatrix.Proofs.Text.Lines
import BuildMatrix.Sdk.Define

/-!
# Capability constants are read back

A line `#define NAME value` is read as its name and its value: a decimal or hexadecimal number with
any number of suffix letters, or a quoted text. The value may stand in parentheses, and a comment
may follow. Each part ends where the next one begins: no suffix letter is a digit, and what follows a
value begins with white space, a parenthesis or a slash.

* `Sdk.WritesValue`: the written forms of values; `Sdk.WritesDefine`: the lines with them.
* `Sdk.readWritten?_of_writesValue`: the value is read, up to what follows it.
* `Sdk.splitDefine?_of_writesDefine`: the parts of a line are found.
* `Sdk.parseDefine_of_writesDefine`: so its constant is read, if a signed word holds it.
-/

namespace BuildMatrix.Sdk

open Text

/-! ## Written forms -/

/-- A name of a constant: a letter, then letters, digits and underscores. -/
def IsConstantName (name : List Char) : Prop :=
  ∃ c cs, name = c :: cs ∧ c.isAlpha = true ∧ ∀ d ∈ cs, d.isAlphanum = true ∨ d = '_'

/-- Letters that may follow a number. -/
def IsSuffix (cs : List Char) : Prop :=
  ∀ c ∈ cs, c ∈ ['U', 'u', 'L', 'l']

/-- The written forms of numbers: decimal with an optional sign, or hexadecimal, with a suffix. -/
inductive WritesInt : List Char → Int → Prop
  | decimal {digits suffix : List Char} {n : Nat} :
    WritesNat 10 digits n → IsSuffix suffix → WritesInt (digits ++ suffix) n
  | negative {digits suffix : List Char} {n : Nat} :
    WritesNat 10 digits n → IsSuffix suffix → WritesInt ('-' :: (digits ++ suffix)) (-n)
  | hex {mark : Char} {digits suffix : List Char} {n : Nat} :
    mark ∈ ['x', 'X'] → WritesNat 16 digits n → IsSuffix suffix →
      WritesInt ('0' :: mark :: (digits ++ suffix)) n

/-- The written forms of values. -/
inductive WritesValue : List Char → Value → Prop
  | int {cs : List Char} {n : Int} : WritesInt cs n → WritesValue cs (.int n)
  | str {cs : List Char} :
    '"' ∉ cs → WritesValue ('"' :: (cs ++ ['"'])) (.str (String.ofList cs))

/-- Nothing, or a comment on one line. -/
def IsComment (cs : List Char) : Prop :=
  cs = [] ∨ ∃ text, '\n' ∉ text ∧ (cs = '/' :: '/' :: text ∨ cs = '/' :: '*' :: text)

/-- What may follow a value: an optional parenthesis and an optional comment, with white space. -/
def Follows (cs : List Char) : Prop :=
  ∃ before closing after comment : List Char, (∀ c ∈ before ++ after, isBlank c = true) ∧
    closing ∈ [[], [')']] ∧ IsComment comment ∧ cs = before ++ closing ++ after ++ comment

/-- The lines that define a constant. -/
def WritesDefine (line name : String) (v : Value) : Prop :=
  IsConstantName name.toList ∧
    ∃ before beforeName behindName opening beforeValue value rest : List Char,
      (∀ c ∈ before ++ beforeName ++ behindName ++ beforeValue, isBlank c = true) ∧
      beforeName ≠ [] ∧ behindName ≠ [] ∧ opening ∈ [[], ['(']] ∧ WritesValue value v ∧
      Follows rest ∧
      line.toList = before ++ "#define".toList ++ beforeName ++ name.toList ++ behindName ++
        opening ++ beforeValue ++ value ++ rest

/-- Whether a signed word of sixty-four bits holds a value, if it is a number. -/
def Fits : Value → Prop
  | .int n => -2 ^ 63 ≤ n ∧ n < 2 ^ 63
  | _ => True

instance (v : Value) : Decidable (Fits v) :=
  match v with
  | .int _ => inferInstanceAs (Decidable (_ ∧ _))
  | .str _ | .version _ | .bool _ | .list _ => inferInstanceAs (Decidable True)

/-! ## What follows a value -/

theorem isAlphanum_of_isBlank {c : Char} (h : isBlank c = true) : c.isAlphanum = false := by
  refine Bool.eq_false_iff.mpr fun hc => ?_
  exact absurd h (Bool.eq_false_iff.mp (isBlank_of_isAlphanum hc))

theorem IsComment.head {cs : List Char} (h : IsComment cs) : ∀ c ∈ cs.head?, c = '/' := by
  rintro c hc
  obtain rfl | ⟨text, -, rfl | rfl⟩ := h
  · exact absurd hc nofun
  · exact (Option.some.inj hc).symm
  · exact (Option.some.inj hc).symm

/-- What follows a value does not begin with a letter or a digit. -/
theorem Follows.head {cs : List Char} (h : Follows cs) : ∀ c ∈ cs.head?, c.isAlphanum = false := by
  obtain ⟨before, closing, after, comment, hblank, hclosing, hcomment, rfl⟩ := h
  rw [List.forall_mem_append] at hblank
  intro c hc
  obtain hc | hc := mem_head?_append hc
  · rw [List.mem_append, List.mem_append] at hc
    obtain (hc | hc) | hc := hc
    · exact isAlphanum_of_isBlank (hblank.1 c hc)
    · have hclosing : ∀ c ∈ closing, c = ')' := by
        simp only [List.mem_cons, List.not_mem_nil, or_false] at hclosing
        obtain rfl | rfl := hclosing <;> simp
      rw [hclosing c hc]
      decide
    · exact isAlphanum_of_isBlank (hblank.2 c hc)
  · rw [hcomment.head c hc]
    decide

/-- Comments stay comments without the white space at their end. -/
theorem IsComment.dropEndWhile {cs : List Char} (h : IsComment cs) :
    IsComment (dropEndWhile isBlank cs) := by
  obtain rfl | ⟨text, htext, hcs⟩ := h
  · exact .inl rfl
  · refine .inr ⟨Text.dropEndWhile isBlank text, fun hmem => htext ?_, ?_⟩
    · exact mem_of_mem_dropEndWhile hmem
    · obtain rfl | rfl := hcs
      · exact .inl (dropEndWhile_append_cons (by decide) ['/'] text)
      · exact .inr (dropEndWhile_append_cons (by decide) ['/'] text)

/-- What follows a value does so without the white space at its end. -/
theorem Follows.dropEndWhile {cs : List Char} (h : Follows cs) :
    Follows (dropEndWhile isBlank cs) := by
  obtain ⟨before, closing, after, comment, hblank, hclosing, hcomment, rfl⟩ := h
  cases comment with
  | nil =>
    rw [List.append_nil]
    have hafter := (List.forall_mem_append.mp hblank).2
    simp only [List.mem_cons, List.not_mem_nil, or_false] at hclosing
    obtain rfl | rfl := hclosing
    · rw [List.append_nil, dropEndWhile_eq_nil hblank]
      exact ⟨[], [], [], [], by simp, by simp, .inl rfl, rfl⟩
    · rw [List.append_assoc, List.singleton_append, dropEndWhile_append_cons (by decide),
        dropEndWhile_eq_nil hafter]
      refine ⟨before, [')'], [], [], ?_, by simp, .inl rfl, by simp⟩
      rw [List.append_nil]
      exact (List.forall_mem_append.mp hblank).1
  | cons c text =>
    have hc : c = '/' := hcomment.head c rfl
    refine ⟨before, closing, after, Text.dropEndWhile isBlank (c :: text), hblank, hclosing,
      hcomment.dropEndWhile, ?_⟩
    rw [hc, dropEndWhile_append_cons (by decide)]
    exact congrArg _ (dropEndWhile_append_cons (by decide) [] text).symm

theorem IsComment.isComment_eq {cs : List Char} (h : IsComment cs) : isComment cs = true := by
  obtain rfl | ⟨text, htext, rfl | rfl⟩ := h
  · rfl
  · simpa [isComment] using htext
  · simpa [isComment] using htext

/-- An optional character with white space around it is skipped. -/
theorem dropWhile_skipChar {c : Char} (hc : isBlank c = false) {before skipped after cs : List Char}
    (hblank : ∀ d ∈ before ++ after, isBlank d = true) (hskipped : skipped ∈ [[], [c]])
    (hcs : ∀ d ∈ cs.head?, isBlank d = false ∧ d ≠ c) :
    (skipChar c ((before ++ skipped ++ after ++ cs).dropWhile isBlank)).dropWhile isBlank = cs := by
  rw [List.forall_mem_append] at hblank
  have hhead : ∀ d ∈ cs.head?, isBlank d = false := fun d hd => (hcs d hd).1
  have hafter : (after ++ cs).dropWhile isBlank = cs := dropWhile_append_eq hblank.2 hhead
  rw [List.append_assoc, List.append_assoc, List.dropWhile_append_of_pos hblank.1]
  simp only [List.mem_cons, List.not_mem_nil, or_false] at hskipped
  obtain rfl | rfl := hskipped
  · have hskip : skipChar c cs = cs := if_neg fun hd => (hcs c hd).2 rfl
    rw [List.nil_append, hafter, hskip, dropWhile_eq_self hhead]
  · rw [List.singleton_append, List.dropWhile_cons_of_neg (by simp [hc])]
    exact (congrArg _ (if_pos rfl)).trans hafter

theorem endsDefine_of_follows {cs : List Char} (h : Follows cs) : endsDefine cs = true := by
  obtain ⟨before, closing, after, comment, hblank, hclosing, hcomment, rfl⟩ := h
  have hhead : ∀ c ∈ comment.head?, isBlank c = false ∧ c ≠ ')' := by
    intro c hc
    rw [hcomment.head c hc]
    decide
  rw [endsDefine, dropWhile_skipChar (by decide) hblank hclosing hhead]
  exact hcomment.isComment_eq

/-! ## Numbers -/

theorem isDigit_of_writesNat {digits : List Char} {n : Nat} (h : WritesNat 10 digits n) :
    ∀ c ∈ digits, c.isDigit = true := by
  have hdigit : ∀ c ∈ digitChars, placeValue c < 10 → c.isDigit = true :=
    List.all_iff_forall_prop.mp (by decide)
  intro c hc
  exact hdigit c (h.mem c hc) (h.lt c hc)

theorem isHexDigit_of_writesNat {digits : List Char} {n : Nat} (h : WritesNat 16 digits n) :
    ∀ c ∈ digits, isHexDigit c = true := by
  intro c hc
  rw [isHexDigit, digitValue_of_mem c (h.mem c hc)]
  rfl

/-- A run of letters or digits ends where a suffix begins, or what follows it. -/
theorem IsSuffix.head {suffix rest : List Char} (h : IsSuffix suffix)
    (hrest : ∀ c ∈ rest.head?, c.isAlphanum = false) {p : Char → Bool}
    (hp : ∀ c, p c = true → c.isAlphanum = true) (hletters : ∀ c ∈ ['U', 'u', 'L', 'l'], p c = false) :
    ∀ c ∈ (suffix ++ rest).head?, p c = false := by
  intro c hc
  obtain hc | hc := mem_head?_append hc
  · exact hletters c (h c hc)
  · refine Bool.eq_false_iff.mpr fun hpc => ?_
    exact absurd (hp c hpc) (Bool.eq_false_iff.mp (hrest c hc))

theorem IsSuffix.dropWhile {suffix rest : List Char} (h : IsSuffix suffix)
    (hrest : ∀ c ∈ rest.head?, c.isAlphanum = false) :
    (suffix ++ rest).dropWhile isSuffixChar = rest := by
  have hletters : ∀ c ∈ ['U', 'u', 'L', 'l'], isSuffixChar c = true :=
    List.all_eq_true.mp (by decide)
  have halphanum : ∀ c ∈ ['U', 'u', 'L', 'l'], c.isAlphanum = true :=
    List.all_eq_true.mp (by decide)
  refine dropWhile_append_eq (fun c hc => hletters c (h c hc)) fun c hc => ?_
  refine Bool.eq_false_iff.mpr fun hsuffix => ?_
  have hmem : c ∈ ['U', 'u', 'L', 'l'] := by simpa [isSuffixChar, or_assoc] using hsuffix
  exact absurd (halphanum c hmem) (Bool.eq_false_iff.mp (hrest c hc))

theorem isAlphanum_of_isDigit (c : Char) (h : c.isDigit = true) : c.isAlphanum = true := by
  rw [Char.isAlphanum, h, Bool.or_true]

/-- Decimal digits are read up to the end of their suffix. -/
theorem readDecimal?_append {digits suffix rest : List Char} {n : Nat} (sign : List Char)
    (h : WritesNat 10 digits n) (hsuffix : IsSuffix suffix)
    (hrest : ∀ c ∈ rest.head?, c.isAlphanum = false) :
    readDecimal? sign (digits ++ (suffix ++ rest)) = some (.decimal (sign ++ digits), rest) := by
  have hhead := hsuffix.head hrest isAlphanum_of_isDigit (List.all_iff_forall_prop.mp (by decide))
  have hdigits := isDigit_of_writesNat h
  have hne := h.ne_nil
  rw [readDecimal?, takeWhile_append_eq hdigits hhead, dropWhile_append_eq hdigits hhead,
    hsuffix.dropWhile hrest]
  cases digits with
  | nil => exact absurd rfl hne
  | cons c cs => rfl

/-- Hexadecimal digits are read up to the end of their suffix. -/
theorem readHex?_append {digits suffix rest : List Char} {n : Nat} (h : WritesNat 16 digits n)
    (hsuffix : IsSuffix suffix) (hrest : ∀ c ∈ rest.head?, c.isAlphanum = false) :
    readHex? (digits ++ (suffix ++ rest)) = some (.hex digits, rest) := by
  have halphanum : ∀ c, isHexDigit c = true → c.isAlphanum = true := fun c hc =>
    isAlphanum_of_digitValue hc
  have hhead := hsuffix.head hrest halphanum (List.all_iff_forall_prop.mp (by decide))
  have hdigits := isHexDigit_of_writesNat h
  have hne := h.ne_nil
  rw [readHex?, takeWhile_append_eq hdigits hhead, dropWhile_append_eq hdigits hhead,
    hsuffix.dropWhile hrest]
  cases digits with
  | nil => exact absurd rfl hne
  | cons c cs => rfl

/-- A number without a sign is read if it is less than the bound. -/
theorem readSigned_of_writesNat {base n : Nat} {digits : List Char} (h : WritesNat base digits n) :
    readSigned base digits = if n < signedBound then some (n : Int) else none := by
  have hsign : ∀ c ∈ digits, c ≠ '-' ∧ c ≠ '+' := fun c hc =>
    have hmem : ∀ c ∈ digitChars, c ≠ '-' ∧ c ≠ '+' := List.all_iff_forall_prop.mp (by decide)
    hmem c (h.mem c hc)
  unfold readSigned
  split
  · exact absurd rfl (hsign '-' List.mem_cons_self).1
  · exact absurd rfl (hsign '+' List.mem_cons_self).2
  · rw [readNat_of_writesNat h]
    by_cases hn : n < signedBound <;> simp [Option.filter, hn]

/-- A number with a minus sign may be the bound as well. -/
theorem readSigned_minus_of_writesNat {base n : Nat} {digits : List Char}
    (h : WritesNat base digits n) :
    readSigned base ('-' :: digits) = if n ≤ signedBound then some (-(n : Int)) else none := by
  rw [readSigned, readNat_of_writesNat h]
  by_cases hn : n ≤ signedBound <;> simp [Option.filter, hn]

theorem lt_signedBound_iff {n : Nat} : n < signedBound ↔ Fits (.int n) := by
  have hbound : signedBound = 2 ^ 63 := rfl
  rw [hbound, Fits]
  omega

theorem le_signedBound_iff {n : Nat} : n ≤ signedBound ↔ Fits (.int (-n)) := by
  have hbound : signedBound = 2 ^ 63 := rfl
  rw [hbound, Fits]
  omega

/-! ## Values -/

/-- Digits without a mark for hexadecimal ones are read as a decimal number. -/
theorem readWritten?_digits {digits rest : List Char} {n : Nat} (h : WritesNat 10 digits n)
    (hrest : ∀ c ∈ rest.head?, c ≠ 'x' ∧ c ≠ 'X') :
    readWritten? (digits ++ rest) = readDecimal? [] (digits ++ rest) := by
  have hmem : ∀ c ∈ digitChars, (c ≠ '"' ∧ c ≠ '-') ∧ c ≠ 'x' ∧ c ≠ 'X' :=
    List.all_iff_forall_prop.mp (by decide)
  have hdigits := h.mem
  obtain ⟨c, cs, rfl⟩ := List.exists_cons_of_ne_nil h.ne_nil
  have hfirst := (hmem c (hdigits c List.mem_cons_self)).1
  have hsecond : ∀ d ∈ (cs ++ rest).head?, d ≠ 'x' ∧ d ≠ 'X' := by
    intro d hd
    obtain hd | hd := mem_head?_append hd
    · exact (hmem d (hdigits d (List.mem_cons_of_mem _ hd))).2
    · exact hrest d hd
  rw [List.cons_append]
  unfold readWritten?
  split
  · next heq => exact absurd (List.cons.inj heq).1 hfirst.1
  · next heq =>
    rw [(List.cons.inj heq).2] at hsecond
    exact absurd rfl (hsecond 'x' rfl).1
  · next heq =>
    rw [(List.cons.inj heq).2] at hsecond
    exact absurd rfl (hsecond 'X' rfl).2
  · next heq => exact absurd (List.cons.inj heq).1 hfirst.2
  · rfl

/-- A value is read, and nothing of what follows it. -/
theorem readWritten?_of_writesValue {value rest : List Char} {v : Value} (h : WritesValue value v)
    (hrest : ∀ c ∈ rest.head?, c.isAlphanum = false) :
    ∃ w, readWritten? (value ++ rest) = some (w, rest) ∧
      w.value? = if Fits v then some v else none := by
  cases h with
  | @str cs hquote =>
    refine ⟨.quoted cs, ?_, rfl⟩
    rw [List.cons_append, List.append_assoc, List.singleton_append, readWritten?,
      cutAtFirst_append_cons rest hquote]
    rfl
  | int h =>
    cases h with
    | @decimal digits suffix n h hsuffix =>
      -- The character behind a leading zero is no mark for hexadecimal digits.
      have hmark : ∀ c ∈ (suffix ++ rest).head?, c ≠ 'x' ∧ c ≠ 'X' := by
        intro c hc
        obtain hc | hc := mem_head?_append hc
        · have hletters : ∀ c ∈ ['U', 'u', 'L', 'l'], c ≠ 'x' ∧ c ≠ 'X' := by simp
          exact hletters c (hsuffix c hc)
        · constructor <;> rintro rfl <;> exact absurd (hrest _ hc) (by decide)
      refine ⟨.decimal digits, ?_, ?_⟩
      · rw [List.append_assoc, readWritten?_digits h hmark, readDecimal?_append [] h hsuffix hrest]
        rfl
      · rw [Written.value?, readSigned_of_writesNat h, apply_ite (Option.map Value.int)]
        exact if_congr lt_signedBound_iff rfl rfl
    | @negative digits suffix n h hsuffix =>
      refine ⟨.decimal ('-' :: digits), ?_, ?_⟩
      · rw [List.cons_append, List.append_assoc, readWritten?,
          readDecimal?_append ['-'] h hsuffix hrest]
        rfl
      · rw [Written.value?, readSigned_minus_of_writesNat h, apply_ite (Option.map Value.int)]
        exact if_congr le_signedBound_iff rfl rfl
    | @hex mark digits suffix n hmark h hsuffix =>
      refine ⟨.hex digits, ?_, ?_⟩
      · rw [List.cons_append, List.cons_append, List.append_assoc, ← readHex?_append h hsuffix hrest]
        simp only [List.mem_cons, List.not_mem_nil, or_false] at hmark
        obtain rfl | rfl := hmark <;> rfl
      · rw [Written.value?, readSigned_of_writesNat h, apply_ite (Option.map Value.int)]
        exact if_congr lt_signedBound_iff rfl rfl

theorem WritesInt.ne_nil {cs : List Char} {n : Int} (h : WritesInt cs n) : cs ≠ [] := by
  cases h with
  | decimal h => exact List.append_ne_nil_of_left_ne_nil h.ne_nil _
  | negative => exact List.cons_ne_nil _ _
  | hex => exact List.cons_ne_nil _ _

/-- A number is written with letters, digits and a minus sign. -/
theorem WritesInt.mem {cs : List Char} {n : Int} (h : WritesInt cs n) :
    ∀ c ∈ cs, c.isAlphanum = true ∨ c = '-' := by
  have hdigit : ∀ c ∈ digitChars, c.isAlphanum = true ∨ c = '-' :=
    List.all_iff_forall_prop.mp (by decide)
  have hletter : ∀ c ∈ ['U', 'u', 'L', 'l'], c.isAlphanum = true ∨ c = '-' :=
    List.all_iff_forall_prop.mp (by decide)
  have hmark : ∀ c ∈ ['x', 'X'], c.isAlphanum = true ∨ c = '-' :=
    List.all_iff_forall_prop.mp (by decide)
  cases h with
  | decimal h hsuffix =>
    exact List.forall_mem_append.mpr
      ⟨fun c hc => hdigit c (h.mem c hc), fun c hc => hletter c (hsuffix c hc)⟩
  | negative h hsuffix =>
    exact List.forall_mem_cons.mpr ⟨.inr rfl, List.forall_mem_append.mpr
      ⟨fun c hc => hdigit c (h.mem c hc), fun c hc => hletter c (hsuffix c hc)⟩⟩
  | hex hm h hsuffix =>
    exact List.forall_mem_cons.mpr ⟨.inl rfl, List.forall_mem_cons.mpr ⟨hmark _ hm,
      List.forall_mem_append.mpr
        ⟨fun c hc => hdigit c (h.mem c hc), fun c hc => hletter c (hsuffix c hc)⟩⟩⟩

theorem WritesInt.isBlank {cs : List Char} {n : Int} (h : WritesInt cs n) :
    ∀ c ∈ cs, isBlank c = false ∧ c ≠ '(' := by
  intro c hc
  obtain hc | rfl := h.mem c hc
  · exact ⟨isBlank_of_isAlphanum hc, by rintro rfl; exact absurd hc (by decide)⟩
  · decide

/-- A value begins with neither white space nor a parenthesis. -/
theorem WritesValue.head {value : List Char} {v : Value} (h : WritesValue value v) :
    ∃ c cs, value = c :: cs ∧ isBlank c = false ∧ c ≠ '(' := by
  cases h with
  | str => exact ⟨'"', _, rfl, by decide⟩
  | int h =>
    obtain ⟨c, cs, rfl⟩ := List.exists_cons_of_ne_nil h.ne_nil
    exact ⟨c, cs, rfl, h.isBlank c List.mem_cons_self⟩

/-- A value does not end with white space. -/
theorem WritesValue.last {value : List Char} {v : Value} (h : WritesValue value v) :
    ∃ cs c, value = cs ++ [c] ∧ isBlank c = false := by
  cases h with
  | @str cs => exact ⟨'"' :: cs, '"', rfl, by decide⟩
  | int h =>
    obtain ⟨cs, c, rfl⟩ := (List.eq_nil_or_concat _).resolve_left h.ne_nil
    rw [List.concat_eq_append] at h ⊢
    exact ⟨cs, c, rfl, (h.isBlank c (by simp)).1⟩

/-! ## Lines -/

theorem after?_append (start : String) (cs : List Char) :
    after? start (start.toList ++ cs) = some cs := by
  rw [after?, if_pos (by simp), ← String.length_toList, List.drop_left]

theorem afterBlanks?_append {blanks : List Char} (hne : blanks ≠ [])
    (h : ∀ c ∈ blanks, isBlank c = true) (cs : List Char) :
    afterBlanks? (blanks ++ cs) = some (cs.dropWhile isBlank) := by
  obtain ⟨c, blanks, rfl⟩ := List.exists_cons_of_ne_nil hne
  rw [List.forall_mem_cons] at h
  rw [List.cons_append, afterBlanks?, if_pos h.1, List.dropWhile_append_of_pos h.2]

/-- A name is read up to the first character that does not belong to it. -/
theorem readName?_append {name rest : List Char} (h : IsConstantName name)
    (hrest : ∀ c ∈ rest.head?, isNameChar c = false) :
    readName? (name ++ rest) = some (name, rest) := by
  obtain ⟨c, cs, rfl, hc, hcs⟩ := h
  have hchars : ∀ d ∈ cs, isNameChar d = true := by
    intro d hd
    simpa [isNameChar] using hcs d hd
  rw [List.cons_append, readName?, if_pos hc, takeWhile_append_eq hchars hrest,
    dropWhile_append_eq hchars hrest]

theorem isNameChar_of_isBlank {c : Char} (h : isBlank c = true) : isNameChar c = false := by
  have hc : c ≠ '_' := by
    rintro rfl
    exact absurd h (by decide)
  rw [isNameChar, isAlphanum_of_isBlank h, Bool.false_or]
  exact beq_eq_false_iff_ne.mpr hc

/-- The name and the value of a line are found. -/
theorem splitDefine?_of_writesDefine {line name : String} {v : Value} (h : WritesDefine line name v) :
    ∃ w, splitDefine? line.toList = some (name.toList, w) ∧
      w.value? = if Fits v then some v else none := by
  obtain ⟨hname, before, beforeName, behindName, opening, beforeValue, value, rest, hblank,
    hbeforeName, hbehindName, hopening, hvalue, hrest, hline⟩ := h
  simp only [List.forall_mem_append] at hblank
  obtain ⟨⟨⟨hbefore, hblankBefore⟩, hblankBehind⟩, hblankValue⟩ := hblank
  obtain ⟨w, hread, hw⟩ := readWritten?_of_writesValue hvalue hrest.dropEndWhile.head
  refine ⟨w, ?_, hw⟩
  -- Of what follows the value only the white space at the end is trimmed.
  have htrim : trimChars line.toList = "#define".toList ++ (beforeName ++ (name.toList ++
      (behindName ++ (opening ++ beforeValue ++ (value ++ dropEndWhile isBlank rest))))) := by
    obtain ⟨cs, c, rfl, hc⟩ := hvalue.last
    have hline : line.toList = before ++ '#' :: ("define".toList ++ beforeName ++ name.toList ++
        behindName ++ opening ++ beforeValue ++ cs ++ c :: rest) := by
      rw [hline]
      simp
    rw [hline, trimChars_append_cons hbefore (by decide), dropEndWhile_append_cons hc]
    simp
  have hafterName : ∀ c ∈ (behindName ++ (opening ++ beforeValue ++
      (value ++ dropEndWhile isBlank rest))).head?, isNameChar c = false := by
    obtain ⟨c, cs, rfl⟩ := List.exists_cons_of_ne_nil hbehindName
    rintro d ⟨⟩
    exact isNameChar_of_isBlank (hblankBehind c List.mem_cons_self)
  have hbeginName : ∀ c ∈ (name.toList ++ (behindName ++ (opening ++ beforeValue ++
      (value ++ dropEndWhile isBlank rest)))).head?, isBlank c = false := by
    obtain ⟨c, cs, hcs, hc, -⟩ := hname
    rw [hcs]
    rintro d ⟨⟩
    exact isBlank_of_isAlphanum (by rw [Char.isAlphanum, hc, Bool.true_or])
  have hopen : (skipChar '(' ((opening ++ beforeValue ++
      (value ++ dropEndWhile isBlank rest)).dropWhile isBlank)).dropWhile isBlank =
        value ++ dropEndWhile isBlank rest := by
    obtain ⟨c, cs, rfl, hc⟩ := hvalue.head
    have hbefore : ∀ d ∈ [] ++ beforeValue, isBlank d = true := hblankValue
    exact dropWhile_skipChar (by decide) hbefore hopening (by rintro d ⟨⟩; exact hc)
  unfold splitDefine?
  rw [htrim, after?_append]
  simp only [Option.bind_eq_bind, Option.bind_some, afterBlanks?_append hbeforeName hblankBefore,
    dropWhile_eq_self hbeginName, readName?_append hname hafterName,
    afterBlanks?_append hbehindName hblankBehind, hopen, hread]
  exact if_pos (endsDefine_of_follows hrest.dropEndWhile)

/-- **Capability constants are read back.** A line that defines a constant is read as its name and its
value; if the value is a number that a signed word does not hold, the line says nothing. -/
theorem parseDefine_of_writesDefine {line name : String} {v : Value} (h : WritesDefine line name v) :
    parseDefine line = if Fits v then some (name, v) else none := by
  obtain ⟨w, hsplit, hw⟩ := splitDefine?_of_writesDefine h
  rw [parseDefine, hsplit]
  show w.value?.map (fun v => (String.ofList name.toList, v)) = _
  rw [hw, String.ofList_toList]
  split <;> rfl

/-- Lines with a suffix and a comment, with the least number, with one that does not fit, and with the
mark of a comment inside a text. -/
theorem writesDefine_sample :
    WritesDefine " #define A_1\t( 0XfFuL) // mask " "A_1" (.int 255) ∧
      WritesDefine "#define B  -9223372036854775808)/* least" "B" (.int (-9223372036854775808)) ∧
      WritesDefine "#define C 9223372036854775808" "C" (.int 9223372036854775808) ∧
      WritesDefine "#define D (\"a // b\"" "D" (.str "a // b") := by
  have hff : WritesNat 16 ['f', 'F'] 255 := by decide
  have hdigits : WritesNat 10 "9223372036854775808".toList 9223372036854775808 := by decide
  have hsuffix : IsSuffix ['u', 'L'] := by simp [IsSuffix]
  have hmark : 'X' ∈ ['x', 'X'] := by decide
  have hmask : WritesInt "0XfFuL".toList 255 := .hex hmark hff hsuffix
  have hleast : WritesInt "-9223372036854775808".toList (-9223372036854775808) :=
    .negative hdigits nofun
  have hbound : WritesInt "9223372036854775808".toList 9223372036854775808 :=
    .decimal hdigits nofun
  have htext : '"' ∉ "a // b".toList := by decide
  refine ⟨?_, ?_, ?_, ?_⟩
  · exact ⟨⟨'A', ['_', '1'], rfl, by decide, by simp⟩, [' '], [' '], ['\t'], ['('], [' '],
      "0XfFuL".toList, ") // mask ".toList, List.all_eq_true.mp (by decide), by decide, by decide,
      by decide, .int hmask, ⟨[], [')'], [' '], "// mask ".toList, List.all_eq_true.mp (by decide),
        by decide, .inr ⟨" mask ".toList, by decide, .inl rfl⟩, rfl⟩, by decide⟩
  · exact ⟨⟨'B', [], rfl, by decide, nofun⟩, [], [' '], [' ', ' '], [], [],
      "-9223372036854775808".toList, ")/* least".toList, List.all_eq_true.mp (by decide), by decide,
      by decide, by decide, .int hleast, ⟨[], [')'], [], "/* least".toList, nofun, by decide,
        .inr ⟨" least".toList, by decide, .inr rfl⟩, rfl⟩, by decide⟩
  · exact ⟨⟨'C', [], rfl, by decide, nofun⟩, [], [' '], [' '], [], [],
      "9223372036854775808".toList, [], List.all_eq_true.mp (by decide), by decide, by decide,
      by decide, .int hbound, ⟨[], [], [], [], nofun, by decide, .inl rfl, rfl⟩, by decide⟩
  · exact ⟨⟨'D', [], rfl, by decide, nofun⟩, [], [' '], [' '], ['('], [],
      "\"a // b\"".toList, [], List.all_eq_true.mp (by decide), by decide, by decide, by decide,
      .str htext, ⟨[], [], [], [], nofun, by decide, .inl rfl, rfl⟩, by decide⟩

theorem parseDefine_of_writesDefine_sample :
    parseDefine " #define A_1\t( 0XfFuL) // mask " = some ("A_1", .int 255) ∧
      parseDefine "#define B  -9223372036854775808)/* least" =
        some ("B", .int (-9223372036854775808)) ∧
      parseDefine "#define C 9223372036854775808" = none ∧
      parseDefine "#define D (\"a // b\"" = some ("D", .str "a // b") := by
  obtain ⟨hmask, hleast, hbound, htext⟩ := writesDefine_sample
  refine ⟨?_, ?_, ?_, ?_⟩
  · exact (parseDefine_of_writesDefine hmask).trans (if_pos (by decide))
  · exact (parseDefine_of_writesDefine hleast).trans (if_pos (by decide))
  · exact (parseDefine_of_writesDefine hbound).trans (if_neg (by decide))
  · exact (parseDefine_of_writesDefine htext).trans (if_pos trivial)

end BuildMatrix.Sdk
