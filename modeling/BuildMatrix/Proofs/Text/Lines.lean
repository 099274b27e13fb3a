import BuildMatrix.Text.Blank
import BuildMatrix.Text.Pieces
import Mathlib.Data.List.TakeWhile

/-!
# Pieces and lines of a text

What cutting a text gives when the text was put together from parts that do not hold the separator.

* `piecesOf_append_cons`, `piecesOf_intercalate`: parts with separators between them are the pieces.
* `notMem_of_mem_piecesOf`: no piece holds the separator.
* `linesOf_flatMap`: lines that each end with a line feed are the lines of the whole.
* `cutAtLast_append_cons`: a text is cut at its last separator.
* `takeWhile_append_eq`, `dropWhile_append_eq`: where a run of characters ends.
* `trimChars_eq_self`: a text without white space at its ends is not trimmed.
* `trimChars_append_append`: white space around such a text is cut off.
* `trimChars_append_blank`, `trimChars_append_cons`: trimming at one end.
-/

namespace BuildMatrix.Text

variable {sep : Char}

/-! ## Pieces -/

@[simp] theorem piecesOf_nil : piecesOf sep [] = [[]] := rfl

theorem piecesOf_cons_self (cs : List Char) : piecesOf sep (sep :: cs) = [] :: piecesOf sep cs := by
  simp [piecesOf]

theorem piecesOf_ne_nil (sep : Char) (cs : List Char) : piecesOf sep cs ≠ [] := by
  cases cs with
  | nil => simp
  | cons c cs =>
    rw [piecesOf]
    split
    · simp
    · split <;> simp

/-- A character that is not the separator joins the first piece. -/
theorem piecesOf_cons_of_ne {c : Char} (hc : c ≠ sep) {cs p : List Char} {ps : List (List Char)}
    (h : piecesOf sep cs = p :: ps) : piecesOf sep (c :: cs) = (c :: p) :: ps := by
  rw [piecesOf, if_neg hc, h]

theorem piecesOf_eq_singleton {cs : List Char} (h : sep ∉ cs) : piecesOf sep cs = [cs] := by
  induction cs with
  | nil => rfl
  | cons c cs ih =>
    rw [List.mem_cons, not_or] at h
    exact piecesOf_cons_of_ne (Ne.symm h.1) (ih h.2)

/-- A separator ends the pieces before it and begins the pieces after it. -/
theorem piecesOf_append_cons (cs ds : List Char) :
    piecesOf sep (cs ++ sep :: ds) = piecesOf sep cs ++ piecesOf sep ds := by
  induction cs with
  | nil => simp [piecesOf_cons_self]
  | cons c cs ih =>
    by_cases hc : c = sep
    · subst hc
      rw [List.cons_append, piecesOf_cons_self, piecesOf_cons_self, ih, List.cons_append]
    · obtain ⟨p, ps, hp⟩ := List.exists_cons_of_ne_nil (piecesOf_ne_nil sep cs)
      rw [hp, List.cons_append] at ih
      rw [List.cons_append, piecesOf_cons_of_ne hc ih, piecesOf_cons_of_ne hc hp, List.cons_append]

theorem notMem_of_mem_piecesOf {cs p : List Char} (h : p ∈ piecesOf sep cs) : sep ∉ p := by
  induction cs generalizing p with
  | nil => simp_all
  | cons c cs ih =>
    by_cases hc : c = sep
    · subst hc
      rw [piecesOf_cons_self, List.mem_cons] at h
      rcases h with rfl | h
      · simp
      · exact ih h
    · obtain ⟨q, qs, hq⟩ := List.exists_cons_of_ne_nil (piecesOf_ne_nil sep cs)
      rw [piecesOf_cons_of_ne hc hq, List.mem_cons] at h
      rcases h with rfl | h
      · rw [List.mem_cons, not_or]
        exact ⟨Ne.symm hc, ih (by rw [hq]; exact List.mem_cons_self)⟩
      · exact ih (by rw [hq]; exact List.mem_cons_of_mem _ h)

/-- Pieces hold nothing that the text does not. -/
theorem mem_of_mem_piecesOf {c : Char} {cs p : List Char} (h : p ∈ piecesOf sep cs) (hc : c ∈ p) :
    c ∈ cs := by
  induction cs generalizing p with
  | nil => simp_all
  | cons d cs ih =>
    by_cases hd : d = sep
    · subst hd
      rw [piecesOf_cons_self, List.mem_cons] at h
      rcases h with rfl | h
      · exact absurd hc List.not_mem_nil
      · exact List.mem_cons_of_mem _ (ih h hc)
    · obtain ⟨q, qs, hq⟩ := List.exists_cons_of_ne_nil (piecesOf_ne_nil sep cs)
      rw [piecesOf_cons_of_ne hd hq, List.mem_cons] at h
      rcases h with rfl | h
      · rcases List.mem_cons.mp hc with rfl | hc
        · exact List.mem_cons_self
        · exact List.mem_cons_of_mem _ (ih (by rw [hq]; exact List.mem_cons_self) hc)
      · exact List.mem_cons_of_mem _ (ih (by rw [hq]; exact List.mem_cons_of_mem _ h) hc)

/-- Parts with separators between them are the pieces of the whole. -/
theorem piecesOf_intercalate {ps : List (List Char)} (hne : ps ≠ []) (h : ∀ p ∈ ps, sep ∉ p) :
    piecesOf sep (List.intercalate [sep] ps) = ps := by
  obtain ⟨p, ps, rfl⟩ := List.exists_cons_of_ne_nil hne
  clear hne
  induction ps generalizing p with
  | nil =>
    rw [List.intercalate_singleton]
    exact piecesOf_eq_singleton (h p List.mem_cons_self)
  | cons q qs ih =>
    have hq := ih q fun r hr => h r (List.mem_cons_of_mem _ hr)
    rw [List.intercalate_cons_cons, List.append_assoc, List.singleton_append,
      piecesOf_append_cons, piecesOf_eq_singleton (h p List.mem_cons_self), hq]
    rfl

/-! ## Lines -/

/-- Parts that are each followed by a separator are the pieces before an empty last one. -/
theorem piecesOf_flatMap {ps : List (List Char)} (h : ∀ p ∈ ps, sep ∉ p) :
    piecesOf sep (ps.flatMap (· ++ [sep])) = ps ++ [[]] := by
  induction ps with
  | nil => rfl
  | cons p ps ih =>
    rw [List.flatMap_cons, List.append_assoc, List.singleton_append, piecesOf_append_cons,
      piecesOf_eq_singleton (h p List.mem_cons_self),
      ih fun q hq => h q (List.mem_cons_of_mem _ hq), List.singleton_append, List.cons_append]

theorem dropReturn_eq_self {line : List Char} (h : line.getLast? ≠ some '\r') :
    dropReturn line = line := by
  rw [dropReturn]
  split
  · next rest hr =>
    rw [← List.head?_reverse, hr] at h
    exact absurd rfl h
  · rfl

/-- Lines that each end with a line feed are the lines of the whole. -/
theorem linesOf_flatMap {ls : List (List Char)} (hfeed : ∀ l ∈ ls, '\n' ∉ l)
    (hreturn : ∀ l ∈ ls, l.getLast? ≠ some '\r') : linesOf (ls.flatMap (· ++ ['\n'])) = ls := by
  have hmap : ls.map dropReturn = ls :=
    (List.map_congr_left fun l hl => dropReturn_eq_self (hreturn l hl)).trans (List.map_id ls)
  rw [linesOf, piecesOf_flatMap hfeed, List.dropLast_concat, List.getLast?_concat]
  exact hmap

/-! ## The last separator -/

theorem cutAtFirst_append_cons {cs : List Char} (ds : List Char) (h : sep ∉ cs) :
    cutAtFirst sep (cs ++ sep :: ds) = some (cs, ds) := by
  have hcs : ∀ c ∈ cs, decide (c ≠ sep) = true := fun c hc =>
    decide_eq_true (ne_of_mem_of_not_mem hc h)
  rw [cutAtFirst, List.dropWhile_append_of_pos hcs, List.takeWhile_append_of_pos hcs]
  simp

/-- A character that is not the separator joins what stands before it. -/
theorem cutAtFirst_cons_of_ne {c : Char} (hc : c ≠ sep) (cs : List Char) :
    cutAtFirst sep (c :: cs) = (cutAtFirst sep cs).map fun p => (c :: p.1, p.2) := by
  have hdrop : (c :: cs).dropWhile (· ≠ sep) = cs.dropWhile (· ≠ sep) :=
    List.dropWhile_cons_of_pos (decide_eq_true hc)
  have htake : (c :: cs).takeWhile (· ≠ sep) = c :: cs.takeWhile (· ≠ sep) :=
    List.takeWhile_cons_of_pos (decide_eq_true hc)
  rw [cutAtFirst, cutAtFirst, hdrop, htake]
  cases cs.dropWhile (· ≠ sep) <;> rfl

/-- A text is cut at a separator that no other one follows. -/
theorem cutAtLast_append_cons (cs : List Char) {ds : List Char} (h : sep ∉ ds) :
    cutAtLast sep (cs ++ sep :: ds) = some (cs, ds) := by
  have hr : (cs ++ sep :: ds).reverse = ds.reverse ++ sep :: cs.reverse := by simp
  rw [cutAtLast, hr, cutAtFirst_append_cons _ (by simpa using h)]
  simp

/-! ## White space at the ends -/

theorem mem_head?_append {c : Char} {cs ds : List Char} (h : c ∈ (cs ++ ds).head?) :
    c ∈ cs ∨ c ∈ ds.head? := by
  cases cs with
  | nil => exact .inr h
  | cons d cs => exact .inl (List.mem_of_mem_head? h)

theorem dropWhile_eq_self {p : Char → Bool} {cs : List Char}
    (h : ∀ c ∈ cs.head?, p c = false) : cs.dropWhile p = cs := by
  cases cs with
  | nil => rfl
  | cons c cs => rw [List.dropWhile_cons_of_neg (by simp [h c rfl])]

/-- A run of characters ends where a text without them follows. -/
theorem takeWhile_append_eq {p : Char → Bool} {cs ds : List Char} (hcs : ∀ c ∈ cs, p c = true)
    (hds : ∀ c ∈ ds.head?, p c = false) : (cs ++ ds).takeWhile p = cs := by
  rw [List.takeWhile_append_of_pos hcs]
  cases ds with
  | nil => rw [List.takeWhile_nil, List.append_nil]
  | cons d ds => rw [List.takeWhile_cons_of_neg (by simp [hds d rfl]), List.append_nil]

theorem dropWhile_append_eq {p : Char → Bool} {cs ds : List Char} (hcs : ∀ c ∈ cs, p c = true)
    (hds : ∀ c ∈ ds.head?, p c = false) : (cs ++ ds).dropWhile p = ds := by
  rw [List.dropWhile_append_of_pos hcs, dropWhile_eq_self hds]

/-- A text without white space at its ends is not trimmed. -/
theorem trimChars_eq_self {cs : List Char} (hhead : ∀ c ∈ cs.head?, isBlank c = false)
    (hlast : ∀ c ∈ cs.getLast?, isBlank c = false) : trimChars cs = cs := by
  rw [trimChars, dropWhile_eq_self hhead, dropEndWhile, dropWhile_eq_self, List.reverse_reverse]
  intro c hc
  rw [List.head?_reverse] at hc
  exact hlast c hc

/-- White space around a text without white space at its ends is cut off. -/
theorem trimChars_append_append {before cs after : List Char} (hne : cs ≠ [])
    (hbefore : ∀ c ∈ before, isBlank c = true) (hafter : ∀ c ∈ after, isBlank c = true)
    (hhead : ∀ c ∈ cs.head?, isBlank c = false) (hlast : ∀ c ∈ cs.getLast?, isBlank c = false) :
    trimChars (before ++ cs ++ after) = cs := by
  have hfront : (before ++ cs ++ after).dropWhile isBlank = cs ++ after := by
    rw [List.append_assoc, List.dropWhile_append_of_pos hbefore, dropWhile_eq_self]
    obtain ⟨d, ds, rfl⟩ := List.exists_cons_of_ne_nil hne
    exact hhead
  have hback : ∀ c ∈ after.reverse, isBlank c = true := by
    intro c hc
    exact hafter c (List.mem_reverse.mp hc)
  rw [trimChars, hfront, dropEndWhile, List.reverse_append, List.dropWhile_append_of_pos hback,
    dropWhile_eq_self, List.reverse_reverse]
  intro c hc
  rw [List.head?_reverse] at hc
  exact hlast c hc

/-- White space after a text is cut off. -/
theorem trimChars_append_blank (cs : List Char) {after : List Char}
    (h : ∀ c ∈ after, isBlank c = true) : trimChars (cs ++ after) = trimChars cs := by
  have hafter : after.dropWhile isBlank = [] := List.dropWhile_eq_nil_iff.mpr h
  have hback : ∀ c ∈ after.reverse, isBlank c = true := by
    intro c hc
    exact h c (List.mem_reverse.mp hc)
  rw [trimChars, trimChars, List.dropWhile_append]
  split
  · next hempty => rw [hafter, List.isEmpty_iff.mp hempty]
  · rw [dropEndWhile, dropEndWhile, List.reverse_append, List.dropWhile_append_of_pos hback]

theorem mem_of_mem_dropEndWhile {p : Char → Bool} {c : Char} {cs : List Char}
    (h : c ∈ dropEndWhile p cs) : c ∈ cs := by
  rw [dropEndWhile, List.mem_reverse] at h
  exact List.mem_reverse.mp ((List.dropWhile_sublist p).mem h)

theorem dropEndWhile_eq_nil {p : Char → Bool} {cs : List Char} (h : ∀ c ∈ cs, p c = true) :
    dropEndWhile p cs = [] := by
  rw [dropEndWhile, List.reverse_eq_nil_iff, List.dropWhile_eq_nil_iff]
  intro c hc
  exact h c (List.mem_reverse.mp hc)

/-- A character that stays keeps what stands before it. -/
theorem dropEndWhile_append_cons {p : Char → Bool} {c : Char} (hc : p c = false)
    (cs rest : List Char) : dropEndWhile p (cs ++ c :: rest) = cs ++ c :: dropEndWhile p rest := by
  have hstop : (c :: cs.reverse).dropWhile p = c :: cs.reverse :=
    List.dropWhile_cons_of_neg (by simp [hc])
  have hreverse : (cs ++ c :: rest).reverse = rest.reverse ++ c :: cs.reverse := by simp
  rw [dropEndWhile, dropEndWhile, hreverse, List.dropWhile_append]
  split
  · next hempty => simp [hstop, List.isEmpty_iff.mp hempty]
  · simp

/-- Trimming begins at the first character that is no white space. -/
theorem trimChars_append_cons {before : List Char} (hbefore : ∀ c ∈ before, isBlank c = true)
    {c : Char} (hc : isBlank c = false) (rest : List Char) :
    trimChars (before ++ c :: rest) = c :: dropEndWhile isBlank rest := by
  have hstop : (c :: rest).dropWhile isBlank = c :: rest :=
    List.dropWhile_cons_of_neg (by simp [hc])
  rw [trimChars, List.dropWhile_append_of_pos hbefore, hstop]
  exact dropEndWhile_append_cons hc [] rest

end BuildMatrix.Text
