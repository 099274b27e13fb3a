import BuildMatrix.Text.Sorted

/-!
# Texts in rising order

A list of texts in strictly rising order that a text is added to stays in this order, and gets this
text as a member. Putting the texts of such a list in order gives the list again.

* `Text.mem_insertSorted_iff`, `Text.pairwise_insertSorted`: one text.
* `Text.foldl_insertSorted`: a rising list is what it is rebuilt as.
-/

namespace BuildMatrix.Text

variable {s t : String} {ts : List String}

theorem mem_insertSorted_iff : t ∈ insertSorted s ts ↔ t = s ∨ t ∈ ts := by
  induction ts with
  | nil => rw [insertSorted, List.mem_singleton, or_iff_left List.not_mem_nil]
  | cons u us ih =>
    rw [insertSorted]
    split
    · next hu =>
      rw [hu, List.mem_cons]
      exact ⟨Or.inr, fun h => h.elim Or.inl id⟩
    split
    · rw [List.mem_cons]
    · rw [List.mem_cons, ih, List.mem_cons]
      exact or_left_comm

theorem pairwise_insertSorted (h : ts.Pairwise (· < ·)) :
    (insertSorted s ts).Pairwise (· < ·) := by
  induction ts with
  | nil => exact List.pairwise_singleton _ s
  | cons u us ih =>
    obtain ⟨hu, hus⟩ := List.pairwise_cons.mp h
    rw [insertSorted]
    split
    · exact h
    next hne =>
    split
    · next hlt =>
      refine List.pairwise_cons.mpr ⟨fun v hv => ?_, h⟩
      rcases List.mem_cons.mp hv with rfl | hv
      · exact hlt
      · exact String.lt_trans hlt (hu v hv)
    · next hge =>
      have hgt : u < s := Std.lt_of_le_of_ne (String.not_lt.mp hge) (Ne.symm hne)
      refine List.pairwise_cons.mpr ⟨fun v hv => ?_, ih hus⟩
      rcases mem_insertSorted_iff.mp hv with rfl | hv
      · exact hgt
      · exact hu v hv

theorem mem_foldl_insertSorted_iff {us : List String} :
    t ∈ ts.foldl (fun sorted u => insertSorted u sorted) us ↔ t ∈ us ∨ t ∈ ts := by
  induction ts generalizing us with
  | nil => rw [List.foldl_nil, or_iff_left List.not_mem_nil]
  | cons u ts ih =>
    rw [List.foldl_cons, ih, mem_insertSorted_iff, List.mem_cons, or_comm (a := t = u), or_assoc]

/-- A text above all others is added at the end. -/
theorem insertSorted_of_forall_lt (h : ∀ t ∈ ts, t < s) : insertSorted s ts = ts ++ [s] := by
  induction ts with
  | nil => rfl
  | cons u us ih =>
    have hu : u < s := h u List.mem_cons_self
    have hne : s ≠ u := by
      rintro rfl
      exact String.lt_irrefl _ hu
    rw [insertSorted, if_neg hne, if_neg (String.lt_asymm hu),
      ih fun t ht => h t (List.mem_cons_of_mem u ht), List.cons_append]

/-- Adding texts in rising order, all of them above those that are there, puts them at the end. -/
theorem foldl_insertSorted {us : List String} (h : (us ++ ts).Pairwise (· < ·)) :
    ts.foldl (fun sorted t => insertSorted t sorted) us = us ++ ts := by
  induction ts generalizing us with
  | nil => rw [List.foldl_nil, List.append_nil]
  | cons t ts ih =>
    have hbelow : ∀ u ∈ us, u < t := fun u hu =>
      (List.pairwise_append.mp h).2.2 u hu t List.mem_cons_self
    have hcons : us ++ t :: ts = (us ++ [t]) ++ ts := by rw [List.append_assoc]; rfl
    rw [hcons] at h ⊢
    rw [List.foldl_cons, insertSorted_of_forall_lt hbelow, ih h]

end BuildMatrix.Text
