import BuildMatrix.Text.Pieces

/-!
# Replacing two characters that stand together

* `Text.pairs`: how often one character stands directly before another one.
* `Text.pairs_append_eq`: where they stand together in a text of two parts.
* `Text.replaceAll_append`: a text in which the two do not stand together stays as it is.
* `Text.length_replaceAll`: what replacements do to the length of a text.
-/

namespace BuildMatrix.Text

variable {x y a b : Char} {cs ds new : List Char}

/-- The number of places at which `x` stands directly before `y`. -/
def pairs (x y : Char) : List Char → Nat
  | a :: b :: cs => (if a = x ∧ b = y then 1 else 0) + pairs x y (b :: cs)
  | _ => 0

theorem pairs_cons_cons (x y a b : Char) (cs : List Char) :
    pairs x y (a :: b :: cs) = (if a = x ∧ b = y then 1 else 0) + pairs x y (b :: cs) :=
  rfl

/-- Only what directly follows a character matters to it. -/
theorem pairs_cons (x y a : Char) (cs : List Char) :
    pairs x y (a :: cs) = pairs x y (a :: cs.head?.toList) + pairs x y cs := by
  cases cs with
  | nil => rfl
  | cons b cs => rw [pairs_cons_cons]; rfl

/-- Of what follows a text only the first character matters to it. -/
theorem pairs_append (x y : Char) (cs ds : List Char) :
    pairs x y (cs ++ ds) = pairs x y (cs ++ ds.head?.toList) + pairs x y ds := by
  induction cs with
  | nil => cases ds <;> simp [pairs]
  | cons a cs ih =>
    have hhead : (cs ++ ds.head?.toList).head? = (cs ++ ds).head? := by
      cases cs <;> cases ds <;> rfl
    rw [List.cons_append, List.cons_append, pairs_cons, ih, pairs_cons x y a (cs ++ _), hhead,
      Nat.add_assoc]

theorem pairs_eq_zero_of_notMem (h : x ∉ cs) : pairs x y (cs ++ ds.head?.toList) = 0 := by
  induction cs with
  | nil => cases ds <;> rfl
  | cons a cs ih =>
    rw [List.mem_cons, not_or] at h
    rw [List.cons_append, pairs_cons, ih h.2]
    cases (cs ++ ds.head?.toList).head? with
    | none => rfl
    | some b =>
      show (if a = x ∧ b = y then 1 else 0) + 0 + 0 = 0
      rw [if_neg fun hab => h.1 hab.1.symm]

theorem isPrefixOf_pair_iff : [x, y].isPrefixOf (a :: cs) = true ↔ a = x ∧ cs.head? = some y := by
  cases cs with
  | nil => simp
  | cons b cs =>
    rw [List.isPrefixOf_iff_prefix, List.cons_prefix_cons, List.cons_prefix_cons, List.head?_cons,
      Option.some.injEq]
    exact ⟨fun h => ⟨h.1.symm, h.2.1.symm⟩, fun h => ⟨h.1.symm, h.2.symm, List.nil_prefix⟩⟩

theorem pairs_singleton_iff : pairs x y (a :: cs.head?.toList) = 0 ↔ ¬(a = x ∧ cs.head? = some y) := by
  cases cs with
  | nil => simp [pairs]
  | cons b cs => simp [pairs]

/-- Two characters stand together in one of two parts, or where these meet. -/
theorem pairs_append_eq (x y : Char) (cs ds : List Char) : pairs x y (cs ++ ds) =
    pairs x y cs + pairs x y ds + if cs.getLast? = some x ∧ ds.head? = some y then 1 else 0 := by
  induction cs with
  | nil => simp [pairs]
  | cons a cs ih =>
    rw [List.cons_append, pairs_cons, ih, pairs_cons x y a cs]
    cases cs with
    | nil => cases ds <;> simp [pairs, Nat.add_comm]
    | cons b cs =>
      rw [List.cons_append, List.head?_cons, List.head?_cons, List.getLast?_cons_cons]
      omega

theorem pairs_eq_zero_of_infix (h : cs <:+: ds) (hds : pairs x y ds = 0) : pairs x y cs = 0 := by
  obtain ⟨before, after, rfl⟩ := h
  rw [pairs_append_eq, pairs_append_eq] at hds
  omega

/-- The second of two different characters that stand together does not stand before others as the
first one does. -/
theorem pairs_pair (hne : x ≠ y) (cs : List Char) :
    pairs x y (x :: y :: cs) = pairs x y cs + 1 := by
  rw [pairs_cons_cons, if_pos ⟨rfl, rfl⟩, pairs_cons,
    pairs_singleton_iff.mpr fun hya => hne hya.1.symm, Nat.zero_add, Nat.add_comm]

/-! ## Replacements -/

theorem replaceAll_nil (part new : List Char) : replaceAll part new [] = [] :=
  replaceAll.eq_def part new []

theorem replaceAll_pair (x y : Char) (new cs : List Char) :
    replaceAll [x, y] new (x :: y :: cs) = new ++ replaceAll [x, y] new cs := by
  rw [replaceAll, if_neg (by simp), if_pos (isPrefixOf_pair_iff.mpr ⟨rfl, rfl⟩)]
  rfl

theorem replaceAll_cons (new : List Char) (h : ¬(a = x ∧ cs.head? = some y)) :
    replaceAll [x, y] new (a :: cs) = a :: replaceAll [x, y] new cs := by
  rw [replaceAll, if_neg (by simp), if_neg fun hstarts => h (isPrefixOf_pair_iff.mp hstarts)]

/-- Where the two characters do not stand together, a text stays as it is. -/
theorem replaceAll_append (new : List Char) (h : pairs x y (cs ++ ds.head?.toList) = 0) :
    replaceAll [x, y] new (cs ++ ds) = cs ++ replaceAll [x, y] new ds := by
  induction cs with
  | nil => rfl
  | cons a cs ih =>
    have hhead : (cs ++ ds.head?.toList).head? = (cs ++ ds).head? := by
      cases cs <;> cases ds <;> rfl
    rw [List.cons_append, pairs_cons, hhead] at h
    obtain ⟨hfirst, hrest⟩ := Nat.add_eq_zero_iff.mp h
    rw [List.cons_append, replaceAll_cons new (pairs_singleton_iff.mp hfirst), ih hrest,
      List.cons_append]

/-- Each replacement takes two characters away and adds the new text. -/
theorem length_replaceAll (hne : x ≠ y) (new cs : List Char) :
    (replaceAll [x, y] new cs).length + 2 * pairs x y cs =
      cs.length + pairs x y cs * new.length := by
  -- A pair is taken off as two characters, so the induction is on the length.
  induction hlength : cs.length using Nat.strongRecOn generalizing cs with
  | ind n ih =>
    cases cs with
    | nil => rw [replaceAll_nil]; simp [pairs, ← hlength]
    | cons a cs =>
      by_cases h : a = x ∧ cs.head? = some y
      · obtain ⟨rfl, hy⟩ := h
        obtain ⟨rest, rfl⟩ := List.head?_eq_some_iff.mp hy
        have hshorter : rest.length < n := by
          rw [← hlength, List.length_cons, List.length_cons]
          omega
        have hrest := ih rest.length hshorter rest rfl
        rw [replaceAll_pair, pairs_pair hne, ← hlength, List.length_append, Nat.add_mul]
        simp only [List.length_cons]
        omega
      · have hrest := ih cs.length (by simp [← hlength]) cs rfl
        have hpairs : pairs x y (a :: cs) = pairs x y cs := by
          rw [pairs_cons, pairs_singleton_iff.mpr h, Nat.zero_add]
        rw [replaceAll_cons new h, hpairs, ← hlength, List.length_cons, List.length_cons]
        omega

/-- Characters that stand together may be replaced with themselves. -/
theorem replaceAll_self (x y : Char) : ∀ cs : List Char, replaceAll [x, y] [x, y] cs = cs
  | [] => replaceAll_nil _ _
  | [a] => by
    have hne : ¬(a = x ∧ ([] : List Char).head? = some y) := by simp
    rw [replaceAll_cons _ hne, replaceAll_self x y []]
  | a :: b :: cs => by
    by_cases h : a = x ∧ b = y
    · obtain ⟨rfl, rfl⟩ := h
      rw [replaceAll_pair, replaceAll_self a b cs]
      rfl
    · have hne : ¬(a = x ∧ (b :: cs).head? = some y) := by simpa using h
      rw [replaceAll_cons _ hne, replaceAll_self x y (b :: cs)]

end BuildMatrix.Text
