import BuildMatrix.Regular.Basic

/-!
# Expressions that begin with fixed symbols

An expression for some symbols and then another one matches a text that begins with the symbols and
whose rest the other one matches.

* `Regular.partials_exactly`: the first symbol is taken off.
* `Regular.matchesAny_exactly`: so are all of them.
-/

namespace BuildMatrix.Regular

theorem contains_single (x z : Nat) : (SymbolSet.single x).contains z = decide (z = x) := by
  rw [SymbolSet.single, SymbolSet.contains, Bool.eq_iff_iff, Bool.and_eq_true,
    decide_eq_true_eq, decide_eq_true_eq, decide_eq_true_eq]
  omega

/-- The first symbol is taken off. -/
theorem partials_exactly (before : Option Nat) (x z : Nat) (xs : List Nat) (b : Regular) :
    partials before z (andThen (exactly (x :: xs)) b) =
      if z = x then [andThen (exactly xs) b] else [] := by
  have hone : partials before z (one (.single x)) = if z = x then [nothing] else [] := by
    rw [partials, contains_single]
    by_cases h : z = x <;> simp [h]
  cases xs with
  | nil =>
    show ((partials before z (one (.single x))).map (andThen · b)) ++ [] = _
    rw [hone]
    by_cases h : z = x <;> simp only [h, ↓reduceIte] <;> rfl
  | cons y xs =>
    show (((partials before z (one (.single x))).map (andThen · (exactly (y :: xs))) ++ []).map
      (andThen · b)) ++ [] = _
    rw [hone]
    by_cases h : z = x <;> simp only [h, ↓reduceIte] <;> rfl

theorem matchesAny_nil (before : Option Nat) (zs : List Nat) : matchesAny before [] zs = false := by
  induction zs generalizing before with
  | nil => rfl
  | cons z zs ih => exact ih (some z)

/-- An expression for some symbols and then another one matches a text that begins with the symbols
and whose rest the other one matches. -/
theorem matchesAny_exactly (before : Option Nat) (xs : List Nat) (b : Regular) (zs : List Nat) :
    matchesAny before [andThen (exactly xs) b] zs =
      (xs.isPrefixOf zs && matchesAny (xs.getLast?.or before) [b] (zs.drop xs.length)) := by
  induction xs generalizing before zs with
  | nil => rfl
  | cons x xs ih =>
    cases zs with
    | nil => cases xs <;> rfl
    | cons z zs =>
      have hlast : (x :: xs).getLast?.or before = xs.getLast?.or (some x) := by
        rw [List.getLast?_cons]
        cases xs.getLast? <;> rfl
      have hstep : step before z [andThen (exactly (x :: xs)) b] =
          if z = x then [andThen (exactly xs) b] else [] := by
        rw [step, List.flatMap_singleton, partials_exactly]
        by_cases h : z = x <;> simp only [h, ↓reduceIte] <;> rfl
      rw [matchesAny, hstep, hlast]
      by_cases h : z = x
      · subst h
        rw [if_pos rfl, ih]
        simp [List.isPrefixOf]
      · have hne : (x == z) = false := beq_eq_false_iff_ne.mpr (Ne.symm h)
        rw [if_neg h, matchesAny_nil, List.isPrefixOf, hne]
        rfl

theorem matchesAny_exactly_append (before : Option Nat) (xs : List Nat) (b : Regular)
    (zs : List Nat) : matchesAny before [andThen (exactly xs) b] (xs ++ zs) =
      matchesAny (xs.getLast?.or before) [b] zs := by
  have hprefix : xs.isPrefixOf (xs ++ zs) = true :=
    List.isPrefixOf_iff_prefix.mpr (List.prefix_append xs zs)
  rw [matchesAny_exactly, hprefix, Bool.true_and, List.drop_left]

end BuildMatrix.Regular
