import BuildMatrix.Proofs.Text.Replace
import Mathlib.Data.List.Infix

/-!
# Texts between the places of a replacement

A text with a replacement consists of the texts between the places of it, with the new text put
between them. Where the new text makes up no other place at its ends, a further replacement is one
in each of these texts.

* `Text.intercalate_left_inj`: two texts and more with a text between them tell this text.
* `Text.between`: the texts between the places at which two characters stand together.
* `Text.replaceAll_eq_intercalate`: a replacement puts the new text between them.
* `Text.MakesNoPair`: whether a text makes up no other place at its ends.
* `Text.replaceAll_intercalate`: a replacement in texts with such a text between them.
-/

namespace BuildMatrix.Text

variable {x y : Char} {cs ds new s t u : List Char} {us : List (List Char)}

/-! ## Texts with a text between them -/

theorem length_intercalate (t u : List Char) (us : List (List Char)) :
    (List.intercalate t (u :: us)).length = (u :: us).flatten.length + us.length * t.length := by
  induction us generalizing u with
  | nil => simp
  | cons v us ih =>
    have hu : (u :: v :: us).flatten.length = u.length + (v :: us).flatten.length := by
      rw [List.flatten_cons, List.length_append]
    rw [List.intercalate_cons_cons, List.length_append, List.length_append, ih, hu,
      List.length_cons, Nat.add_mul]
    omega

/-- Two texts and more with a text between them tell this text. -/
theorem intercalate_left_inj (h : 2 ≤ us.length) :
    List.intercalate s us = List.intercalate t us ↔ s = t := by
  refine ⟨fun heq => ?_, fun heq => by rw [heq]⟩
  obtain ⟨u, v, us, rfl⟩ : ∃ u v ws, us = u :: v :: ws := by
    match us, h with
    | u :: v :: ws, _ => exact ⟨u, v, ws, rfl⟩
  have hlength := congrArg List.length heq
  rw [length_intercalate, length_intercalate, Nat.add_left_cancel_iff] at hlength
  have hlength : s.length = t.length := Nat.eq_of_mul_eq_mul_left (Nat.succ_pos _) hlength
  rw [List.intercalate_cons_cons, List.intercalate_cons_cons, List.append_assoc,
    List.append_assoc, List.append_cancel_left_eq] at heq
  exact List.append_inj_left heq hlength

/-- Where one list of texts ends and another one begins, two texts become one. -/
theorem intercalate_append_intercalate (t : List Char) (pre : List (List Char)) (p q : List Char)
    (post : List (List Char)) :
    List.intercalate t (pre ++ [p]) ++ List.intercalate t (q :: post) =
      List.intercalate t (pre ++ (p ++ q) :: post) := by
  induction pre with
  | nil =>
    cases post with
    | nil => simp
    | cons r post => simp [List.intercalate_cons_cons]
  | cons u pre ih =>
    have hpre : pre ++ [p] ≠ [] := by simp
    have hmeet : pre ++ (p ++ q) :: post ≠ [] := by simp
    rw [List.cons_append, List.cons_append, List.intercalate_cons_of_ne_nil hpre,
      List.intercalate_cons_of_ne_nil hmeet, ← ih]
    simp only [List.append_assoc]

theorem intercalate_concat_append (t : List Char) (pre : List (List Char)) (p q : List Char) :
    List.intercalate t (pre ++ [p ++ q]) = List.intercalate t (pre ++ [p]) ++ q := by
  rw [← intercalate_append_intercalate, List.intercalate_singleton]

theorem intercalate_cons_append (t p q : List Char) (post : List (List Char)) :
    List.intercalate t ((p ++ q) :: post) = p ++ List.intercalate t (q :: post) := by
  rw [← List.nil_append ((p ++ q) :: post), ← intercalate_append_intercalate, List.nil_append,
    List.intercalate_singleton]

theorem intercalate_concat_nil (t : List Char) (h : us ≠ []) :
    List.intercalate t (us ++ [[]]) = List.intercalate t us ++ t := by
  induction us with
  | nil => exact absurd rfl h
  | cons u us ih =>
    cases us with
    | nil => simp [List.intercalate_cons_cons]
    | cons v us =>
      rw [List.cons_append, List.intercalate_cons_of_ne_nil (by simp), ih (by simp),
        List.intercalate_cons_cons, List.append_assoc _ _ t]

theorem intercalate_modifyHead_cons (t : List Char) (a : Char) (h : us ≠ []) :
    List.intercalate t (us.modifyHead (a :: ·)) = a :: List.intercalate t us := by
  obtain ⟨u, us, rfl⟩ := List.exists_cons_of_ne_nil h
  exact intercalate_cons_append t [a] u us

/-- Each text but the last one is followed by the text between them. -/
theorem append_infix_intercalate (h : u ∈ us.dropLast) : u ++ t <:+: List.intercalate t us := by
  induction us with
  | nil => exact absurd h (by simp)
  | cons v us ih =>
    cases us with
    | nil => exact absurd h (by simp)
    | cons w us =>
      rw [List.dropLast_cons_cons, List.mem_cons] at h
      rw [List.intercalate_cons_cons]
      rcases h with rfl | h
      · exact (List.prefix_append _ _).isInfix
      · exact (ih h).trans (List.suffix_append _ _).isInfix

/-! ## Texts between two characters -/

/-- The texts between the places at which `x` stands directly before `y`. -/
def between (x y : Char) : List Char → List (List Char)
  | a :: b :: cs =>
    if a = x ∧ b = y then [] :: between x y cs else (between x y (b :: cs)).modifyHead (a :: ·)
  | [a] => [[a]]
  | [] => [[]]

theorem between_ne_nil (x y : Char) (cs : List Char) : between x y cs ≠ [] := by
  fun_induction between x y cs with
  | case1 => simp
  | case2 a b cs h ih => simpa [List.modifyHead_eq_nil_iff] using ih
  | case3 => simp
  | case4 => simp

/-- A replacement puts the new text between the texts that stay. -/
theorem replaceAll_eq_intercalate (x y : Char) (new cs : List Char) :
    replaceAll [x, y] new cs = List.intercalate new (between x y cs) := by
  fun_induction between x y cs with
  | case1 a b cs h ih =>
    obtain ⟨rfl, rfl⟩ := h
    rw [replaceAll_pair, ih, List.intercalate_cons_of_ne_nil (between_ne_nil a b cs),
      List.nil_append]
  | case2 a b cs h ih =>
    rw [replaceAll_cons new (by simpa using h), ih,
      intercalate_modifyHead_cons new a (between_ne_nil x y _)]
  | case3 a => rw [replaceAll_cons new (by simp), replaceAll_nil, List.intercalate_singleton]
  | case4 => rw [replaceAll_nil, List.intercalate_singleton]

theorem intercalate_between (x y : Char) (cs : List Char) :
    List.intercalate [x, y] (between x y cs) = cs := by
  rw [← replaceAll_eq_intercalate, replaceAll_self]

theorem length_between (hne : x ≠ y) (cs : List Char) :
    (between x y cs).length = pairs x y cs + 1 := by
  fun_induction between x y cs with
  | case1 a b cs h ih =>
    obtain ⟨rfl, rfl⟩ := h
    rw [List.length_cons, ih, pairs_pair hne]
  | case2 a b cs h ih => rw [List.length_modifyHead, ih, pairs_cons_cons, if_neg h, Nat.zero_add]
  | case3 => rfl
  | case4 => rfl

/-- What is before a place of the two characters is followed by the first of them. -/
theorem append_singleton_infix_of_mem_between (h : u ∈ (between x y cs).dropLast) :
    u ++ [x] <:+: cs := by
  have hpair := append_infix_intercalate (t := [x, y]) h
  rw [intercalate_between] at hpair
  have hfirst : u ++ [x] <+: u ++ [x, y] := (List.prefix_append_right_inj u).mpr ⟨[y], rfl⟩
  exact hfirst.isInfix.trans hpair

/-- Two characters that stand together somewhere do so at a first place. -/
theorem exists_first_pair (h : pairs x y cs ≠ 0) :
    ∃ p q, cs = p ++ x :: y :: q ∧ pairs x y (p ++ [x]) = 0 := by
  induction cs with
  | nil => exact absurd rfl h
  | cons a cs ih =>
    by_cases hstart : a = x ∧ cs.head? = some y
    · obtain ⟨rfl, hy⟩ := hstart
      obtain ⟨q, rfl⟩ := List.head?_eq_some_iff.mp hy
      exact ⟨[], q, rfl, rfl⟩
    · rw [pairs_cons, pairs_singleton_iff.mpr hstart, Nat.zero_add] at h
      obtain ⟨p, q, rfl, hp⟩ := ih h
      have hhead : (p ++ [x]).head? = (p ++ x :: y :: q).head? := by cases p <;> rfl
      refine ⟨a :: p, q, rfl, ?_⟩
      rw [List.cons_append, pairs_cons, hhead, pairs_singleton_iff.mpr hstart, hp]

/-! ## Further replacements -/

/-- A replacement in two parts, where they do not make up another place for it. -/
theorem replaceAll_append_of_not (x y : Char) (new : List Char) :
    ∀ cs : List Char, ¬(cs.getLast? = some x ∧ ds.head? = some y) →
      replaceAll [x, y] new (cs ++ ds) = replaceAll [x, y] new cs ++ replaceAll [x, y] new ds
  | [], _ => by rw [replaceAll_nil, List.nil_append, List.nil_append]
  | [a], h => by
    have hds : ¬(a = x ∧ ds.head? = some y) := by simpa using h
    rw [List.singleton_append, replaceAll_cons new hds, replaceAll_cons new (by simp),
      replaceAll_nil, List.singleton_append]
  | a :: b :: cs, h => by
    by_cases hpair : a = x ∧ b = y
    · obtain ⟨rfl, rfl⟩ := hpair
      have hcs : ¬(cs.getLast? = some a ∧ ds.head? = some b) := by
        rintro ⟨hlast, hhead⟩
        refine h ⟨?_, hhead⟩
        rw [List.getLast?_cons, List.getLast?_cons, hlast]
        rfl
      rw [List.cons_append, List.cons_append, replaceAll_pair, replaceAll_pair,
        replaceAll_append_of_not a b new cs hcs, List.append_assoc]
    · rw [List.getLast?_cons_cons] at h
      rw [List.cons_append, replaceAll_cons new (by simpa using hpair),
        replaceAll_cons new (by simpa using hpair), replaceAll_append_of_not x y new (b :: cs) h,
        List.cons_append]

/-- A character that a replacement does not bring along comes to stand before itself only if it did.
-/
theorem pairs_self_replaceAll {x : Char} (y : Char) {new : List Char} (hnew : x ∉ new) :
    ∀ cs : List Char, pairs x x cs = 0 → pairs x x (replaceAll [x, y] new cs) = 0
  | [], _ => by
    rw [replaceAll_nil]
    rfl
  | [a], _ => by
    rw [replaceAll_cons new (by simp), replaceAll_nil]
    rfl
  | a :: b :: cs, h => by
    rw [pairs_cons_cons, Nat.add_eq_zero_iff] at h
    by_cases hpair : a = x ∧ b = y
    · obtain ⟨rfl, rfl⟩ := hpair
      have hcs : pairs a a cs = 0 := pairs_eq_zero_of_infix (List.suffix_cons b cs).isInfix h.2
      have hnone : pairs a a (new ++ [].head?.toList) = 0 := pairs_eq_zero_of_notMem hnew
      rw [List.head?_nil, Option.toList_none, List.append_nil] at hnone
      have hlast : ¬new.getLast? = some a := fun hlast => hnew (List.mem_of_getLast? hlast)
      rw [replaceAll_pair, pairs_append_eq, hnone, pairs_self_replaceAll b hnew cs hcs,
        if_neg fun hends => hlast hends.1]
    · have ih := pairs_self_replaceAll y hnew (b :: cs) h.2
      rw [replaceAll_cons new (by simpa using hpair), pairs_cons, ih, Nat.add_zero,
        pairs_singleton_iff]
      rintro ⟨rfl, hhead⟩
      -- what follows the character is not the character itself, so it is not replaced
      have hb : b ≠ a := fun hb => absurd h.1 (by simp [hb])
      rw [replaceAll_cons new fun hstart => hb hstart.1] at hhead
      exact hb (Option.some.inj hhead)

theorem getLast?_ne_of_pairs (h : pairs x x (u ++ [x]) = 0) : u.getLast? ≠ some x := by
  intro hlast
  rw [pairs_append_eq, if_pos ⟨hlast, rfl⟩] at h
  omega

/-- A replacement before a character with which no place of it ends. -/
theorem replaceAll_concat (hne : x ≠ y) (new cs : List Char) :
    replaceAll [x, y] new (cs ++ [x]) = replaceAll [x, y] new cs ++ [x] := by
  rw [replaceAll_append_of_not x y new cs (by simp [hne]), replaceAll_cons new (by simp),
    replaceAll_nil]

/-! ## Replacements in texts with a text between them -/

/-- Whether none of the texts but the last one ends with `x` if `t` begins with `y`. -/
def MakesNoPair (x y : Char) (t : List Char) (us : List (List Char)) : Prop :=
  ∀ u ∈ us.dropLast, ¬(u.getLast? = some x ∧ t.head? = some y)

instance (x y : Char) (t : List Char) (us : List (List Char)) : Decidable (MakesNoPair x y t us) :=
  inferInstanceAs (Decidable (∀ u ∈ us.dropLast, _))

/-- A text put between others makes no new place where each of them may be followed by `x` without
`x` standing before itself. -/
theorem makesNoPair_of_forall (h : ∀ u ∈ us.dropLast, pairs x x (u ++ [x]) = 0) (y : Char)
    (t : List Char) : MakesNoPair x y t us :=
  fun u hu hpair => getLast?_ne_of_pairs (h u hu) hpair.1

/-- And so it is after a replacement in them. -/
theorem forall_pairs_map_replaceAll (hne : x ≠ y) (hnew : x ∉ new)
    (h : ∀ u ∈ us.dropLast, pairs x x (u ++ [x]) = 0) :
    ∀ u ∈ (us.map (replaceAll [x, y] new)).dropLast, pairs x x (u ++ [x]) = 0 := by
  intro u hu
  rw [← List.map_dropLast] at hu
  obtain ⟨v, hv, rfl⟩ := List.mem_map.mp hu
  rw [← replaceAll_concat hne]
  exact pairs_self_replaceAll y hnew _ (h v hv)

theorem MakesNoPair.of_cons_cons {u v : List Char} (ht : t ≠ [])
    (h : MakesNoPair x y t (u :: v :: us)) (rest : List Char) :
    ¬(u.getLast? = some x ∧ (t ++ rest).head? = some y) ∧ MakesNoPair x y t (v :: us) := by
  rw [MakesNoPair, List.dropLast_cons_cons, List.forall_mem_cons] at h
  rw [List.head?_append_of_ne_nil _ ht]
  exact h

section

variable (ht : t ≠ []) (hmark : x ∉ t) (h : MakesNoPair x y t us)

include ht hmark h

theorem replaceAll_intercalate (new : List Char) :
    replaceAll [x, y] new (List.intercalate t us) =
      List.intercalate t (us.map (replaceAll [x, y] new)) := by
  induction us with
  | nil => exact replaceAll_nil _ _
  | cons u us ih =>
    cases us with
    | nil => rw [List.map_singleton, List.intercalate_singleton, List.intercalate_singleton]
    | cons v us =>
      obtain ⟨hends, hrest⟩ := h.of_cons_cons ht (List.intercalate t (v :: us))
      rw [List.map_cons, List.map_cons, List.intercalate_cons_cons, List.intercalate_cons_cons,
        List.append_assoc, List.append_assoc, replaceAll_append_of_not x y new u hends,
        replaceAll_append new (pairs_eq_zero_of_notMem hmark), ih hrest, List.map_cons]

theorem pairs_intercalate_eq_zero (hus : ∀ u ∈ us, pairs x y u = 0) :
    pairs x y (List.intercalate t us) = 0 := by
  induction us with
  | nil => rfl
  | cons u us ih =>
    rw [List.forall_mem_cons] at hus
    cases us with
    | nil => rw [List.intercalate_singleton, hus.1]
    | cons v us =>
      obtain ⟨hends, hrest⟩ := h.of_cons_cons ht (List.intercalate t (v :: us))
      rw [List.intercalate_cons_cons, List.append_assoc, pairs_append_eq, if_neg hends, hus.1,
        pairs_append, pairs_eq_zero_of_notMem hmark, ih hrest hus.2]

end

/-- The first of several texts in which two characters stand together, cut at their first place. -/
theorem exists_first_pair_mem (h : ∃ u ∈ us, pairs x y u ≠ 0) :
    ∃ pre p q post, us = pre ++ (p ++ x :: y :: q) :: post ∧ (∀ u ∈ pre, pairs x y u = 0) ∧
      pairs x y (p ++ [x]) = 0 := by
  have hfind : (us.find? fun u => pairs x y u ≠ 0).isSome := by simpa using h
  obtain ⟨u, hu⟩ := Option.isSome_iff_exists.mp hfind
  obtain ⟨hpairs, pre, post, rfl, hpre⟩ := List.find?_eq_some_iff_append.mp hu
  obtain ⟨p, q, rfl, hp⟩ := exists_first_pair (of_decide_eq_true hpairs)
  exact ⟨pre, p, q, post, rfl, fun v hv => by simpa using hpre v hv, hp⟩

end BuildMatrix.Text
