import BuildMatrix.Proofs.Path.Written

/-!
# Normal forms are stable

A normal form is built on a stack, with the last component on top: a name is put on it, and a step
to the parent takes the top away or, where there is nothing to take away, is put on it. So a step to
the parent stays at the bottom only, alone or above the root, and names stand above it.

* `Path.IsStack`: the stacks that occur; `Path.isStack_normalStep`, `Path.isStack_foldl`: a
  component leaves such a stack, and so do many.
* `Path.components_normalize_eq`: the components of a normal form are the ones that are built.
* `Path.relativeTo_congr`: the root counts by its components only.
* `Path.normal_forms_stable`: normal forms are not changed again, and neither are absolute paths
  that are written relative to a root and read back.
-/

namespace BuildMatrix.Path

variable {cs : List Component} {c : Component} {p root root' : Path}

/-! ## Stacks -/

/-- The components that a normal form is built from, last one first. -/
inductive IsStack : List Component → Prop
  | nil : IsStack []
  | root : IsStack [.root]
  | parent : IsStack [.parent]
  | rootParent : IsStack [.parent, .root]
  | name (s : String) {cs : List Component} : IsStack cs → IsStack (.name s :: cs)

/-- The components of normal forms: names behind an optional root and at most one step to the
parent. -/
def IsNormalForm (cs : List Component) : Prop :=
  ∃ start ∈ [[], [.root], [.parent], [.root, .parent]], ∃ names : List String,
    cs = start ++ names.map .name

/-- One more component leaves a stack. -/
theorem isStack_normalStep (h : IsStack cs) (c : Component) : IsStack (normalStep cs c) := by
  cases c with
  | root => exact .root
  | current => exact h
  | name s => exact .name s h
  | parent =>
    cases h with
    | nil => exact .parent
    | root => exact .rootParent
    | parent => exact .nil
    | rootParent => exact .root
    | name s hrest => exact hrest

theorem isStack_foldl (h : IsStack cs) (ds : List Component) :
    IsStack (ds.foldl normalStep cs) := by
  induction ds generalizing cs with
  | nil => exact h
  | cons d ds ih => exact ih (isStack_normalStep h d)

theorem IsStack.isNormalForm (h : IsStack cs) : IsNormalForm cs.reverse := by
  induction h with
  | nil => exact ⟨[], by simp, [], rfl⟩
  | root => exact ⟨[.root], by simp, [], rfl⟩
  | parent => exact ⟨[.parent], by simp, [], rfl⟩
  | rootParent => exact ⟨[.root, .parent], by simp, [], rfl⟩
  | @name s cs _ ih =>
    obtain ⟨start, hstart, names, hcs⟩ := ih
    refine ⟨start, hstart, names ++ [s], ?_⟩
    rw [List.reverse_cons, hcs, List.map_append, List.append_assoc]
    rfl

/-! ## Normal forms -/

/-- A relative path is written from the components of its normal form. -/
theorem components_normalize_of_isRelative (hp : p.isAbsolute = false) :
    p.normalize.components = (p.route.kept []).reverse := by
  have hkept : ∀ c ∈ (p.route.kept []).reverse, c.IsStep :=
    fun c hc => isStep_of_mem_kept (List.mem_reverse.mp hc)
  have hidle := isIdle_of_mem_piecesOfSteps hkept
  rw [normalize_of_isRelative hp, ofComponents_steps hkept,
    (components_joinPieces (slash_notMem_piecesOfSteps hkept) fun piece hpiece =>
      hidle piece (List.mem_of_mem_head? hpiece)).2]
  exact filterMap_piecesOfSteps hkept

/-- The components of a normal form are the ones that are built. -/
theorem components_normalize_eq (p : Path) :
    p.normalize.components = normalComponents p.components := by
  by_cases hp : p.isAbsolute = true
  · exact components_normalize hp
  · rw [components_normalize_of_isRelative (Bool.eq_false_iff.mpr hp), normalComponents_components,
      if_neg hp]

theorem isNormalForm_normalize (p : Path) : IsNormalForm p.normalize.components := by
  rw [components_normalize_eq, normalComponents]
  exact (isStack_foldl .nil p.components).isNormalForm

/-! ## Roots -/

/-- The root that a path is written relative to counts by its components only. -/
theorem relativeTo_congr (p : Path) (h : root.components = root'.components) :
    p.relativeTo root = p.relativeTo root' := by
  rw [relativeTo, relativeTo, strip?, strip?, isWithin, isWithin, h]

theorem isWithin_congr (p : Path) (h : root.components = root'.components) :
    p.isWithin root = p.isWithin root' := by
  rw [isWithin, isWithin, h]

/-- A normal path is written as a relative one exactly if it is the root or lies below it. -/
theorem isAbsolute_relativeTo (hp : p.IsNormal) (hroot : root.IsNormal) :
    (p.relativeTo root).isAbsolute = !p.isWithin root := by
  cases hwithin : p.isWithin root with
  | false =>
    rw [relativeTo_of_not_isWithin (by simp [hwithin]), hp.isAbsolute]
    rfl
  | true =>
    obtain ⟨ds, hds⟩ := isWithin_iff.mp hwithin
    rw [relativeTo_of_append hp hroot hds.symm]
    split
    · rfl
    · exact isAbsolute_joinPieces (isStep_of_components_eq_append hp hroot hds.symm)

/-- **Normal forms are stable.** The normal form of a path is its own normal form: names behind an
optional root and at most one step to the parent. For a normal root, however it is spelled, the
absolute form of a path is its own absolute form. Written relative to the root, as a relative path
where it is the root or lies below it and as it is elsewhere, it has the same absolute form. -/
theorem normal_forms_stable (p : Path) :
    p.normalize.normalize = p.normalize ∧ IsNormalForm p.normalize.components ∧
    ∀ root : Path, root.isAbsolute = true → root.normalize.same root = true →
      (p.absolutize root).absolutize root = p.absolutize root ∧
      ((p.absolutize root).relativeTo root).absolutize root = p.absolutize root ∧
      ((p.absolutize root).relativeTo root).isAbsolute = !(p.absolutize root).isWithin root := by
  refine ⟨normalize_normalize p, isNormalForm_normalize p, fun root habsolute hsame => ?_⟩
  have hcomponents : root.normalize.components = root.components := same_iff.mp hsame
  have hroot : root.normalize.IsNormal := isNormal_normalize habsolute
  have hp : (p.absolutize root).IsNormal := isNormal_absolutize p habsolute
  refine ⟨?_, ?_, ?_⟩
  · rw [absolutize, if_pos hp.isAbsolute, hp.normalize_eq]
  · rw [relativeTo_congr _ hcomponents.symm, absolutize_congr hcomponents.symm rfl]
    exact absolutize_relativeTo hp hroot
  · rw [relativeTo_congr _ hcomponents.symm, isWithin_congr _ hcomponents.symm]
    exact isAbsolute_relativeTo hp hroot

/-- A step to the parent stays at the topmost folder, and it is below this one. -/
theorem normal_forms_stable_sample :
    (isAbsolute ⟨"//"⟩ = true ∧ (normalize ⟨"//"⟩).same ⟨"//"⟩ = true) ∧
      absolutize ⟨"a/../../b"⟩ ⟨"//"⟩ = ⟨"/../b"⟩ ∧ relativeTo ⟨"/../b"⟩ ⟨"//"⟩ = ⟨"../b"⟩ ∧
      absolutize ⟨"../b"⟩ ⟨"//"⟩ = ⟨"/../b"⟩ := by
  have habsolute : isAbsolute ⟨"//"⟩ = true := by decide
  have hsame : (normalize ⟨"//"⟩).same ⟨"//"⟩ = true := by decide +kernel
  have hp : absolutize ⟨"a/../../b"⟩ ⟨"//"⟩ = ⟨"/../b"⟩ := by decide +kernel
  have hrelative : relativeTo ⟨"/../b"⟩ ⟨"//"⟩ = ⟨"../b"⟩ := by decide +kernel
  have hstable := (normal_forms_stable ⟨"a/../../b"⟩).2.2 ⟨"//"⟩ habsolute hsame
  rw [hp, hrelative] at hstable
  exact ⟨⟨habsolute, hsame⟩, hp, hrelative, hstable.2.1⟩

end BuildMatrix.Path
