import BuildMatrix.Proofs.Path.Normal

/-!
# Paths below a root

A relative path without steps to the parent is made absolute by writing its steps behind those of the
root, each after a slash. Only the topmost folder is written in a way of its own.

* `Path.trail`: the steps of a path, each after a slash.
* `Path.toList_absolutize`: what a path below a root is written as.
-/

namespace BuildMatrix.Path

variable {p root : Path}

/-- The steps of a path, each after a slash. -/
def trail (p : Path) : List Char :=
  p.steps.flatMap fun c => '/' :: c.render.toList

/-- Whether a path is relative and never goes up. -/
structure IsBelow (p : Path) : Prop where
  isRelative : p.isAbsolute = false
  parent_notMem : .parent ∉ p.components

/-- Whether a path names something. -/
def HasName (p : Path) : Prop :=
  ∃ s, Component.name s ∈ p.components

theorem cons_intercalate_steps {cs : List Component} (h : cs ≠ []) :
    '/' :: List.intercalate ['/'] (piecesOfSteps cs) = cs.flatMap fun c => '/' :: c.render.toList := by
  obtain ⟨c, cs, rfl⟩ := List.exists_cons_of_ne_nil h
  induction cs generalizing c with
  | nil => simp [piecesOfSteps]
  | cons d cs ih =>
    have hd := ih d (List.cons_ne_nil d cs)
    rw [List.flatMap_cons, ← hd]
    simp [piecesOfSteps, List.intercalate_cons_cons]

theorem toList_ofComponents_of_ne_nil {cs : List Component} (h : cs ≠ []) :
    (ofComponents (.root :: cs)).text.toList = cs.flatMap fun c => '/' :: c.render.toList := by
  rw [toList_ofComponents_root, cons_intercalate_steps h]

/-- A path with steps has a trail of two characters at least. -/
theorem exists_trail_eq (h : p.steps ≠ []) : ∃ c cs, p.trail = '/' :: c :: cs := by
  obtain ⟨d, ds, hds⟩ := List.exists_cons_of_ne_nil h
  have hstep := isStep_of_mem_steps (hds ▸ List.mem_cons_self : d ∈ p.steps)
  obtain ⟨c, cs, hcs⟩ := List.exists_cons_of_ne_nil hstep.render_ne_nil
  refine ⟨c, cs ++ ds.flatMap fun c => '/' :: c.render.toList, ?_⟩
  rw [trail, hds, List.flatMap_cons, hcs]
  rfl

namespace IsNormal

/-- The topmost folder is written as a slash, and every other one as its trail. -/
theorem toList_text (h : root.IsNormal) :
    root.text.toList = if root.steps = [] then ['/'] else root.trail := by
  have htext : root.text.toList = (ofComponents (.root :: root.steps)).text.toList := by
    rw [← h.eq_ofComponents]
  rw [htext]
  split
  · next hsteps =>
    rw [hsteps, toList_ofComponents_root]
    rfl
  · next hsteps => exact toList_ofComponents_of_ne_nil hsteps

theorem steps_eq_nil_iff (h : root.IsNormal) : root.steps = [] ↔ root.text = "/" := by
  rw [← String.toList_inj, h.toList_text]
  split
  · next hsteps => exact iff_of_true hsteps rfl
  · next hsteps =>
    obtain ⟨c, cs, hcs⟩ := exists_trail_eq hsteps
    rw [hcs]
    exact iff_of_false hsteps nofun

end IsNormal

theorem mem_components_of_mem_steps {c : Component} (h : c ∈ p.steps) : c ∈ p.components := by
  rw [components_eq]
  exact List.mem_append_right _ h

theorem IsBelow.name_of_mem (h : p.IsBelow) {c : Component} (hc : c ∈ p.steps) :
    ∃ s, c = .name s := by
  have hstep := isStep_of_mem_steps hc
  cases c with
  | root => exact absurd rfl hstep.ne_root
  | current => exact absurd rfl hstep.ne_current
  | parent => exact absurd (mem_components_of_mem_steps hc) h.parent_notMem
  | name s => exact ⟨s, rfl⟩

/-- A path below has steps exactly if it names something. -/
theorem IsBelow.steps_ne_nil_iff (h : p.IsBelow) : p.steps ≠ [] ↔ p.HasName := by
  constructor
  · intro hne
    obtain ⟨c, cs, hcs⟩ := List.exists_cons_of_ne_nil hne
    have hc : c ∈ p.steps := hcs ▸ List.mem_cons_self
    obtain ⟨s, rfl⟩ := h.name_of_mem hc
    exact ⟨s, mem_components_of_mem_steps hc⟩
  · rintro ⟨s, hs⟩ hnil
    have hmem : Component.name s ∈ p.steps := by
      rw [steps_eq_filter]
      exact List.mem_filter.mpr ⟨hs, by simp⟩
    rw [hnil] at hmem
    exact List.not_mem_nil hmem

theorem foldl_normalStep_names {cs : List Component} (h : ∀ c ∈ cs, ∃ s, c = .name s)
    (reversed : List Component) : cs.foldl normalStep reversed = cs.reverse ++ reversed := by
  induction cs generalizing reversed with
  | nil => rfl
  | cons c cs ih =>
    rw [List.forall_mem_cons] at h
    obtain ⟨⟨s, rfl⟩, hcs⟩ := h
    rw [List.foldl_cons, ih hcs, List.reverse_cons, List.append_assoc]
    rfl

/-- A path below a root has the steps of the root, and then its own. -/
theorem absolutize_eq_ofComponents (hroot : root.IsNormal) (hp : p.IsBelow) :
    p.absolutize root = ofComponents (.root :: (root.steps ++ p.steps)) := by
  have hnormal : normalComponents (root.components ++ p.steps) = root.components ++ p.steps := by
    rw [normalComponents, List.foldl_append, foldl_normalStep_names fun c hc => hp.name_of_mem hc,
      List.reverse_append, List.reverse_reverse]
    exact congrArg (· ++ p.steps) hroot.normalComponents_eq
  rw [absolutize, if_neg (by rw [hp.isRelative]; exact Bool.false_ne_true),
    normalize_join root hp.isRelative, hnormal, hroot.components_eq, List.cons_append]

/-- What a path below a root is written as. -/
theorem toList_absolutize (hroot : root.IsNormal) (hp : p.IsBelow) :
    (p.absolutize root).text.toList =
      if p.steps = [] then root.text.toList else root.trail ++ p.trail := by
  rw [absolutize_eq_ofComponents hroot hp]
  split
  · next hsteps => rw [hsteps, List.append_nil, ← hroot.eq_ofComponents]
  · next hsteps =>
    rw [toList_ofComponents_of_ne_nil (List.append_ne_nil_of_right_ne_nil _ hsteps),
      List.flatMap_append]
    rfl

/-- A path below a root is the root exactly if it has no steps. -/
theorem toList_absolutize_eq_iff (hroot : root.IsNormal) (hp : p.IsBelow) :
    (p.absolutize root).text.toList = root.text.toList ↔ p.steps = [] := by
  rw [toList_absolutize hroot hp]
  split
  · next h => exact iff_of_true rfl h
  · next h =>
    obtain ⟨c, cs, hcs⟩ := exists_trail_eq h
    refine iff_of_false (fun heq => ?_) h
    rw [hroot.toList_text, hcs] at heq
    have hlength := congrArg List.length heq
    rw [List.length_append, List.length_cons, List.length_cons] at hlength
    split at hlength
    · rw [List.length_singleton] at hlength
      omega
    · omega

end BuildMatrix.Path
