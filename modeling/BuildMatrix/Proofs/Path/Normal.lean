import BuildMatrix.Proofs.Path.Route

/-!
# Absolute normal paths

A path is normal when it begins at the root and is its own normal form. Such a path is determined
by its components, and it can be written relative to another one and read back.

* `isNormal_normalize`, `isNormal_absolutize`: normal forms are normal.
* `absolutize_congr`: normal absolute forms depend on components only.
* `IsNormal.ext`: normal paths with the same components are equal.
* `relativeTo_of_append`: what a normal path below a normal root is written as.
* `absolutize_relativeTo`: taking a root off and putting it back gives the path again, wherever the
  path lies.
-/

namespace BuildMatrix.Path

/-! ## Normal paths -/

/-- Whether a path begins at the root and is its own normal form. -/
structure IsNormal (p : Path) : Prop where
  isAbsolute : p.isAbsolute = true
  normalize_eq : p.normalize = p

theorem components_normalize {p : Path} (h : p.isAbsolute = true) :
    p.normalize.components = normalComponents p.components := by
  rw [components_of_isAbsolute ((isAbsolute_normalize p).trans h), steps_normalize,
    normalComponents_components, if_pos h, Route.kept_root]

theorem isNormal_normalize {p : Path} (h : p.isAbsolute = true) : p.normalize.IsNormal :=
  ⟨(isAbsolute_normalize p).trans h, normalize_normalize p⟩

/-- A path below an absolute root has a normal absolute form. -/
theorem isNormal_absolutize (p : Path) {root : Path} (h : root.isAbsolute = true) :
    (p.absolutize root).IsNormal := by
  rw [absolutize]
  split
  · next hp => exact isNormal_normalize hp
  · next hp => exact isNormal_normalize (isAbsolute_join h (Bool.eq_false_iff.mpr hp))

theorem normalComponents_current (cs : List Component) :
    normalComponents (.current :: cs) = normalComponents cs := rfl

/-- The normal form of a joined path, which is the normal form of the second one where the first
one has no text. -/
theorem normalize_join (p : Path) {q : Path} (hq : q.isAbsolute = false) :
    (p.join q).normalize = ofComponents (normalComponents (p.components ++ q.steps)) := by
  by_cases hp : p.text = ""
  · rw [join_of_text_eq_empty hp, components_of_text_eq_empty hp, normalize, List.nil_append]
    rcases components_of_isRelative hq with h | h
    · rw [h]
    · rw [h, normalComponents_current]
  · rw [normalize, components_join hp hq]

/-- The normal absolute form of a path depends on the components of the path and of the root only,
however they are written. -/
theorem absolutize_congr {p q root root' : Path} (hroot : root.components = root'.components)
    (h : p.components = q.components) : p.absolutize root = q.absolutize root' := by
  have hsteps : p.steps = q.steps := by rw [steps_eq_filter, steps_eq_filter, h]
  have habsolute : p.isAbsolute = q.isAbsolute := by
    rw [Bool.eq_iff_iff, ← root_mem_components_iff, ← root_mem_components_iff, h]
  rw [absolutize, absolutize, habsolute]
  split
  · rw [normalize, normalize, h]
  · next hq =>
    have hq := Bool.eq_false_iff.mpr hq
    rw [normalize_join root (habsolute.trans hq), normalize_join root' hq, hroot, hsteps]

namespace IsNormal

variable {p q root : Path}

theorem components_eq (h : p.IsNormal) : p.components = .root :: p.steps :=
  components_of_isAbsolute h.isAbsolute

theorem normalComponents_eq (h : p.IsNormal) : normalComponents p.components = p.components := by
  rw [← components_normalize h.isAbsolute, h.normalize_eq]

theorem ofComponents_eq (h : p.IsNormal) : ofComponents p.components = p := by
  conv => rhs; rw [← h.normalize_eq]
  rw [normalize, h.normalComponents_eq]

/-- A normal path is determined by its components. -/
theorem ext (hp : p.IsNormal) (hq : q.IsNormal) (h : p.components = q.components) : p = q := by
  rw [← hp.ofComponents_eq, ← hq.ofComponents_eq, h]

theorem same_iff (hp : p.IsNormal) (hq : q.IsNormal) : p.same q = true ↔ p = q := by
  rw [Path.same_iff]
  exact ⟨hp.ext hq, fun h => by rw [h]⟩

theorem eq_ofComponents (h : p.IsNormal) : p = ofComponents (.root :: p.steps) := by
  rw [← h.components_eq, h.ofComponents_eq]

end IsNormal

/-! ## Relative to a root -/

theorem isIdle_render {c : Component} (h : c.IsStep) : isIdle c.render.toList = false := by
  rw [isIdle, h.ofPiece?_render]
  rfl

theorem dropPieces_piecesOfSteps {cs : List Component} (h : ∀ c ∈ cs, c.IsStep)
    (ds : List Component) :
    dropPieces cs.length (piecesOfSteps (cs ++ ds)) = piecesOfSteps ds := by
  induction cs with
  | nil => rw [List.length_nil, dropPieces, List.nil_append]
  | cons c cs ih =>
    rw [List.length_cons, List.cons_append, piecesOfSteps, List.map_cons, dropPieces,
      isIdle_render (h c List.mem_cons_self)]
    exact ih fun d hd => h d (List.mem_cons_of_mem _ hd)

theorem isIdle_of_mem_piecesOfSteps {cs : List Component} (h : ∀ c ∈ cs, c.IsStep) :
    ∀ piece ∈ piecesOfSteps cs, isIdle piece = false := by
  intro piece hpiece
  obtain ⟨c, hc, rfl⟩ := List.mem_map.mp hpiece
  exact isIdle_render (h c hc)

theorem dropWhile_isIdle_eq_self {pieces : List (List Char)}
    (h : ∀ piece ∈ pieces, isIdle piece = false) : pieces.dropWhile isIdle = pieces := by
  cases pieces with
  | nil => rfl
  | cons piece pieces => rw [List.dropWhile_cons_of_neg (by simp [h piece List.mem_cons_self])]

theorem trimEnd_eq_self {pieces : List (List Char)}
    (h : ∀ piece ∈ pieces, isIdle piece = false) : trimEnd pieces = pieces := by
  rw [trimEnd, dropWhile_isIdle_eq_self, List.reverse_reverse]
  exact fun piece hpiece => h piece (List.mem_reverse.mp hpiece)

/-- What stays of a root with steps when the root and some of the steps are dropped. -/
theorem dropComponents_ofComponents {cs ds : List Component} (h : ∀ c ∈ cs ++ ds, c.IsStep) :
    (ofComponents (.root :: (cs ++ ds))).dropComponents (cs.length + 1) =
      ⟨joinPieces (piecesOfSteps ds)⟩ := by
  have hcs : ∀ c ∈ cs, c.IsStep := fun c hc => h c (List.mem_append_left _ hc)
  have hds : ∀ d ∈ ds, d.IsStep := fun d hd => h d (List.mem_append_right _ hd)
  rw [dropComponents, if_neg (Nat.succ_ne_zero _),
    start?_of_isAbsolute (isAbsolute_ofComponents _)]
  by_cases hne : cs ++ ds = []
  · obtain ⟨rfl, rfl⟩ := List.append_eq_nil_iff.mp hne
    rfl
  · rw [bodyPieces_ofComponents hne h]
    show withStart none (trimEnd ((dropPieces cs.length _).dropWhile isIdle)) = _
    have hidle := isIdle_of_mem_piecesOfSteps hds
    rw [dropPieces_piecesOfSteps hcs, dropWhile_isIdle_eq_self hidle, trimEnd_eq_self hidle]
    rfl

theorem joinPieces_ne_empty {cs : List Component} (hne : cs ≠ []) (h : ∀ c ∈ cs, c.IsStep) :
    joinPieces (piecesOfSteps cs) ≠ "" := by
  intro hempty
  have hsteps := steps_joinPieces h
  rw [hempty] at hsteps
  exact hne hsteps.symm

variable {p root : Path}

theorem isWithin_iff : p.isWithin root = true ↔ root.components <+: p.components :=
  List.isPrefixOf_iff_prefix

theorem steps_eq_append (hp : p.IsNormal) (hr : root.IsNormal) {ds : List Component}
    (h : p.components = root.components ++ ds) : p.steps = root.steps ++ ds := by
  rw [hp.components_eq, hr.components_eq, List.cons_append] at h
  exact (List.cons.inj h).2

/-- What follows the components of a root are steps. -/
theorem isStep_of_components_eq_append (hp : p.IsNormal) (hr : root.IsNormal)
    {ds : List Component} (h : p.components = root.components ++ ds) : ∀ d ∈ ds, d.IsStep := by
  intro d hd
  have hmem : d ∈ p.steps := steps_eq_append hp hr h ▸ List.mem_append_right _ hd
  exact isStep_of_mem_steps hmem

/-- A normal path below a normal root is written as the steps that follow the root, and as a dot
where there are none. -/
theorem relativeTo_of_append (hp : p.IsNormal) (hr : root.IsNormal) {ds : List Component}
    (h : p.components = root.components ++ ds) :
    p.relativeTo root = if ds = [] then ⟨"."⟩ else ⟨joinPieces (piecesOfSteps ds)⟩ := by
  have hsteps := steps_eq_append hp hr h
  have hstep : ∀ c ∈ root.steps ++ ds, c.IsStep := fun c hc =>
    isStep_of_mem_steps (hsteps ▸ hc)
  have hdrop : p.dropComponents root.components.length = ⟨joinPieces (piecesOfSteps ds)⟩ := by
    rw [hp.eq_ofComponents, hsteps, hr.components_eq]
    exact dropComponents_ofComponents hstep
  have hwithin : p.isWithin root = true := isWithin_iff.mpr ⟨ds, h.symm⟩
  rw [relativeTo, strip?, if_pos hwithin, hdrop]
  by_cases hds : ds = []
  · subst hds
    rfl
  · have hne := joinPieces_ne_empty hds fun d hd => hstep d (List.mem_append_right _ hd)
    simp [hds, hne]

theorem relativeTo_of_not_isWithin (h : ¬ p.isWithin root = true) : p.relativeTo root = p := by
  rw [relativeTo, strip?, if_neg h]

/-- A relative path with the steps that follow the root stands for the path again. -/
theorem absolutize_of_steps (hp : p.IsNormal) (hr : root.IsNormal) {q : Path}
    (hq : q.isAbsolute = false) (h : p.components = root.components ++ q.steps) :
    q.absolutize root = p := by
  have hne : root.text ≠ "" := text_ne_empty_of_isAbsolute hr.isAbsolute
  have hjoin : (root.join q).components = p.components := by
    rw [components_of_isAbsolute (isAbsolute_join hr.isAbsolute hq), steps_join hne hq, h,
      hr.components_eq]
    rfl
  rw [absolutize, hq]
  show (root.join q).normalize = p
  rw [normalize, hjoin, hp.normalComponents_eq, hp.ofComponents_eq]

/-- **Taking a root off and putting it back.** A normal path that is written relative to a normal
root, below it, at it or beside it, stands for the same path. -/
theorem absolutize_relativeTo (hp : p.IsNormal) (hr : root.IsNormal) :
    (p.relativeTo root).absolutize root = p := by
  by_cases hwithin : p.isWithin root = true
  · obtain ⟨ds, hds⟩ := isWithin_iff.mp hwithin
    rw [relativeTo_of_append hp hr hds.symm]
    by_cases hnil : ds = []
    · subst hnil
      exact absolutize_of_steps hp hr (by decide) hds.symm
    · have hstep := isStep_of_components_eq_append hp hr hds.symm
      rw [if_neg hnil]
      exact absolutize_of_steps hp hr (isAbsolute_joinPieces hstep)
        (by rw [steps_joinPieces hstep, hds])
  · rw [relativeTo_of_not_isWithin hwithin, absolutize, if_pos hp.isAbsolute, hp.normalize_eq]

/-- A path relative to a root has a text. -/
theorem text_relativeTo_ne_empty (hp : p.isAbsolute = true) :
    (p.relativeTo root).text.toList ≠ [] := by
  rw [relativeTo]
  split
  · split
    · decide
    · next hne => simpa using hne
  · obtain ⟨rest, hrest⟩ := toList_of_isAbsolute hp
    rw [hrest]
    exact List.cons_ne_nil _ _

end BuildMatrix.Path
