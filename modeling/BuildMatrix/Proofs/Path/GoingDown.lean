import BuildMatrix.Proofs.Path.Place

/-!
# Paths that only go down

Such a path, in its normal form, is told by the names on it. So different ones lead to different
places, from one folder as well as from the root, and from two folders if they have equally many
names.

* `Path.GoesDown`: whether a path has no steps to the parent and is its own normal form.
* `Path.GoesDown.eq_of_resolveFrom_eq`: two of them that go down from one folder, or equally far
  down.
* `Path.GoesDown.eq_of_isAbsolute`: two of them from the root.
-/

namespace BuildMatrix

namespace Path

variable {p q : Path}

/-- Whether a path has no steps to the parent and is its own normal form. -/
structure GoesDown (p : Path) : Prop where
  parents_eq : p.parents = 0
  normalize_eq : p.normalize = p

/-- Steps that only go down are added to the names of a route. -/
theorem foldl_step_of_parent_notMem {cs : List Component} (h : .parent ∉ cs) (r : Route) :
    cs.foldl Route.step r = ⟨r.ups, (cs.foldl Route.step {}).names ++ r.names⟩ := by
  induction cs generalizing r with
  | nil => rfl
  | cons c cs ih =>
    rw [List.mem_cons, not_or] at h
    cases c with
    | root => exact ih h.2 r
    | current => exact ih h.2 r
    | parent => exact absurd rfl h.1
    | name s =>
      have hname : Route.step {} (.name s) = ⟨0, [s]⟩ := rfl
      rw [List.foldl_cons, List.foldl_cons, ih h.2, ih h.2 (Route.step {} (.name s)), hname,
        List.append_assoc]
      rfl

theorem isAbsolute_join_of_isRelative (d : Path) (hp : p.isAbsolute = false) :
    (d.join p).isAbsolute = d.isAbsolute := by
  by_cases hd : d.text = ""
  · have hnone : d.isAbsolute = false := by
      rw [isAbsolute, hd]
      rfl
    rw [join_of_text_eq_empty hd, hp, hnone]
  · exact isAbsolute_join_eq hd hp

namespace GoesDown

theorem parent_notMem (h : p.GoesDown) : .parent ∉ p.steps := by
  have hnone : .parent ∉ p.components := List.count_eq_zero.mp h.parents_eq
  rw [components_eq] at hnone
  exact fun hmem => hnone (List.mem_append_right _ hmem)

theorem ups_eq (h : p.GoesDown) : p.route.ups = 0 :=
  Nat.le_zero.mp (h.parents_eq ▸ ups_route_le_parents p)

/-- The names of a path that goes down tell it. -/
theorem ext (hp : p.GoesDown) (hq : q.GoesDown) (habsolute : p.isAbsolute = q.isAbsolute)
    (hnames : p.route.names = q.route.names) : p = q := by
  rw [← hp.normalize_eq, ← hq.normalize_eq]
  exact normalize_congr habsolute (by rw [hp.ups_eq, hq.ups_eq]) hnames

theorem route_join (hp : p.GoesDown) (hrelative : p.isAbsolute = false) (d : Path) :
    (d.join p).route = ⟨d.route.ups, p.route.names ++ d.route.names⟩ := by
  by_cases hd : d.text = ""
  · have hroute : d.route = {} := by
      rw [route, steps_eq_filter, components_of_text_eq_empty hd]
      rfl
    rw [join_of_text_eq_empty hd, hroute, List.append_nil, ← hp.ups_eq]
  · rw [route, steps_join hd hrelative, List.foldl_append,
      foldl_step_of_parent_notMem hp.parent_notMem]
    rfl

/-- A path that goes down from a folder adds its names to the place of the folder. -/
theorem resolveFrom_normalize_join (hp : p.GoesDown) (hrelative : p.isAbsolute = false) (d : Path)
    (here : List String) :
    (d.join p).normalize.resolveFrom here = p.route.names ++ d.normalize.resolveFrom here := by
  have hjoin := isAbsolute_join_of_isRelative d hrelative
  by_cases hd : d.isAbsolute = true
  · rw [resolveFrom_normalize_of_isAbsolute (hjoin.trans hd),
      resolveFrom_of_isAbsolute (hjoin.trans hd), hp.route_join hrelative,
      resolveFrom_normalize_of_isAbsolute hd, resolveFrom_of_isAbsolute hd]
  · have hd := Bool.eq_false_iff.mpr hd
    rw [resolveFrom_normalize_of_isRelative (hjoin.trans hd), hp.route_join hrelative,
      resolveFrom_normalize_of_isRelative hd, Route.place, Route.place, List.append_assoc]

theorem length_names_route (hp : p.GoesDown) : p.route.names.length = p.depth := by
  have hlength := length_names_foldl_step (fun _ hc => isStep_of_mem_steps hc)
    (List.count_eq_zero.mpr hp.parent_notMem) {}
  rw [route, hlength]
  exact Nat.zero_add _

/-- Paths that go down from one folder, or equally far down, lead to one place only if they are the
same. -/
theorem eq_of_resolveFrom_eq (hp : p.GoesDown) (hq : q.GoesDown) (hprelative : p.isAbsolute = false)
    (hqrelative : q.isAbsolute = false) {d e : Path} (hmeet : d = e ∨ p.depth = q.depth)
    {here : List String}
    (h : (d.join p).normalize.resolveFrom here = (e.join q).normalize.resolveFrom here) :
    p = q := by
  rw [hp.resolveFrom_normalize_join hprelative, hq.resolveFrom_normalize_join hqrelative] at h
  refine hp.ext hq (hprelative.trans hqrelative.symm) ?_
  rcases hmeet with rfl | hdepth
  · exact List.append_cancel_right h
  · rw [← hp.length_names_route, ← hq.length_names_route] at hdepth
    exact List.append_inj_left h hdepth

/-- Paths that go down from the root lead to one place only if they are the same. -/
theorem eq_of_isAbsolute (hp : p.GoesDown) (hq : q.GoesDown) (hpabsolute : p.isAbsolute = true)
    (hqabsolute : q.isAbsolute = true) {here : List String}
    (h : p.resolveFrom here = q.resolveFrom here) : p = q := by
  rw [resolveFrom_of_isAbsolute hpabsolute, resolveFrom_of_isAbsolute hqabsolute] at h
  exact hp.ext hq (hpabsolute.trans hqabsolute.symm) h

end GoesDown

end Path

end BuildMatrix
