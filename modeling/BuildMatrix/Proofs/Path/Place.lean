import BuildMatrix.Proofs.Path.Route

/-!
# Places

A *place* is a folder, given by the names on the way to it from the root. A path leads from place to
place, one component after the other: a name goes down, a step to the parent goes up, and the parent
of the root is the root. A relative path leads where its route does, up first and then down. So its
normal form leads to the same place only as long as there is at most one step up.

* `Path.resolveFrom_eq`: a relative path leads where its route does.
* `Path.resolveFrom_join`: a joined path leads where its second part does from where the first
  part leads.
* `Path.resolveFrom_normalize_iff`: the normal form leads to the same place as the path exactly if
  there is at most one step up, or none counts because the path starts at the root.
* `Route.place_suffix_iff`: which routes lead to a folder at or above the one where they start.
-/

namespace BuildMatrix

/-! ## Where paths lead -/

/-- Where a component leads from a place. The names of a place are in reverse order, with the name
of the folder itself first. -/
def Component.move (here : List String) : Component → List String
  | .root => []
  | .current => here
  | .parent => here.tail
  | .name s => s :: here

/-- Where a route leads. -/
def Route.place (r : Route) (here : List String) : List String :=
  r.names ++ here.drop r.ups

namespace Path

/-- Where a path leads from a place. -/
def resolveFrom (p : Path) (here : List String) : List String :=
  p.components.foldl Component.move here

/-- Where a path leads from the root. -/
def place (p : Path) : List String :=
  p.resolveFrom []

/-- The number of steps to the parent in a path. -/
def parents (p : Path) : Nat :=
  p.components.count .parent

/-- The number of folders below the root on the way to a path without steps to the parent. -/
def depth (p : Path) : Nat :=
  p.steps.length

/-- Whether a path begins at the root and then only goes down. -/
structure IsPlain (p : Path) : Prop where
  isAbsolute : p.isAbsolute = true
  parents_eq : p.parents = 0

end Path

namespace Route

/-- A step leads where the route that goes on with it does. -/
theorem move_place (here : List String) (r : Route) {c : Component} (hc : c.IsStep) :
    Component.move (r.place here) c = (r.step c).place here := by
  cases c with
  | root => exact absurd rfl hc.ne_root
  | current => exact absurd rfl hc.ne_current
  | name s => rfl
  | parent =>
    obtain ⟨ups, names⟩ := r
    cases names with
    | nil => exact List.tail_drop
    | cons s rest => rfl

/-- A route leads to a place at or above its start exactly if its names lead back over the steps
that it went up. -/
theorem place_suffix_iff {r : Route} {here : List String} :
    r.place here <:+ here ↔ r.names <:+ here.take r.ups := by
  have hsplit : here = here.take r.ups ++ here.drop r.ups := (List.take_append_drop _ _).symm
  rw [place]
  conv => lhs; rhs; rw [hsplit]
  exact List.suffix_append_self_iff

end Route

namespace Path

variable {p q d : Path}

theorem foldl_move_steps (p : Path) (here : List String) :
    p.steps.foldl Component.move here = p.route.place here :=
  Route.foldl_eq (Route.move_place here) (fun _ hc => isStep_of_mem_steps hc) {}

/-- A relative path leads where its route does. -/
theorem resolveFrom_eq (hp : p.isAbsolute = false) (here : List String) :
    p.resolveFrom here = p.route.place here := by
  rw [resolveFrom, ← foldl_move_steps]
  rcases components_of_isRelative hp with h | h
  · rw [h]
  · rw [h]
    rfl

/-- A path from the root leads to the names of its route, wherever it starts. -/
theorem resolveFrom_of_isAbsolute (hp : p.isAbsolute = true) (here : List String) :
    p.resolveFrom here = p.route.names := by
  have hsteps := foldl_move_steps p []
  rw [Route.place, List.drop_nil, List.append_nil] at hsteps
  rw [resolveFrom, components_of_isAbsolute hp, ← hsteps]
  rfl

theorem place_of_isAbsolute (hp : p.isAbsolute = true) : p.place = p.route.names :=
  resolveFrom_of_isAbsolute hp []

/-- A joined path leads where its second part does from where the first part leads. -/
theorem resolveFrom_join (p q : Path) (here : List String) :
    (p.join q).resolveFrom here = q.resolveFrom (p.resolveFrom here) := by
  by_cases hq : q.isAbsolute = true
  · rw [join_of_isAbsolute p hq, resolveFrom_of_isAbsolute hq, resolveFrom_of_isAbsolute hq]
  · have hq := Bool.eq_false_iff.mpr hq
    by_cases hp : p.text = ""
    · have hstay : p.resolveFrom here = here := by
        rw [resolveFrom, components_of_text_eq_empty hp]
        rfl
      rw [join_of_text_eq_empty hp, hstay]
    · rw [resolveFrom, components_join hp hq, List.foldl_append, resolveFrom_eq hq,
        ← foldl_move_steps, resolveFrom]

theorem place_join (d p : Path) : (d.join p).place = p.resolveFrom d.place :=
  resolveFrom_join d p []

theorem ups_route_le_parents (p : Path) : p.route.ups ≤ p.parents := by
  have hups := Route.ups_foldl_step_le p.steps {}
  have hsub : p.steps.Sublist p.components := by
    rw [components_eq]
    exact List.sublist_append_right _ _
  calc p.route.ups ≤ 0 + p.steps.count .parent := hups
    _ = p.steps.count .parent := Nat.zero_add _
    _ ≤ p.parents := hsub.count_le Component.parent

/-! ## Where normal forms lead -/

/-- The normal form of a path from the root leads where the path does. -/
theorem resolveFrom_normalize_of_isAbsolute (hp : p.isAbsolute = true) (here : List String) :
    p.normalize.resolveFrom here = p.resolveFrom here := by
  rw [resolveFrom_of_isAbsolute ((isAbsolute_normalize p).trans hp), route_normalize,
    resolveFrom_of_isAbsolute hp]

/-- The normal form of a relative path leads up one step or none, and then where the path leads. -/
theorem resolveFrom_normalize_of_isRelative (hp : p.isAbsolute = false) (here : List String) :
    p.normalize.resolveFrom here = Route.place ⟨p.route.ups % 2, p.route.names⟩ here := by
  rw [resolveFrom_eq ((isAbsolute_normalize p).trans hp), route_normalize]

/-- The normal form leads where the path does as long as it has to go up one step at most. -/
theorem resolveFrom_normalize (h : p.isAbsolute = true ∨ p.route.ups ≤ 1) (here : List String) :
    p.normalize.resolveFrom here = p.resolveFrom here := by
  by_cases hp : p.isAbsolute = true
  · exact resolveFrom_normalize_of_isAbsolute hp here
  · have hrelative := Bool.eq_false_iff.mpr hp
    have hmod : p.route.ups % 2 = p.route.ups := by
      have hups := h.resolve_left hp
      omega
    rw [resolveFrom_normalize_of_isRelative hrelative, hmod, resolveFrom_eq hrelative]

/-- Two ways up from a place that is deep enough are equally long if they lead to the same place. -/
theorem drop_inj {here : List String} {m n : Nat} (hm : m ≤ here.length) (hn : n ≤ here.length)
    (h : here.drop m = here.drop n) : m = n := by
  have hlength := congrArg List.length h
  rw [List.length_drop, List.length_drop] at hlength
  omega

/-- From a place that is deep enough the normal form leads where the path does only if there is at
most one step up. -/
theorem resolveFrom_normalize_iff {here : List String} (hhere : p.parents ≤ here.length) :
    p.normalize.resolveFrom here = p.resolveFrom here ↔
      p.isAbsolute = true ∨ p.route.ups ≤ 1 := by
  refine ⟨fun h => ?_, fun h => resolveFrom_normalize h here⟩
  by_cases hp : p.isAbsolute = true
  · exact Or.inl hp
  · have hrelative := Bool.eq_false_iff.mpr hp
    have hups : p.route.ups ≤ here.length := Nat.le_trans (ups_route_le_parents p) hhere
    have hmod : p.route.ups % 2 ≤ here.length := Nat.le_trans (Nat.mod_le _ 2) hups
    rw [resolveFrom_normalize_of_isRelative hrelative, resolveFrom_eq hrelative] at h
    have heq := drop_inj hmod hups (List.append_cancel_left h)
    refine Or.inr ?_
    omega

/-! ## Plain paths -/

/-- The route of steps that only go down has all their names. -/
theorem length_names_foldl_step {cs : List Component} (hcs : ∀ c ∈ cs, c.IsStep)
    (h : cs.count .parent = 0) (r : Route) :
    (cs.foldl Route.step r).names.length = r.names.length + cs.length := by
  induction cs generalizing r with
  | nil => rfl
  | cons c cs ih =>
    have hc := hcs c List.mem_cons_self
    have hcs' : ∀ d ∈ cs, d.IsStep := fun d hd => hcs d (List.mem_cons_of_mem _ hd)
    cases c with
    | root => exact absurd rfl hc.ne_root
    | current => exact absurd rfl hc.ne_current
    | parent => exact absurd List.mem_cons_self (List.count_eq_zero.mp h)
    | name s =>
      have hrest : cs.count .parent = 0 := by
        rwa [List.count_cons_of_ne (by simp)] at h
      rw [List.foldl_cons, ih hcs' hrest]
      show r.names.length + 1 + cs.length = r.names.length + (cs.length + 1)
      omega

theorem IsPlain.length_place (hd : d.IsPlain) : d.place.length = d.depth := by
  have hparents : d.steps.count .parent = 0 := by
    have hcount : d.components.count .parent = 0 := hd.parents_eq
    rwa [components_of_isAbsolute hd.isAbsolute, List.count_cons_of_ne (by simp)] at hcount
  have hlength := length_names_foldl_step (fun _ hc => isStep_of_mem_steps hc) hparents {}
  rw [place_of_isAbsolute hd.isAbsolute, depth, route, hlength]
  exact Nat.zero_add _

end Path

end BuildMatrix
