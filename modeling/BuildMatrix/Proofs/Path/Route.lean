import BuildMatrix.Path.Normal
import BuildMatrix.Proofs.Path.Components

/-!
# Routes

The *route* of a path says what its steps come to: so many steps up, and then some names down. It
follows from letting each step to the parent cancel the name before it.

The normal form of a path cancels more than that. A step to the parent that has no name before it
stays, but the next one of this kind takes it away, so that two steps up become none.

* `Route.foldl_eq`: what follows a route step by step follows it to its end.
* `Path.normalComponents_components`: the normal form keeps the names of the route, and a step up
  if the route has an odd number of them.
* `Path.route_normalize`, `Path.normalize_congr`: normal forms and their routes.
* `Path.normalize_normalize`: normal forms are their own normal forms.
-/

namespace BuildMatrix

/-- What the steps of a path come to. -/
structure Route where
  /-- The steps up. -/
  ups : Nat := 0
  /-- The names down, last one first. -/
  names : List String := []
  deriving DecidableEq, Repr

namespace Route

/-- The route that goes on with a component. -/
def step (r : Route) : Component → Route
  | .root | .current => r
  | .parent =>
    match r.names with
    | [] => ⟨r.ups + 1, []⟩
    | _ :: rest => ⟨r.ups, rest⟩
  | .name s => ⟨r.ups, s :: r.names⟩

/-- The components that are kept of a route, last one first, after the start `base`: of the steps
up each second one takes the one before it away. -/
def kept (r : Route) (base : List Component) : List Component :=
  r.names.map .name ++ (List.replicate (r.ups % 2) .parent ++ base)

/-! ## Following a route -/

/-- What follows a route step by step follows it to its end. -/
theorem foldl_eq {α : Type} {f : α → Component → α} {g : Route → α}
    (hstep : ∀ (r : Route) {c : Component}, c.IsStep → f (g r) c = g (r.step c))
    {cs : List Component} (hcs : ∀ c ∈ cs, c.IsStep) (r : Route) :
    cs.foldl f (g r) = g (cs.foldl step r) := by
  induction cs generalizing r with
  | nil => rfl
  | cons c cs ih =>
    rw [List.foldl_cons, List.foldl_cons, hstep r (hcs c List.mem_cons_self)]
    exact ih (fun d hd => hcs d (List.mem_cons_of_mem _ hd)) (r.step c)

/-- No step goes up that is not a step to the parent. -/
theorem ups_step_le (r : Route) (c : Component) :
    (r.step c).ups ≤ r.ups + [c].count .parent := by
  cases c with
  | root => exact Nat.le_add_right _ _
  | current => exact Nat.le_add_right _ _
  | name s => exact Nat.le_add_right _ _
  | parent =>
    obtain ⟨ups, names⟩ := r
    cases names with
    | nil => exact Nat.le_refl _
    | cons s rest => exact Nat.le_add_right _ _

theorem ups_foldl_step_le (cs : List Component) (r : Route) :
    (cs.foldl step r).ups ≤ r.ups + cs.count .parent := by
  induction cs generalizing r with
  | nil => exact Nat.le_refl _
  | cons c cs ih =>
    have hstep := ups_step_le r c
    have hrest := ih (r.step c)
    have hcount : (c :: cs).count .parent = [c].count .parent + cs.count .parent := by
      rw [← List.singleton_append, List.count_append]
    rw [List.foldl_cons, hcount]
    omega

/-- The names of a route are names of its steps. -/
theorem mem_names_foldl_step {cs : List Component} {r : Route} {s : String}
    (h : s ∈ (cs.foldl step r).names) : s ∈ r.names ∨ .name s ∈ cs := by
  induction cs generalizing r with
  | nil => exact Or.inl h
  | cons c cs ih =>
    rcases ih h with hs | hs
    · cases c with
      | root => exact Or.inl hs
      | current => exact Or.inl hs
      | name t =>
        rcases List.mem_cons.mp hs with rfl | hs
        · exact Or.inr List.mem_cons_self
        · exact Or.inl hs
      | parent =>
        obtain ⟨ups, names⟩ := r
        cases names with
        | nil => exact absurd hs (by simp [step])
        | cons t rest => exact Or.inl (List.mem_cons_of_mem _ hs)
    · exact Or.inr (List.mem_cons_of_mem _ hs)

/-! ## What is kept of a route -/

theorem replicate_succ_mod_two (n : Nat) (base : List Component) :
    n % 2 = 0 ∧ List.replicate ((n + 1) % 2) Component.parent ++ base = .parent :: base ∨
      n % 2 = 1 ∧ List.replicate ((n + 1) % 2) Component.parent ++ base = base := by
  rcases Nat.mod_two_eq_zero_or_one n with h | h
  · have hsucc : (n + 1) % 2 = 1 := by omega
    exact Or.inl ⟨h, by rw [hsucc]; rfl⟩
  · have hsucc : (n + 1) % 2 = 0 := by omega
    exact Or.inr ⟨h, by rw [hsucc]; rfl⟩

/-- A step of the normal form is a step of the route. -/
theorem normalStep_kept {base : List Component} (hbase : base = [] ∨ base = [.root]) (r : Route)
    {c : Component} (hc : c.IsStep) :
    Path.normalStep (r.kept base) c = (r.step c).kept base := by
  cases c with
  | root => exact absurd rfl hc.ne_root
  | current => exact absurd rfl hc.ne_current
  | name s => rfl
  | parent =>
    obtain ⟨ups, names⟩ := r
    cases names with
    | nil =>
      -- The second of two steps up finds the first one and takes it away.
      show Path.normalStep (List.replicate (ups % 2) .parent ++ base) .parent =
        List.replicate ((ups + 1) % 2) .parent ++ base
      rcases replicate_succ_mod_two ups base with ⟨hmod, hsucc⟩ | ⟨hmod, hsucc⟩
      · rw [hsucc, hmod]
        rcases hbase with rfl | rfl <;> rfl
      · rw [hsucc, hmod]
        rcases hbase with rfl | rfl <;> rfl
    | cons s rest =>
      show Path.normalStep (.name s :: kept ⟨ups, rest⟩ base) .parent = kept ⟨ups, rest⟩ base
      rfl

theorem kept_root (r : Route) : (r.kept [.root]).reverse = .root :: (r.kept []).reverse := by
  simp [kept]

theorem foldl_step_replicate_parent (n : Nat) (ups : Nat) :
    (List.replicate n Component.parent).foldl step ⟨ups, []⟩ = ⟨ups + n, []⟩ := by
  induction n generalizing ups with
  | zero => rfl
  | succ n ih =>
    rw [List.replicate_succ, List.foldl_cons]
    show (List.replicate n Component.parent).foldl step ⟨ups + 1, []⟩ = ⟨ups + (n + 1), []⟩
    rw [ih, Nat.add_right_comm, Nat.add_assoc]

theorem foldl_step_names (names : List String) (ups : Nat) :
    (names.map Component.name).reverse.foldl step ⟨ups, []⟩ = ⟨ups, names⟩ := by
  induction names with
  | nil => rfl
  | cons s names ih =>
    rw [List.map_cons, List.reverse_cons, List.foldl_append, ih]
    rfl

/-- What is kept of a route has at most one step up and all the names. -/
theorem foldl_step_kept (r : Route) :
    (r.kept []).reverse.foldl step {} = ⟨r.ups % 2, r.names⟩ := by
  rw [kept, List.append_nil, List.reverse_append, List.reverse_replicate, List.foldl_append,
    foldl_step_replicate_parent, foldl_step_names, Nat.zero_add]

end Route

namespace Path

variable {p q : Path}

/-! ## Routes of paths -/

/-- The route of a path, its start left out. -/
def route (p : Path) : Route :=
  p.steps.foldl Route.step {}

theorem isStep_parent : Component.parent.IsStep :=
  ⟨rfl, by decide⟩

theorem isStep_of_mem_kept {c : Component} (hc : c ∈ p.route.kept []) : c.IsStep := by
  rw [Route.kept, List.append_nil] at hc
  rcases List.mem_append.mp hc with hc | hc
  · obtain ⟨s, hs, rfl⟩ := List.mem_map.mp hc
    rcases Route.mem_names_foldl_step hs with hs | hs
    · exact absurd hs (by simp)
    · exact isStep_of_mem_steps hs
  · rw [List.eq_of_mem_replicate hc]
    exact isStep_parent

/-- The normal components of a path are what is kept of its route, after the root if it is there. -/
theorem normalComponents_components (p : Path) :
    normalComponents p.components =
      (p.route.kept (if p.isAbsolute then [.root] else [])).reverse := by
  have hsteps : ∀ c ∈ p.steps, c.IsStep := fun _ hc => isStep_of_mem_steps hc
  rw [normalComponents]
  by_cases hp : p.isAbsolute = true
  · rw [if_pos hp, components_of_isAbsolute hp]
    have hfold := Route.foldl_eq (Route.normalStep_kept (Or.inr rfl)) hsteps {}
    exact congrArg List.reverse hfold
  · rw [if_neg hp]
    have hfold := Route.foldl_eq (Route.normalStep_kept (Or.inl rfl)) hsteps {}
    rcases components_of_isRelative (Bool.eq_false_iff.mpr hp) with h | h
    · rw [h]
      exact congrArg List.reverse hfold
    · rw [h]
      exact congrArg List.reverse hfold

/-! ## Normal forms -/

theorem normalize_of_isAbsolute (hp : p.isAbsolute = true) :
    p.normalize = ofComponents (.root :: (p.route.kept []).reverse) := by
  rw [normalize, normalComponents_components, if_pos hp, Route.kept_root]

theorem normalize_of_isRelative (hp : p.isAbsolute = false) :
    p.normalize = ofComponents (p.route.kept []).reverse := by
  rw [normalize, normalComponents_components, hp]
  rfl

theorem isAbsolute_normalize (p : Path) : p.normalize.isAbsolute = p.isAbsolute := by
  by_cases hp : p.isAbsolute = true
  · rw [normalize_of_isAbsolute hp, isAbsolute_ofComponents, hp]
  · have hp := Bool.eq_false_iff.mpr hp
    have hkept : ∀ c ∈ (p.route.kept []).reverse, c.IsStep :=
      fun c hc => isStep_of_mem_kept (List.mem_reverse.mp hc)
    rw [normalize_of_isRelative hp, ofComponents_steps hkept, isAbsolute_joinPieces hkept, hp]

/-- The steps of the normal form are what is kept of the route. -/
theorem steps_normalize (p : Path) : p.normalize.steps = (p.route.kept []).reverse := by
  have hkept : ∀ c ∈ (p.route.kept []).reverse, c.IsStep :=
    fun c hc => isStep_of_mem_kept (List.mem_reverse.mp hc)
  by_cases hp : p.isAbsolute = true
  · have hcomponents := components_ofComponents hkept
    rw [← normalize_of_isAbsolute hp,
      components_of_isAbsolute ((isAbsolute_normalize p).trans hp)] at hcomponents
    exact (List.cons.inj hcomponents).2
  · rw [normalize_of_isRelative (Bool.eq_false_iff.mpr hp), ofComponents_steps hkept,
      steps_joinPieces hkept]

/-- The route of the normal form has at most one step up. -/
theorem route_normalize (p : Path) : p.normalize.route = ⟨p.route.ups % 2, p.route.names⟩ := by
  rw [route, steps_normalize, Route.foldl_step_kept]

/-- Normal forms depend on routes only, and of the steps up on their parity. -/
theorem normalize_congr (habsolute : p.isAbsolute = q.isAbsolute)
    (hups : p.route.ups % 2 = q.route.ups % 2) (hnames : p.route.names = q.route.names) :
    p.normalize = q.normalize := by
  rw [normalize, normalize, normalComponents_components, normalComponents_components, Route.kept,
    Route.kept, habsolute, hups, hnames]

/-- Normal forms are their own normal forms. -/
theorem normalize_normalize (p : Path) : p.normalize.normalize = p.normalize := by
  have hroute := route_normalize p
  exact normalize_congr (isAbsolute_normalize p) (by rw [hroute, Nat.mod_mod]) (by rw [hroute])

end Path

end BuildMatrix
