import BuildMatrix.Proofs.Disk.Frame

/-!
# Names below a folder

In a tree whose names are steps of paths, what is below a folder is reached by its names, in paths as
well as in the tree.

* `FileTree.IsNamed`: a tree with names that are steps of a path.
* `FileTree.IsNamed.isStep_of_get?`: so are names that lead to something.
* `Path.descend`, `Path.components_descend`: names that are followed from a folder.
* `Disk.Has.get?_of_find_descend`: what such a path names is what the names lead to.
-/

namespace BuildMatrix

/-! ## Trees with names -/

/-- Whether each name in a tree is a step of a path: it is neither empty nor made of dots that say
something else, and there is no slash in it. -/
inductive FileTree.IsNamed : FileTree → Prop
  | file (content : Content) : IsNamed (.file content)
  | folder {children : List (String × FileTree)}
      (name : ∀ c ∈ children, (Component.name c.1).IsStep)
      (tree : ∀ c ∈ children, IsNamed c.2) : IsNamed (.folder children)

namespace FileTree

theorem mem_of_lookup {cs : List (String × FileTree)} {n : String} {c : FileTree}
    (h : cs.lookup n = some c) : (n, c) ∈ cs := by
  obtain ⟨before, after, hsplit, -⟩ := List.lookup_eq_some_iff.mp h
  exact hsplit ▸ List.mem_append_right before List.mem_cons_self

namespace IsNamed

variable {t u : FileTree} {place : List String}

/-- What names lead to has names, and so have the names themselves. -/
theorem of_get?_eq_some (h : t.IsNamed) (hu : t.get? place = some u) :
    u.IsNamed ∧ ∀ n ∈ place, (Component.name n).IsStep := by
  induction place generalizing t with
  | nil => exact ⟨Option.some.inj hu ▸ h, List.forall_mem_nil _⟩
  | cons m place ih =>
    rw [get?_cons] at hu
    obtain ⟨c, hlookup, hget⟩ := Option.bind_eq_some_iff.mp hu
    cases h with
    | file content => exact absurd hlookup nofun
    | folder hname htree =>
      have hmem := mem_of_lookup hlookup
      obtain ⟨hnamed, hplace⟩ := ih (htree (m, c) hmem) hget
      exact ⟨hnamed, List.forall_mem_cons.mpr ⟨hname (m, c) hmem, hplace⟩⟩

theorem get? (h : t.IsNamed) (hu : t.get? place = some u) : u.IsNamed :=
  (h.of_get?_eq_some hu).1

/-- Names that lead to something are steps. -/
theorem isStep_of_get? (h : t.IsNamed) (hu : (t.get? place).isSome) :
    ∀ n ∈ place, (Component.name n).IsStep := by
  obtain ⟨u, hu⟩ := Option.isSome_iff_exists.mp hu
  exact (h.of_get?_eq_some hu).2

end IsNamed

end FileTree

theorem Disk.isNamed_of_find {d : Disk} (h : d.tree.IsNamed) {p : Path} {t : FileTree}
    (ht : d.find p = .ok t) : t.IsNamed := by
  obtain ⟨place, -, hget⟩ := find_eq_ok_iff.mp ht
  exact h.get? hget

theorem Disk.text_ne_empty_of_find {d : Disk} {p : Path} {t : FileTree}
    (ht : d.find p = .ok t) : p.text ≠ "" := by
  intro hempty
  rw [find, locate, hempty] at ht
  cases ht

/-! ## Paths that go on by names -/

theorem Component.name_injective : Function.Injective Component.name :=
  fun _ _ h => Component.name.inj h

namespace Path

variable {p : Path} {names : List String}

/-- The components of names. -/
def named (names : List String) : List Component :=
  names.map Component.name

theorem steps_of_components_eq_named (h : p.components = named names) : p.steps = named names := by
  rw [steps_eq_filter, h, List.filter_eq_self]
  intro c hc
  obtain ⟨n, -, rfl⟩ := List.mem_map.mp hc
  rfl

/-- The beginnings of components that go on by names. -/
theorem prefix_or_of_prefix_append_named {base cs : List Component}
    (h : cs <+: base ++ named names) :
    cs <+: base ∨ ∃ above, above <+: names ∧ cs = base ++ named above := by
  rcases List.prefix_or_prefix_of_prefix h (List.prefix_append _ _) with hbase | ⟨ds, rfl⟩
  · exact Or.inl hbase
  · rw [List.prefix_append_right_inj, named, List.prefix_map_iff] at h
    obtain ⟨above, habove, rfl⟩ := h
    exact Or.inr ⟨above, habove, rfl⟩

/-- A child is one name further down. -/
theorem components_child (hp : p.text ≠ "") {name : String}
    (hname : (Component.name name).IsStep) :
    (p.child name).components = p.components ++ [.name name] := by
  have hmem : ∀ c ∈ [Component.name name], c.IsStep := fun c hc => List.mem_singleton.mp hc ▸ hname
  have hwritten : joinPieces (piecesOfSteps [.name name]) = name := by
    simp [joinPieces, piecesOfSteps, Component.render]
  have hsteps := steps_joinPieces hmem
  have hrelative := isAbsolute_joinPieces hmem
  rw [hwritten] at hsteps hrelative
  rw [child, components_join hp hrelative, hsteps]

theorem text_child_ne_empty (hp : p.text ≠ "") {name : String}
    (hname : (Component.name name).IsStep) : (p.child name).text ≠ "" := by
  intro hempty
  have hcomponents := components_of_text_eq_empty hempty
  rw [components_child hp hname] at hcomponents
  exact absurd hcomponents (by simp)

/-- The path that follows names from a folder. -/
def descend (p : Path) (names : List String) : Path :=
  names.foldl child p

theorem child_descend (p : Path) (names : List String) (n : String) :
    (p.descend names).child n = p.descend (names ++ [n]) := by
  rw [descend, descend, List.foldl_append]
  rfl

theorem components_descend (hp : p.text ≠ "") (h : ∀ n ∈ names, (Component.name n).IsStep) :
    (p.descend names).components = p.components ++ named names := by
  induction names generalizing p with
  | nil => exact (List.append_nil _).symm
  | cons n names ih =>
    have hn := h n List.mem_cons_self
    have hrest := ih (p := p.child n) (text_child_ne_empty hp hn)
      fun m hm => h m (List.mem_cons_of_mem _ hm)
    rw [components_child hp hn, List.append_assoc] at hrest
    exact hrest

end Path

namespace Disk

variable {d : Disk} {p : Path} {cwd place names : List String} {t u : FileTree}

/-- Where a way leads that goes on by names. -/
theorem landing_append_named (cwd : List String) (cs : List Component) (names : List String) :
    landing cwd (cs ++ Path.named names) = landing cwd cs ++ names := by
  rw [landing_append, Path.named, landing_named]

theorem locate_descend (hp : p.text ≠ "") (hnames : ∀ n ∈ names, (Component.name n).IsStep)
    (h : d.locate (p.descend names) = .ok place) :
    place = landing d.cwd p.components ++ names := by
  rw [landing_of_locate h, Path.components_descend hp hnames, landing_append_named]

/-- What a path names that goes on by names is what the names lead to. -/
theorem Has.get?_of_find_descend (h : Has cwd (landing cwd p.components) t d) (hp : p.text ≠ "")
    (hnames : ∀ n ∈ names, (Component.name n).IsStep)
    (hfind : d.find (p.descend names) = .ok u) : t.get? names = some u := by
  obtain ⟨place, hplace, hu⟩ := find_eq_ok_iff.mp hfind
  rwa [locate_descend hp hnames hplace, h.cwd_eq, h.get?_append] at hu

end Disk

end BuildMatrix
