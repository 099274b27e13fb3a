import BuildMatrix.Path.Basic
import BuildMatrix.Proofs.Text.Lines

/-!
# Components and texts

The components of a path are its start and its *steps*, the pieces of its text that say something.

* `Path.components_eq`, `Path.components_of_isAbsolute`: the start and the steps are the components.
* `Path.steps_joinPieces`, `Path.components_ofComponents`: the steps that are written are the ones
  that are read.
* `Path.steps_join`, `Path.components_join`: the steps and the components of a joined path.
-/

namespace BuildMatrix

/-! ## Steps -/

/-- Whether a component is the one that its written form is read as. -/
structure Component.IsStep (c : Component) : Prop where
  ofPiece?_render : Component.ofPiece? c.render.toList = some c
  slash_notMem : '/' ∉ c.render.toList

instance (c : Component) : Decidable c.IsStep :=
  decidable_of_iff (Component.ofPiece? c.render.toList = some c ∧ '/' ∉ c.render.toList)
    ⟨fun h => ⟨h.1, h.2⟩, fun h => ⟨h.1, h.2⟩⟩

namespace Component

/-- The written form of what a piece says is the piece. -/
theorem toList_render_of_ofPiece? {piece : List Char} {c : Component}
    (h : ofPiece? piece = some c) : c.render.toList = piece := by
  unfold ofPiece? at h
  split at h
  · exact absurd h (by simp)
  · exact absurd h (by simp)
  · rw [← Option.some_inj.mp h]
    rfl
  · rw [← Option.some_inj.mp h, render, String.toList_ofList]

theorem isStep_of_ofPiece? {piece : List Char} {c : Component} (h : ofPiece? piece = some c)
    (hslash : '/' ∉ piece) : c.IsStep := by
  have hrender := toList_render_of_ofPiece? h
  exact ⟨by rw [hrender, h], by rwa [hrender]⟩

theorem IsStep.render_ne_nil {c : Component} (h : c.IsStep) : c.render.toList ≠ [] := by
  intro hnil
  have hc := h.ofPiece?_render
  rw [hnil] at hc
  exact absurd hc (by simp [ofPiece?])

theorem IsStep.ne_root {c : Component} (h : c.IsStep) : c ≠ root := by
  rintro rfl
  exact h.slash_notMem (by decide)

theorem IsStep.ne_current {c : Component} (h : c.IsStep) : c ≠ current := by
  rintro rfl
  exact absurd h.ofPiece?_render (by decide)

end Component

namespace Path

/-- The components of a path without its start. -/
def steps (p : Path) : List Component :=
  (Text.piecesOf '/' p.text.toList).filterMap Component.ofPiece?

theorem isStep_of_mem_steps {p : Path} {c : Component} (h : c ∈ p.steps) : c.IsStep := by
  obtain ⟨piece, hpiece, hc⟩ := List.mem_filterMap.mp h
  exact Component.isStep_of_ofPiece? hc (Text.notMem_of_mem_piecesOf hpiece)

theorem same_iff {p q : Path} : p.same q = true ↔ p.components = q.components := by
  rw [same, beq_iff_eq]

/-- The components of a path are its start and its steps. -/
theorem components_eq (p : Path) : p.components = p.start?.toList ++ p.steps := by
  rw [components, steps, bodyPieces]
  congr 1
  split
  · next rest h => rw [h, Text.piecesOf_cons_self]; rfl
  · split
    · next rest hrest => rw [hrest]; rfl
    · rfl

theorem toList_of_isAbsolute {p : Path} (h : p.isAbsolute = true) :
    ∃ rest, p.text.toList = '/' :: rest := by
  rw [isAbsolute, beq_iff_eq] at h
  cases hp : p.text.toList with
  | nil => rw [hp] at h; exact absurd h (by simp)
  | cons c rest =>
    rw [hp, List.head?_cons] at h
    exact ⟨rest, by rw [Option.some_inj.mp h]⟩

theorem start?_of_isAbsolute {p : Path} (h : p.isAbsolute = true) : p.start? = some .root := by
  obtain ⟨rest, hp⟩ := toList_of_isAbsolute h
  rw [start?, hp]
  rfl

/-- An absolute path has the root before its steps. -/
theorem components_of_isAbsolute {p : Path} (h : p.isAbsolute = true) :
    p.components = .root :: p.steps := by
  rw [components_eq, start?_of_isAbsolute h]
  rfl

theorem start?_cases (p : Path) :
    p.isAbsolute = true ∨ p.isAbsolute = false ∧ (p.start? = none ∨ p.start? = some .current) := by
  by_cases h : p.isAbsolute = true
  · exact .inl h
  · refine .inr ⟨Bool.eq_false_iff.mpr h, ?_⟩
    rw [start?]
    split
    · next rest hp => exact absurd (by rw [isAbsolute, hp]; rfl) h
    · split
      · exact .inr rfl
      · exact .inl rfl

/-- The components of a path tell whether it begins at the root. -/
theorem root_mem_components_iff {p : Path} : .root ∈ p.components ↔ p.isAbsolute = true := by
  have hsteps : .root ∉ p.steps := fun h => (isStep_of_mem_steps h).ne_root rfl
  rcases p.start?_cases with h | ⟨h, hstart | hstart⟩
  · simp [components_of_isAbsolute h, h]
  · simp [components_eq, hstart, hsteps, h]
  · simp [components_eq, hstart, hsteps, h]

/-- The components of a path tell its steps. -/
theorem steps_eq_filter (p : Path) :
    p.steps = p.components.filter fun c => c ≠ .root ∧ c ≠ .current := by
  have hsteps : p.steps.filter (fun c => c ≠ .root ∧ c ≠ .current) = p.steps :=
    List.filter_eq_self.mpr fun c hc => decide_eq_true
      ⟨(isStep_of_mem_steps hc).ne_root, (isStep_of_mem_steps hc).ne_current⟩
  rw [components_eq, List.filter_append, hsteps]
  rcases p.start?_cases with h | ⟨-, hstart | hstart⟩
  · rw [start?_of_isAbsolute h]
    rfl
  · rw [hstart]
    rfl
  · rw [hstart]
    rfl

/-! ## Written steps -/

/-- The pieces that steps are written as. -/
def piecesOfSteps (cs : List Component) : List (List Char) :=
  cs.map fun c => c.render.toList

theorem filterMap_piecesOfSteps {cs : List Component} (h : ∀ c ∈ cs, c.IsStep) :
    (piecesOfSteps cs).filterMap Component.ofPiece? = cs := by
  induction cs with
  | nil => rfl
  | cons c cs ih =>
    rw [piecesOfSteps, List.map_cons,
      List.filterMap_cons_some (h c List.mem_cons_self).ofPiece?_render]
    exact congrArg _ (ih fun d hd => h d (List.mem_cons_of_mem _ hd))

theorem slash_notMem_piecesOfSteps {cs : List Component} (h : ∀ c ∈ cs, c.IsStep) :
    ∀ piece ∈ piecesOfSteps cs, '/' ∉ piece := by
  intro piece hpiece
  obtain ⟨c, hc, rfl⟩ := List.mem_map.mp hpiece
  exact (h c hc).slash_notMem

/-- Steps with slashes between them are cut into their pieces again. -/
theorem piecesOf_intercalate_steps {cs : List Component} (hne : cs ≠ [])
    (h : ∀ c ∈ cs, c.IsStep) :
    Text.piecesOf '/' (List.intercalate ['/'] (piecesOfSteps cs)) = piecesOfSteps cs :=
  Text.piecesOf_intercalate (by simpa [piecesOfSteps] using hne) (slash_notMem_piecesOfSteps h)

/-- The steps that are written are the ones that are read. -/
theorem filterMap_piecesOf_steps {cs : List Component} (h : ∀ c ∈ cs, c.IsStep) :
    (Text.piecesOf '/' (List.intercalate ['/'] (piecesOfSteps cs))).filterMap
      Component.ofPiece? = cs := by
  by_cases hne : cs = []
  · subst hne
    rfl
  · rw [piecesOf_intercalate_steps hne h, filterMap_piecesOfSteps h]

theorem steps_joinPieces {cs : List Component} (h : ∀ c ∈ cs, c.IsStep) :
    steps ⟨joinPieces (piecesOfSteps cs)⟩ = cs := by
  rw [steps, joinPieces, String.toList_ofList, filterMap_piecesOf_steps h]

/-- A path that is written from steps is relative. -/
theorem isAbsolute_joinPieces {cs : List Component} (h : ∀ c ∈ cs, c.IsStep) :
    isAbsolute ⟨joinPieces (piecesOfSteps cs)⟩ = false := by
  rw [isAbsolute, joinPieces, String.toList_ofList, beq_eq_false_iff_ne]
  intro hhead
  cases cs with
  | nil => exact absurd hhead (by simp [piecesOfSteps])
  | cons c cs =>
    have hc := h c List.mem_cons_self
    obtain ⟨x, xs, hx⟩ := List.exists_cons_of_ne_nil hc.render_ne_nil
    have hslash : x = '/' := by
      cases cs <;> simpa [piecesOfSteps, hx, List.intercalate_cons_cons] using hhead
    exact hc.slash_notMem (by rw [hx, hslash]; exact List.mem_cons_self)

/-- A path that is written from steps without a root. -/
theorem ofComponents_steps {cs : List Component} (h : ∀ c ∈ cs, c.IsStep) :
    ofComponents cs = ⟨joinPieces (piecesOfSteps cs)⟩ := by
  have hjoin : "/".intercalate (cs.map Component.render) = joinPieces (piecesOfSteps cs) := by
    rw [← String.toList_inj, joinPieces, String.toList_ofList, String.toList_intercalate,
      piecesOfSteps, List.map_map]
    rfl
  rw [← hjoin]
  cases cs with
  | nil => rfl
  | cons c cs =>
    cases c with
    | root => exact absurd rfl (h _ List.mem_cons_self).ne_root
    | current => rfl
    | parent => rfl
    | name s => rfl

theorem toList_ofComponents_root (cs : List Component) :
    (ofComponents (.root :: cs)).text.toList =
      '/' :: List.intercalate ['/'] (piecesOfSteps cs) := by
  simp [ofComponents, piecesOfSteps, String.toList_intercalate, Function.comp_def]

theorem isAbsolute_ofComponents (cs : List Component) :
    (ofComponents (.root :: cs)).isAbsolute = true := by
  rw [isAbsolute, toList_ofComponents_root]
  rfl

/-- The components of a path that is written from a root and steps. -/
theorem components_ofComponents {cs : List Component} (h : ∀ c ∈ cs, c.IsStep) :
    (ofComponents (.root :: cs)).components = .root :: cs := by
  rw [components_of_isAbsolute (isAbsolute_ofComponents cs), steps, toList_ofComponents_root,
    Text.piecesOf_cons_self]
  exact congrArg _ (filterMap_piecesOf_steps h)

/-- The pieces after the start of a path that is written from a root and steps. -/
theorem bodyPieces_ofComponents {cs : List Component} (hne : cs ≠ []) (h : ∀ c ∈ cs, c.IsStep) :
    (ofComponents (.root :: cs)).bodyPieces = piecesOfSteps cs := by
  rw [bodyPieces, toList_ofComponents_root]
  exact piecesOf_intercalate_steps hne h

/-! ## Joined paths -/

theorem text_join {p q : Path} (hp : p.text ≠ "") (hq : q.isAbsolute = false) :
    ((p.join q).text.toList = p.text.toList ++ q.text.toList ∧
        p.text.toList.getLast? = some '/') ∨
      (p.join q).text.toList = p.text.toList ++ '/' :: q.text.toList := by
  have hempty : p.text.isEmpty = false := by
    rw [← Bool.not_eq_true, String.isEmpty_iff]
    exact hp
  rw [join, hq, hempty]
  by_cases hlast : p.text.toList.getLast? = some '/'
  · exact Or.inl ⟨by simp [hlast], hlast⟩
  · exact Or.inr (by simp [hlast])

/-- A path that is joined to another one goes on with its steps. -/
theorem steps_join {p q : Path} (hp : p.text ≠ "") (hq : q.isAbsolute = false) :
    (p.join q).steps = p.steps ++ q.steps := by
  rcases text_join hp hq with ⟨ht, hlast⟩ | ht
  · -- the text of `p` brings the slash, and its last piece is empty
    obtain ⟨r, hr⟩ := List.getLast?_eq_some_iff.mp hlast
    have hjoin : r ++ ['/'] ++ q.text.toList = r ++ '/' :: q.text.toList := by simp
    rw [steps, ht, hr, hjoin, steps, hr, steps, Text.piecesOf_append_cons,
      Text.piecesOf_append_cons, List.filterMap_append, List.filterMap_append]
    simp [Component.ofPiece?]
  · rw [steps, ht, Text.piecesOf_append_cons, List.filterMap_append]
    rfl

/-- A path with a text that is joined to another one goes on beginning where it begins. -/
theorem isAbsolute_join_eq {p q : Path} (hp : p.text ≠ "") (hq : q.isAbsolute = false) :
    (p.join q).isAbsolute = p.isAbsolute := by
  have hnil : p.text.toList ≠ [] := by simpa using hp
  obtain ⟨c, cs, hcs⟩ := List.exists_cons_of_ne_nil hnil
  rcases text_join hp hq with ⟨ht, -⟩ | ht <;>
  · rw [isAbsolute, isAbsolute, ht, hcs]
    rfl

theorem text_ne_empty_of_isAbsolute {p : Path} (hp : p.isAbsolute = true) : p.text ≠ "" := by
  intro h
  obtain ⟨rest, hrest⟩ := toList_of_isAbsolute hp
  rw [h] at hrest
  exact absurd hrest (by simp)

theorem isAbsolute_join {p q : Path} (hp : p.isAbsolute = true) (hq : q.isAbsolute = false) :
    (p.join q).isAbsolute = true := by
  rw [isAbsolute_join_eq (text_ne_empty_of_isAbsolute hp) hq, hp]

/-- What a relative path begins with is decided by its first piece. -/
theorem start?_of_isRelative {p : Path} (h : p.isAbsolute = false) :
    p.start? = if (Text.piecesOf '/' p.text.toList).head? = some ['.'] then some .current
      else none := by
  rw [start?]
  split
  · next rest hp =>
    rw [isAbsolute, hp] at h
    exact absurd h (by simp)
  · rfl

theorem head?_piecesOf_append_cons (cs ds : List Char) :
    (Text.piecesOf '/' (cs ++ '/' :: ds)).head? = (Text.piecesOf '/' cs).head? := by
  obtain ⟨p, ps, hp⟩ := List.exists_cons_of_ne_nil (Text.piecesOf_ne_nil '/' cs)
  rw [Text.piecesOf_append_cons, hp]
  rfl

theorem start?_join {p q : Path} (hp : p.text ≠ "") (hq : q.isAbsolute = false) :
    (p.join q).start? = p.start? := by
  have habsolute := isAbsolute_join_eq hp hq
  by_cases h : p.isAbsolute = true
  · rw [start?_of_isAbsolute h, start?_of_isAbsolute (habsolute.trans h)]
  · have h := Bool.eq_false_iff.mpr h
    have hhead : (Text.piecesOf '/' (p.join q).text.toList).head? =
        (Text.piecesOf '/' p.text.toList).head? := by
      rcases text_join hp hq with ⟨ht, hlast⟩ | ht
      · obtain ⟨r, hr⟩ := List.getLast?_eq_some_iff.mp hlast
        have hjoin : r ++ ['/'] ++ q.text.toList = r ++ '/' :: q.text.toList := by simp
        rw [ht, hr, hjoin, head?_piecesOf_append_cons, head?_piecesOf_append_cons]
      · rw [ht, head?_piecesOf_append_cons]
    rw [start?_of_isRelative h, start?_of_isRelative (habsolute.trans h), hhead]

/-- A relative path adds its steps to the components of the path that it is joined to. -/
theorem components_join {p q : Path} (hp : p.text ≠ "") (hq : q.isAbsolute = false) :
    (p.join q).components = p.components ++ q.steps := by
  rw [components_eq, start?_join hp hq, steps_join hp hq, components_eq, List.append_assoc]

theorem join_of_text_eq_empty {p : Path} (hp : p.text = "") (q : Path) : p.join q = q := by
  rw [join, hp]
  simp

theorem join_of_isAbsolute (p : Path) {q : Path} (hq : q.isAbsolute = true) : p.join q = q := by
  rw [join, hq]
  rfl

theorem components_of_text_eq_empty {p : Path} (hp : p.text = "") : p.components = [] := by
  obtain ⟨text⟩ := p
  subst hp
  rfl

/-- A relative path is its steps, perhaps after a dot. -/
theorem components_of_isRelative {p : Path} (h : p.isAbsolute = false) :
    p.components = p.steps ∨ p.components = .current :: p.steps := by
  rw [components_eq]
  rcases p.start?_cases with habsolute | ⟨-, hstart | hstart⟩
  · exact absurd (h.symm.trans habsolute) (by decide)
  · exact Or.inl (by rw [hstart]; rfl)
  · exact Or.inr (by rw [hstart]; rfl)

end Path

end BuildMatrix
