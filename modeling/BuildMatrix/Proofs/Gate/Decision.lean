import BuildMatrix.Gate
import BuildMatrix.Proofs.Outcome

/-!
# What decides at the gate

The gate makes its tests one after the other. Once the rule says what the app depends on, the
outcome follows from three questions, whatever the order of the tests.

* `Gate.Forces`: is the build forced before any dependency is looked at?
* `Gate.Changes`: is a dependency changed?
* `Gate.Settles`: is enough known of the dependencies to skip the app?
* `Gate.forces_or_resolved`, `Gate.decideByDependencies_cases`: the decision from the answers.
-/

namespace BuildMatrix

theorem Glob.filesMatch_nil (files : List Path) (root : Path) :
    filesMatch files [] root = false := by
  have hread : readAll [] root = [] := rfl
  rw [filesMatch, hread, Bool.and_eq_false_iff]
  exact Or.inr (List.any_eq_false.mpr fun f _ => by simp)

namespace Gate

variable {g : Gate} {components patterns : List String}

/-- Whether the app is built whatever it depends on: the gate does not apply, or the app itself or
its rule is changed. -/
def Forces (g : Gate) (rule : Rule) (app : Path) : Prop :=
  g.isEnabled = false ∨ g.touches (app.absolutize g.root) = true ∨
    g.changesRuleOf rule.folder = true

/-- Whether one of some components, or a file that matches one of some patterns, is changed. -/
def Changes (g : Gate) (components patterns : List String) : Prop :=
  g.changedAmong components ≠ [] ∨ g.changesFilesOf patterns = true

/-- Whether an app with no changed dependency is skipped: one kind of dependencies can be checked,
or no component is changed and there are no patterns. -/
def Settles (g : Gate) (components patterns : List String) : Prop :=
  g.knowsComponents components = true ∨ g.knowsFiles patterns = true ∨
    g.components = some [] ∧ patterns = []

/-! ## Decisions by dependencies -/

theorem knowsComponents_iff :
    g.knowsComponents components = true ↔
      components ≠ [] ∧ ∃ changed, g.components = some changed := by
  rw [knowsComponents, Bool.and_eq_true, Option.isSome_iff_exists]
  simp

theorem knowsFiles_iff :
    g.knowsFiles patterns = true ↔ patterns ≠ [] ∧ ∃ files, g.files = some files := by
  rw [knowsFiles, Bool.and_eq_true, Option.isSome_iff_exists]
  simp

theorem mem_changedAmong_iff {c : String} :
    c ∈ g.changedAmong components ↔ c ∈ components ∧ c ∈ g.components.getD [] := by
  rw [changedAmong, List.mem_filter, List.contains_iff_mem]

/-- What is changed among some components is known. -/
theorem knowsComponents_of_changedAmong (h : g.changedAmong components ≠ []) :
    g.knowsComponents components = true := by
  obtain ⟨c, hc⟩ := List.exists_mem_of_ne_nil _ h
  obtain ⟨hmem, hchanged⟩ := mem_changedAmong_iff.mp hc
  refine knowsComponents_iff.mpr ⟨List.ne_nil_of_mem hmem, ?_⟩
  cases hg : g.components with
  | none =>
    rw [hg] at hchanged
    exact absurd hchanged (by simp)
  | some changed => exact ⟨changed, rfl⟩

theorem changesFilesOf_iff :
    g.changesFilesOf patterns = true ↔
      ∃ files, g.files = some files ∧ Glob.filesMatch files patterns g.root = true := by
  rw [changesFilesOf]
  cases g.files with
  | none => simp
  | some files => simp

theorem knowsFiles_of_changesFilesOf (h : g.changesFilesOf patterns = true) :
    g.knowsFiles patterns = true := by
  obtain ⟨files, hfiles, hmatch⟩ := changesFilesOf_iff.mp h
  refine knowsFiles_iff.mpr ⟨?_, files, hfiles⟩
  rintro rfl
  rw [Glob.filesMatch_nil] at hmatch
  exact absurd hmatch (by decide)

/-- A change among the dependencies is found although other tests are made first. -/
theorem Changes.settles (h : g.Changes components patterns) : g.Settles components patterns :=
  h.elim (fun h => Or.inl (knowsComponents_of_changedAmong h))
    (fun h => Or.inr (Or.inl (knowsFiles_of_changesFilesOf h)))

/-- Without any changed component and without patterns no dependency is changed. -/
theorem not_changes_of_nil (hg : g.components = some []) (hpatterns : patterns = []) :
    ¬ g.Changes components patterns := by
  rintro (h | h)
  · obtain ⟨c, hc⟩ := List.exists_mem_of_ne_nil _ h
    have hchanged := (mem_changedAmong_iff.mp hc).2
    rw [hg] at hchanged
    exact absurd hchanged (by simp)
  · exact (knowsFiles_iff.mp (knowsFiles_of_changesFilesOf h)).1 hpatterns

theorem components_eq_nil_iff :
    (g.components.any List.isEmpty && patterns.isEmpty) = true ↔
      g.components = some [] ∧ patterns = [] := by
  rw [Bool.and_eq_true, List.isEmpty_iff]
  cases g.components with
  | none => simp
  | some changed => simp

/-- A changed dependency makes the app be built. Otherwise it is skipped if enough is known, and
left to the build if not. -/
theorem decideByDependencies_cases (g : Gate) (components patterns : List String) :
    (g.Changes components patterns ∧
        ∃ reason, g.decideByDependencies components patterns = .build reason) ∨
      (¬ g.Changes components patterns ∧ g.Settles components patterns ∧
        ∃ reason, g.decideByDependencies components patterns = .skip reason) ∨
      (¬ g.Changes components patterns ∧ ¬ g.Settles components patterns ∧
        g.decideByDependencies components patterns = .defer) := by
  rw [decideByDependencies]
  by_cases hnone : (g.components.any List.isEmpty && patterns.isEmpty) = true
  · rw [if_pos hnone]
    have hnil := components_eq_nil_iff.mp hnone
    exact Or.inr (Or.inl ⟨not_changes_of_nil hnil.1 hnil.2, Or.inr (Or.inr hnil), _, rfl⟩)
  rw [if_neg hnone]
  by_cases hunknown : (!g.knowsComponents components && !g.knowsFiles patterns) = true
  · rw [if_pos hunknown]
    have hsettles : ¬ g.Settles components patterns := by
      rw [Bool.and_eq_true, Bool.not_eq_true', Bool.not_eq_true'] at hunknown
      rintro (h | h | h)
      · exact absurd h (by simp [hunknown.1])
      · exact absurd h (by simp [hunknown.2])
      · exact hnone (components_eq_nil_iff.mpr h)
    exact Or.inr (Or.inr ⟨fun h => hsettles h.settles, hsettles, rfl⟩)
  rw [if_neg hunknown]
  have hsettles : g.Settles components patterns := by
    by_cases hknows : g.knowsComponents components = true
    · exact Or.inl hknows
    · refine Or.inr (Or.inl ?_)
      simpa [hknows] using hunknown
  by_cases hchanged : (!(g.changedAmong components).isEmpty) = true
  · rw [if_pos hchanged]
    exact Or.inl ⟨Or.inl (by simpa using hchanged), _, rfl⟩
  rw [if_neg hchanged]
  by_cases hfiles : g.changesFilesOf patterns = true
  · rw [if_pos hfiles]
    exact Or.inl ⟨Or.inr hfiles, _, rfl⟩
  · rw [if_neg hfiles]
    have hchanges : ¬ g.Changes components patterns := by
      rintro (h | h)
      · exact hchanged (by simpa using h)
      · exact hfiles h
    exact Or.inr (Or.inl ⟨hchanges, hsettles, _, rfl⟩)

/-! ## Decisions -/

section

variable {rule : Rule} {app : Path} {ctx : Context}

theorem decide_of_forces (h : g.Forces rule app) (ctx : Context) :
    ∃ reason, g.decide rule app ctx = .ok (.build reason) := by
  rw [decide]
  by_cases henabled : (!g.isEnabled) = true
  · exact ⟨_, by rw [if_pos henabled]⟩
  rw [if_neg henabled]
  by_cases htouches : g.touches (app.absolutize g.root) = true
  · exact ⟨_, by rw [if_pos htouches]⟩
  rw [if_neg htouches]
  rcases h with h | h | h
  · exact absurd (by rw [h]; rfl) henabled
  · exact absurd h htouches
  · exact ⟨_, by rw [if_pos h]⟩

/-- Without force the decision is by the dependencies, if the rule has an answer for them. -/
theorem decide_of_not_forces (h : ¬ g.Forces rule app) (ctx : Context) :
    g.decide rule app ctx = do
      let components ← rule.components.resolve ctx
      let patterns ← rule.filePatterns.resolve ctx
      return g.decideByDependencies components patterns := by
  rw [Forces, not_or, not_or] at h
  obtain ⟨henabled, htouches, hrule⟩ := h
  have henabled' : ¬ (!g.isEnabled) = true := by simpa using henabled
  rw [decide, if_neg henabled', if_neg htouches, if_neg hrule]
  cases rule.components.resolve ctx with
  | error e => rfl
  | ok components => cases rule.filePatterns.resolve ctx <;> rfl

theorem decide_of_resolve (h : ¬ g.Forces rule app)
    (hcomponents : rule.components.resolve ctx = .ok components)
    (hpatterns : rule.filePatterns.resolve ctx = .ok patterns) :
    g.decide rule app ctx = .ok (g.decideByDependencies components patterns) := by
  rw [decide_of_not_forces h, hcomponents, hpatterns]
  rfl

/-- A decision is forced or by the dependencies of the rule. -/
theorem forces_or_resolved {d : Decision} (h : g.decide rule app ctx = .ok d) :
    (g.Forces rule app ∧ ∃ reason, d = .build reason) ∨
      (¬ g.Forces rule app ∧ ∃ components patterns,
        rule.components.resolve ctx = .ok components ∧
          rule.filePatterns.resolve ctx = .ok patterns ∧
            d = g.decideByDependencies components patterns) := by
  by_cases hforces : g.Forces rule app
  · obtain ⟨reason, hbuild⟩ := decide_of_forces hforces ctx
    exact Or.inl ⟨hforces, reason, Except.ok.inj (h.symm.trans hbuild)⟩
  · rw [decide_of_not_forces hforces] at h
    obtain ⟨components, hcomponents, hrest⟩ := bind_eq_ok_iff.mp h
    obtain ⟨patterns, hpatterns, hd⟩ := bind_eq_ok_iff.mp hrest
    exact Or.inr ⟨hforces, components, patterns, hcomponents, hpatterns, (Except.ok.inj hd).symm⟩

end

/-- A context without a configuration. -/
def sampleContext : Context where
  env := Environment.ofTargets Targets.builtin
  target := "esp32"
  configName := ""

end Gate

end BuildMatrix
