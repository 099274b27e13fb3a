import BuildMatrix.Proofs.Gate.Checked
import BuildMatrix.Proofs.Path.Normal

/-!
# Verdicts of the gate

The gate leaves at the first test that has an answer. What it decides does not depend on the order
of its tests, apart from which error is reported: a change of the app or its rule, a changed
dependency and the knowledge about dependencies are read off the lists that the gate was given.

* `Gate.ChangesApp`, `Gate.ChangesRule`: what is looked at before any dependency.
* `Gate.Meets`: a dependency is among the given changes.
* `Gate.Judges`: changes of the declared kind were given.
* `Gate.decide_eq_iff`: each verdict, and each failure, by these four.
-/

namespace BuildMatrix

/-- Some files match when one of them does. -/
theorem Glob.filesMatch_iff_exists {files : List Path} {patterns : List String} {root : Path} :
    filesMatch files patterns root = true ↔
      ∃ f ∈ files, filesMatch [f] patterns root = true := by
  simp only [filesMatch, Bool.and_eq_true, List.any_eq_true, List.mem_singleton, exists_eq_left]
  constructor
  · rintro ⟨hordered, f, hf, hmatch⟩
    exact ⟨f, hf, hordered, hmatch⟩
  · rintro ⟨f, hf, hordered, hmatch⟩
    exact ⟨hordered, f, hf, hmatch⟩

namespace Gate

variable {g : Gate} {components patterns : List String} {rule : Rule} {app : Path} {ctx : Context}

/-! ## What the gate was given -/

/-- Whether a changed file is the folder of the app or lies below it. -/
def ChangesApp (g : Gate) (app : Path) : Prop :=
  ∃ files, g.files = some files ∧ ∃ f ∈ files, (app.absolutize g.root).components <+: f.components

/-- Whether the folder of the rule is among the folders with changed rules. -/
def ChangesRule (g : Gate) (rule : Rule) : Prop :=
  ∃ folders, g.manifestFolders = some folders ∧
    ∃ f ∈ folders, f.components = rule.folder.components

/-- Whether one of the components is changed, or a changed file matches the patterns. -/
def Meets (g : Gate) (components patterns : List String) : Prop :=
  (∃ changed, g.components = some changed ∧ ∃ c ∈ components, c ∈ changed) ∨
    ∃ files, g.files = some files ∧ ∃ f ∈ files, Glob.filesMatch [f] patterns g.root = true

/-- Whether there are components and changed components were given, or there are patterns and
changed files were given, or it was given that no component is changed and there are no patterns. -/
def Judges (g : Gate) (components patterns : List String) : Prop :=
  (components ≠ [] ∧ ∃ changed, g.components = some changed) ∨
    (patterns ≠ [] ∧ ∃ files, g.files = some files) ∨
      (g.components = some [] ∧ patterns = [])

theorem touches_iff : g.touches (app.absolutize g.root) = true ↔ g.ChangesApp app := by
  rw [touches, ChangesApp, List.any_eq_true]
  simp only [Path.isWithin_iff]
  cases g.files with
  | none => simp
  | some files => simp

theorem changesRuleOf_iff : g.changesRuleOf rule.folder = true ↔ g.ChangesRule rule := by
  rw [changesRuleOf, ChangesRule, List.any_eq_true]
  simp only [Path.same_iff]
  cases g.manifestFolders with
  | none => simp
  | some folders => simp

theorem forces_iff (hg : g.isEnabled = true) :
    g.Forces rule app ↔ g.ChangesApp app ∨ g.ChangesRule rule := by
  rw [Forces, touches_iff, changesRuleOf_iff, hg]
  simp

theorem changedAmong_ne_nil_iff :
    g.changedAmong components ≠ [] ↔
      ∃ changed, g.components = some changed ∧ ∃ c ∈ components, c ∈ changed := by
  constructor
  · intro h
    obtain ⟨-, changed, hchanged⟩ := knowsComponents_iff.mp (knowsComponents_of_changedAmong h)
    obtain ⟨c, hc⟩ := List.exists_mem_of_ne_nil _ h
    obtain ⟨hmem, hin⟩ := mem_changedAmong_iff.mp hc
    exact ⟨changed, hchanged, c, hmem, by rwa [hchanged] at hin⟩
  · rintro ⟨changed, hchanged, c, hmem, hin⟩
    exact List.ne_nil_of_mem (mem_changedAmong_iff.mpr ⟨hmem, by rwa [hchanged]⟩)

theorem changes_iff : g.Changes components patterns ↔ g.Meets components patterns := by
  rw [Changes, Meets, changedAmong_ne_nil_iff, changesFilesOf_iff]
  simp only [← Glob.filesMatch_iff_exists]

theorem settles_iff : g.Settles components patterns ↔ g.Judges components patterns := by
  rw [Settles, Judges, knowsComponents_iff, knowsFiles_iff]

/-! ## Verdicts -/

/-- Without force the gate fails where the rule has no answer for one kind of its dependencies. -/
theorem decide_eq_error_iff (h : ¬ g.Forces rule app) {e : EvalError} :
    g.decide rule app ctx = .error e ↔
      rule.components.resolve ctx = .error e ∨
        (∃ components, rule.components.resolve ctx = .ok components) ∧
          rule.filePatterns.resolve ctx = .error e := by
  rw [decide_of_not_forces h]
  cases rule.components.resolve ctx with
  | error e' => simp [bind, Except.bind]
  | ok components =>
    cases rule.filePatterns.resolve ctx with
    | error e' => simp [bind, Except.bind]
    | ok patterns => simp [bind, Except.bind, pure, Except.pure]

theorem decideByDependencies_eq_build_iff :
    (∃ reason, g.decideByDependencies components patterns = .build reason) ↔
      g.Changes components patterns := by
  rcases g.decideByDependencies_cases components patterns with
    ⟨hchanges, hbuild⟩ | ⟨hchanges, -, _, hskip⟩ | ⟨hchanges, -, hdefer⟩
  · exact iff_of_true hbuild hchanges
  · rw [hskip]
    exact iff_of_false (by simp) hchanges
  · rw [hdefer]
    exact iff_of_false (by simp) hchanges

theorem decideByDependencies_eq_skip_iff :
    (∃ reason, g.decideByDependencies components patterns = .skip reason) ↔
      ¬ g.Changes components patterns ∧ g.Settles components patterns := by
  rcases g.decideByDependencies_cases components patterns with
    ⟨hchanges, _, hbuild⟩ | ⟨hchanges, hsettles, hskip⟩ | ⟨-, hsettles, hdefer⟩
  · rw [hbuild]
    exact iff_of_false (by simp) fun h => h.1 hchanges
  · exact iff_of_true hskip ⟨hchanges, hsettles⟩
  · rw [hdefer]
    exact iff_of_false (by simp) fun h => hsettles h.2

theorem decideByDependencies_eq_defer_iff :
    g.decideByDependencies components patterns = .defer ↔
      ¬ g.Changes components patterns ∧ ¬ g.Settles components patterns := by
  rcases g.decideByDependencies_cases components patterns with
    ⟨hchanges, _, hbuild⟩ | ⟨-, hsettles, _, hskip⟩ | ⟨hchanges, hsettles, hdefer⟩
  · rw [hbuild]
    exact iff_of_false (by simp) fun h => h.1 hchanges
  · rw [hskip]
    exact iff_of_false (by simp) fun h => h.2 hsettles
  · exact iff_of_true hdefer ⟨hchanges, hsettles⟩

/-- **The verdicts of a gate that applies.** An app is built when it or its rule is changed.
Otherwise the gate fails exactly where the rule has no answer for its components or its patterns.
With both answers the app is built if and only if a dependency is met by a change; if none is, it is
skipped if and only if the gate can judge of dependencies, and left to the build if and only if it
cannot. -/
theorem decide_eq_iff (hg : g.isEnabled = true) (rule : Rule) (app : Path) (ctx : Context) :
    (g.ChangesApp app ∨ g.ChangesRule rule →
      ∃ reason, g.decide rule app ctx = .ok (.build reason)) ∧
    (¬ (g.ChangesApp app ∨ g.ChangesRule rule) →
      (∀ e, g.decide rule app ctx = .error e ↔
        rule.components.resolve ctx = .error e ∨
          (∃ components, rule.components.resolve ctx = .ok components) ∧
            rule.filePatterns.resolve ctx = .error e) ∧
      ∀ components patterns, rule.components.resolve ctx = .ok components →
        rule.filePatterns.resolve ctx = .ok patterns →
          ((∃ reason, g.decide rule app ctx = .ok (.build reason)) ↔
            g.Meets components patterns) ∧
          ((∃ reason, g.decide rule app ctx = .ok (.skip reason)) ↔
            ¬ g.Meets components patterns ∧ g.Judges components patterns) ∧
          (g.decide rule app ctx = .ok .defer ↔
            ¬ g.Meets components patterns ∧ ¬ g.Judges components patterns)) := by
  rw [← forces_iff hg]
  refine ⟨fun h => decide_of_forces h ctx, fun h => ⟨fun e => decide_eq_error_iff h, ?_⟩⟩
  intro components patterns hcomponents hpatterns
  rw [decide_of_resolve h hcomponents hpatterns, ← changes_iff, ← settles_iff]
  simp only [Except.ok.injEq]
  exact ⟨decideByDependencies_eq_build_iff, decideByDependencies_eq_skip_iff,
    decideByDependencies_eq_defer_iff⟩

/-- No file is changed, and one component is: an app that needs this component is built, one that
needs another is skipped, and one with no dependencies is left to the build. A file of the app
makes it be built. -/
theorem decide_eq_sample :
    (∃ reason, (sampleGate none).decide (sampleRule ["soc", "bt"] []) ⟨"apps/foo"⟩ sampleContext =
      .ok (.build reason)) ∧
    (∃ reason, (sampleGate none).decide (sampleRule ["soc"] []) ⟨"apps/foo"⟩ sampleContext =
      .ok (.skip reason)) ∧
    (sampleGate none).decide (sampleRule [] []) ⟨"apps/foo"⟩ sampleContext = .ok .defer ∧
    ∃ reason, (sampleGate (some [⟨"/w/apps/foo/main.c"⟩])).decide (sampleRule [] [])
      ⟨"apps/../apps/foo"⟩ sampleContext = .ok (.build reason) := by
  have henabled : (sampleGate none).isEnabled = true := by decide +kernel
  have hquiet : ∀ rule, ¬ ((sampleGate none).ChangesApp ⟨"apps/foo"⟩ ∨
      (sampleGate none).ChangesRule rule) := by
    rintro rule (⟨files, hfiles, -⟩ | ⟨folders, hfolders, -⟩)
    · exact absurd hfiles nofun
    · exact absurd hfolders nofun
  have hknown : (sampleGate none).components = some ["bt"] := rfl
  have hunmet : ∀ names, "bt" ∉ names → ¬ (sampleGate none).Meets names [] := by
    rintro names hnames (⟨changed, hchanged, c, hc, hmem⟩ | ⟨files, hfiles, -⟩)
    · obtain rfl := Option.some.inj (hknown.symm.trans hchanged)
      rw [List.mem_singleton.mp hmem] at hc
      exact hnames hc
    · exact absurd hfiles nofun
  refine ⟨?_, ?_, ?_, ?_⟩
  · refine (((decide_eq_iff henabled (sampleRule ["soc", "bt"] []) _ sampleContext).2
      (hquiet _)).2 _ _ rfl rfl).1.mpr ?_
    exact Or.inl ⟨["bt"], hknown, "bt", by decide, by decide⟩
  · refine (((decide_eq_iff henabled (sampleRule ["soc"] []) _ sampleContext).2
      (hquiet _)).2 _ _ rfl rfl).2.1.mpr ⟨hunmet _ (by decide), ?_⟩
    exact Or.inl ⟨by decide, ["bt"], hknown⟩
  · refine (((decide_eq_iff henabled (sampleRule [] []) _ sampleContext).2
      (hquiet _)).2 _ _ rfl rfl).2.2.mpr ⟨hunmet _ (by decide), ?_⟩
    rintro (⟨hne, -⟩ | ⟨hne, -⟩ | ⟨hnone, -⟩)
    · exact hne rfl
    · exact hne rfl
    · exact absurd hnone (by rw [hknown]; decide)
  · refine (decide_eq_iff (by decide +kernel) _ _ _).1 (Or.inl ?_)
    exact ⟨_, rfl, ⟨"/w/apps/foo/main.c"⟩, by simp, by decide +kernel⟩

end Gate

end BuildMatrix
