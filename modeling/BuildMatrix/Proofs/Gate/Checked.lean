import BuildMatrix.Proofs.Gate.Decision

/-!
# Skipped apps

An app may be skipped when nothing that it depends on is changed, and for that the gate has to know
about each kind of dependencies that its rule declares. It asks for one kind only. So an app that
depends on components and on files is skipped although no files are given, as long as its
components are not changed.

* `Gate.Clears`: each declared kind of dependencies is known and unchanged.
* `Gate.LeavesOpen`: a declared kind is not known.
* `Gate.IsHalfKnown`: both kinds are declared and one of them is not known.
* `Gate.skips_clear_iff`: apart from the last case, a skipped app is cleared, and an app with a
  kind left open is left to the build.
-/

namespace BuildMatrix.Gate

variable {g : Gate} {components patterns : List String}

/-- Whether each kind of dependencies that is declared is known and unchanged. -/
structure Clears (g : Gate) (components patterns : List String) : Prop where
  components : components ≠ [] →
    ∃ changed, g.components = some changed ∧ ∀ c ∈ components, c ∉ changed
  files : patterns ≠ [] →
    ∃ files, g.files = some files ∧ Glob.filesMatch files patterns g.root = false

/-- Whether a kind of dependencies is declared and nothing is known about its changes. -/
def LeavesOpen (g : Gate) (components patterns : List String) : Prop :=
  (components ≠ [] ∧ g.components = none) ∨ (patterns ≠ [] ∧ g.files = none)

/-- Whether both kinds of dependencies are declared and nothing is known about the changes of one of
them. -/
structure IsHalfKnown (g : Gate) (components patterns : List String) : Prop where
  components_ne_nil : components ≠ []
  patterns_ne_nil : patterns ≠ []
  is_open : g.components = none ∨ g.files = none

/-! ## Knowing one kind and knowing both -/

theorem IsHalfKnown.not_clears (h : g.IsHalfKnown components patterns) :
    ¬ g.Clears components patterns := by
  intro hclears
  obtain ⟨changed, hcomponents, -⟩ := hclears.components h.components_ne_nil
  obtain ⟨files, hfiles, -⟩ := hclears.files h.patterns_ne_nil
  rcases h.is_open with hnone | hnone
  · exact absurd (hcomponents.symm.trans hnone) nofun
  · exact absurd (hfiles.symm.trans hnone) nofun

/-- Components that are not changed, and files that match no pattern, are clear where they are
known. -/
theorem clears_of_not_leavesOpen (hchanges : ¬ g.Changes components patterns)
    (hopen : ¬ g.LeavesOpen components patterns) : g.Clears components patterns := by
  rw [LeavesOpen, not_or, not_and, not_and] at hopen
  rw [Changes, not_or] at hchanges
  obtain ⟨hamong, hfilesOf⟩ := hchanges
  refine ⟨fun hne => ?_, fun hne => ?_⟩
  · obtain ⟨changed, hchanged⟩ := Option.ne_none_iff_exists'.mp (hopen.1 hne)
    refine ⟨changed, hchanged, fun c hc hmem => hamong ?_⟩
    exact List.ne_nil_of_mem (mem_changedAmong_iff.mpr ⟨hc, by rwa [hchanged]⟩)
  · obtain ⟨files, hfiles⟩ := Option.ne_none_iff_exists'.mp (hopen.2 hne)
    refine ⟨files, hfiles, Bool.eq_false_iff.mpr fun hmatch => hfilesOf ?_⟩
    exact changesFilesOf_iff.mpr ⟨files, hfiles, hmatch⟩

/-- What is enough to skip an app leaves a kind open only if the other kind is declared too. -/
theorem Settles.isHalfKnown (h : g.Settles components patterns)
    (hopen : g.LeavesOpen components patterns) : g.IsHalfKnown components patterns := by
  rcases hopen with ⟨hne, hnone⟩ | ⟨hne, hnone⟩
  · rcases h with h | h | h
    · obtain ⟨-, changed, hchanged⟩ := knowsComponents_iff.mp h
      exact absurd (hchanged.symm.trans hnone) nofun
    · exact ⟨hne, (knowsFiles_iff.mp h).1, Or.inl hnone⟩
    · exact absurd (h.1.symm.trans hnone) nofun
  · rcases h with h | h | h
    · exact ⟨(knowsComponents_iff.mp h).1, hne, Or.inr hnone⟩
    · obtain ⟨-, files, hfiles⟩ := knowsFiles_iff.mp h
      exact absurd (hfiles.symm.trans hnone) nofun
    · exact absurd h.2 hne

/-- A gate that applies knows of one kind of changes. -/
theorem exists_of_isEnabled (hg : g.isEnabled = true) :
    (∃ changed, g.components = some changed) ∨ ∃ files, g.files = some files := by
  rw [isEnabled, Bool.and_eq_true, Bool.and_eq_true, Bool.or_eq_true, Option.isSome_iff_exists,
    Option.isSome_iff_exists] at hg
  exact hg.1.1

theorem IsHalfKnown.settles (h : g.IsHalfKnown components patterns) (hg : g.isEnabled = true) :
    g.Settles components patterns := by
  rcases exists_of_isEnabled hg with hknown | hknown
  · exact Or.inl (knowsComponents_iff.mpr ⟨h.components_ne_nil, hknown⟩)
  · exact Or.inr (Or.inl (knowsFiles_iff.mpr ⟨h.patterns_ne_nil, hknown⟩))

/-! ## Skipped and deferred apps -/

section

variable {rule : Rule} {app : Path} {ctx : Context}

/-- A skipped app is not built for a reason of its own, no dependency of it is changed, and enough
is known of them. -/
theorem resolved_of_skip {reason : String} (h : g.decide rule app ctx = .ok (.skip reason)) :
    ∃ components patterns, rule.components.resolve ctx = .ok components ∧
      rule.filePatterns.resolve ctx = .ok patterns ∧ ¬ g.Changes components patterns ∧
        g.Settles components patterns := by
  rcases forces_or_resolved h with ⟨-, _, hbuild⟩ | ⟨-, components, patterns, hc, hp, hd⟩
  · exact absurd hbuild nofun
  · rcases g.decideByDependencies_cases components patterns with
      ⟨-, _, hbuild⟩ | ⟨hchanges, hsettles, -⟩ | ⟨-, -, hdefer⟩
    · exact absurd (hd.trans hbuild) nofun
    · exact ⟨components, patterns, hc, hp, hchanges, hsettles⟩
    · exact absurd (hd.trans hdefer) nofun

theorem clears_iff_of_settles (hchanges : ¬ g.Changes components patterns)
    (hsettles : g.Settles components patterns) :
    g.Clears components patterns ↔ ¬ g.IsHalfKnown components patterns := by
  refine ⟨fun hclears hhalf => hhalf.not_clears hclears, fun hhalf => ?_⟩
  exact clears_of_not_leavesOpen hchanges fun hopen => hhalf (hsettles.isHalfKnown hopen)

/-- Where nothing forces a build, an app with a kind of dependencies left open is left to the build
unless the other kind is declared too. -/
theorem decide_eq_defer_iff (hforces : ¬ g.Forces rule app)
    (hcomponents : rule.components.resolve ctx = .ok components)
    (hpatterns : rule.filePatterns.resolve ctx = .ok patterns)
    (hchanges : ¬ g.Changes components patterns) (hopen : g.LeavesOpen components patterns) :
    g.decide rule app ctx = .ok .defer ↔ ¬ g.IsHalfKnown components patterns := by
  have henabled : g.isEnabled = true := by
    rw [Forces, not_or] at hforces
    simpa using hforces.1
  rw [decide_of_resolve hforces hcomponents hpatterns]
  rcases g.decideByDependencies_cases components patterns with
    ⟨hbuild, -⟩ | ⟨-, hsettles, _, hskip⟩ | ⟨-, hsettles, hdefer⟩
  · exact absurd hbuild hchanges
  · rw [hskip]
    exact iff_of_false (by simp) fun hhalf => hhalf (hsettles.isHalfKnown hopen)
  · rw [hdefer]
    exact iff_of_true rfl fun hhalf => hsettles (hhalf.settles henabled)

/-- **What a skipped app was checked for.** No dependency of a skipped app is known to be
changed. Each kind that its rule declares was known, unless both kinds are declared and one of
them is not known. With this exception, an app is left to the build when a declared kind is not
known and nothing else makes it be built. -/
theorem skips_clear_iff (g : Gate) (rule : Rule) (app : Path) (ctx : Context) :
    (∀ reason, g.decide rule app ctx = .ok (.skip reason) →
      ∃ components patterns, rule.components.resolve ctx = .ok components ∧
        rule.filePatterns.resolve ctx = .ok patterns ∧ ¬ g.Changes components patterns ∧
          (g.Clears components patterns ↔ ¬ g.IsHalfKnown components patterns)) ∧
    ∀ components patterns, rule.components.resolve ctx = .ok components →
      rule.filePatterns.resolve ctx = .ok patterns → ¬ g.Forces rule app →
        ¬ g.Changes components patterns → g.LeavesOpen components patterns →
          (g.decide rule app ctx = .ok .defer ↔ ¬ g.IsHalfKnown components patterns) := by
  refine ⟨fun reason h => ?_, fun components patterns hc hp hforces hchanges hopen => ?_⟩
  · obtain ⟨components, patterns, hc, hp, hchanges, hsettles⟩ := resolved_of_skip h
    exact ⟨components, patterns, hc, hp, hchanges, clears_iff_of_settles hchanges hsettles⟩
  · exact decide_eq_defer_iff hforces hc hp hchanges hopen

end

/-- A rule for an app that depends on a component and on files. -/
def sampleRule (components patterns : List String) : Rule where
  folder := ⟨"/w/apps/foo"⟩
  components := .flat components
  filePatterns := .flat patterns

/-- A gate that knows that some other component is changed, and perhaps of files. -/
def sampleGate (files : Option (List Path)) : Gate where
  root := ⟨"/w"⟩
  components := some ["bt"]
  files := files

/-- With no files changed the app is skipped and cleared. With nothing known of files, one that
depends on files only is left to the build. -/
theorem skips_clear_iff_sample :
    (sampleGate (some [])).decide (sampleRule ["soc"] ["docs/**"]) ⟨"apps/foo"⟩ sampleContext =
        .ok (.skip
          "current build does not modify any components or files required by this app") ∧
      (sampleGate (some [])).Clears ["soc"] ["docs/**"] ∧
      (sampleGate none).decide (sampleRule [] ["docs/**"]) ⟨"apps/foo"⟩ sampleContext =
        .ok .defer := by
  have hskip : (sampleGate (some [])).decide (sampleRule ["soc"] ["docs/**"]) ⟨"apps/foo"⟩
      sampleContext = .ok (.skip
        "current build does not modify any components or files required by this app") :=
    eq_ok_of_toOption (by decide +kernel)
  refine ⟨hskip, ?_, ?_⟩
  · obtain ⟨components, patterns, hc, hp, -, hclears⟩ :=
      (skips_clear_iff _ _ ⟨"apps/foo"⟩ sampleContext).1 _ hskip
    obtain rfl := Except.ok.inj hc
    obtain rfl := Except.ok.inj hp
    refine hclears.mpr fun hhalf => ?_
    rcases hhalf.is_open with hnone | hnone
    · exact absurd hnone nofun
    · exact absurd hnone nofun
  · have hforces : ¬ (sampleGate none).Forces (sampleRule [] ["docs/**"]) ⟨"apps/foo"⟩ := by
      rw [Forces]
      decide +kernel
    have hchanges : ¬ (sampleGate none).Changes [] ["docs/**"] := by
      rw [Changes]
      decide +kernel
    have hopen : (sampleGate none).LeavesOpen [] ["docs/**"] := Or.inr ⟨by decide, rfl⟩
    exact ((skips_clear_iff _ _ _ sampleContext).2 _ _ rfl rfl hforces hchanges hopen).mpr
      fun hhalf => hhalf.components_ne_nil rfl

/-- An app that depends on files is skipped although nothing is known about files. -/
theorem skips_unknown_files_sample :
    (sampleGate none).isEnabled = true ∧
      (sampleGate none).decide (sampleRule ["soc"] ["docs/**"]) ⟨"apps/foo"⟩ sampleContext =
        .ok (.skip
          "current build does not modify any components or files required by this app") ∧
      ¬ (sampleGate none).Clears ["soc"] ["docs/**"] := by
  refine ⟨by decide +kernel, eq_ok_of_toOption (by decide +kernel), ?_⟩
  exact IsHalfKnown.not_clears ⟨by decide, by decide, Or.inr rfl⟩

end BuildMatrix.Gate
