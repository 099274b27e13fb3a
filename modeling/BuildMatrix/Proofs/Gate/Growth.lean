import BuildMatrix.Proofs.Gate.Decision
import BuildMatrix.Proofs.Path.Normal

/-!
# More changes at the gate

When more is changed, no app is built less. What speaks for a build goes on to hold when changes
are added, and so does what speaks against skipping.

* `Gate.IsWithin`: the changes of one gate are among those of another one.
* `Gate.IsWithin.forces`, `Gate.IsWithin.changes`, `Gate.IsWithin.settles_of`: what becomes of the
  questions that the decision depends on.
* `Gate.decide_mono`: the decision is at least as strong with more changes, and there is one.
-/

namespace BuildMatrix

/-- The strength of a decision. An app that is left to the build stands between a skipped one and a
built one. -/
def Decision.rank : Decision → Nat
  | .skip _ => 0
  | .defer => 1
  | .build _ => 2

/-! ## Files and patterns -/

theorem Glob.readAll_congr {root root' : Path} (hroot : root.components = root'.components)
    (patterns : List String) : readAll patterns root = readAll patterns root' := by
  rw [readAll, readAll]
  congr 1
  funext pattern
  rw [Path.absolutize_congr hroot rfl]

/-- More files match more. -/
theorem Glob.filesMatch_mono {files files' : List Path} {root root' : Path}
    (hroot : root.components = root'.components)
    (hfiles : ∀ f ∈ files, ∃ f' ∈ files', f.same f' = true) {patterns : List String}
    (h : filesMatch files patterns root = true) : filesMatch files' patterns root' = true := by
  rw [filesMatch, Bool.and_eq_true] at h ⊢
  rw [readAll_congr hroot] at h
  obtain ⟨hordered, hany⟩ := h
  obtain ⟨f, hf, hmatch⟩ := List.any_eq_true.mp hany
  obtain ⟨f', hf', hsame⟩ := hfiles f hf
  rw [Path.absolutize_congr hroot (Path.same_iff.mp hsame)] at hmatch
  exact ⟨hordered, List.any_eq_true.mpr ⟨f', hf', hmatch⟩⟩

namespace Gate

/-! ## When the gate applies -/

section

variable {g : Gate}

theorem isDeactivatedByComponent_iff : g.isDeactivatedByComponent = true ↔
    ∃ names changed, g.deactivatingComponents = some names ∧ g.components = some changed ∧
      ∃ c ∈ names, c ∈ changed := by
  rw [isDeactivatedByComponent]
  cases g.deactivatingComponents with
  | none => simp
  | some names => cases g.components <;> simp

theorem isDeactivatedByFile_iff : g.isDeactivatedByFile = true ↔
    ∃ patterns files, g.deactivatingPatterns = some patterns ∧ g.files = some files ∧
      Glob.filesMatch files patterns g.root = true := by
  rw [isDeactivatedByFile]
  cases g.deactivatingPatterns with
  | none => simp
  | some patterns => cases g.files <;> simp

theorem isEnabled_eq_false_iff : g.isEnabled = false ↔
    (g.components = none ∧ g.files = none) ∨ g.isDeactivatedByComponent = true ∨
      g.isDeactivatedByFile = true := by
  rw [isEnabled, Bool.and_eq_false_iff, Bool.and_eq_false_iff, Bool.or_eq_false_iff,
    Option.isSome_eq_false_iff, Option.isSome_eq_false_iff, Option.isNone_iff_eq_none,
    Option.isNone_iff_eq_none, Bool.not_eq_false', Bool.not_eq_false', or_assoc]

end

/-! ## Growing changes -/

/-- Whether two gates differ only in what they know to be changed, and what is changed for the
first one is changed for the second one. Paths are compared by their components. -/
structure IsWithin (g g' : Gate) : Prop where
  root : g.root.same g'.root = true
  deactivatingComponents : g.deactivatingComponents = g'.deactivatingComponents
  deactivatingPatterns : g.deactivatingPatterns = g'.deactivatingPatterns
  components : Option.Rel (fun cs cs' => ∀ c ∈ cs, c ∈ cs') g.components g'.components
  files : Option.Rel (fun fs fs' => ∀ f ∈ fs, ∃ f' ∈ fs', f.same f' = true) g.files g'.files
  /-- To give no folders means that none is changed. -/
  manifestFolders : ∀ f ∈ g.manifestFolders.getD [], ∃ f' ∈ g'.manifestFolders.getD [],
    f.same f' = true

section

variable {α : Type} {R : List α → List α → Prop} {o o' : Option (List α)}

theorem exists_of_rel {as : List α} (h : Option.Rel R o o') (ho : o = some as) :
    ∃ bs, o' = some bs ∧ R as bs := by
  subst ho
  cases h with
  | some hab => exact ⟨_, rfl, hab⟩

theorem exists_of_rel_right {bs : List α} (h : Option.Rel R o o') (ho : o' = some bs) :
    ∃ as, o = some as ∧ R as bs := by
  subst ho
  cases h with
  | some hab => exact ⟨_, rfl, hab⟩

theorem eq_none_of_rel (h : Option.Rel R o o') (ho : o = none) : o' = none := by
  subst ho
  cases h with
  | none => rfl

end

namespace IsWithin

variable {g g' : Gate} {components patterns : List String}

theorem components_root (h : g.IsWithin g') : g.root.components = g'.root.components :=
  Path.same_iff.mp h.root

theorem isDeactivatedByComponent (h : g.IsWithin g') (hg : g.isDeactivatedByComponent = true) :
    g'.isDeactivatedByComponent = true := by
  obtain ⟨names, changed, hnames, hchanged, c, hc, hmem⟩ := isDeactivatedByComponent_iff.mp hg
  obtain ⟨changed', hchanged', hsub⟩ := exists_of_rel h.components hchanged
  exact isDeactivatedByComponent_iff.mpr
    ⟨names, changed', h.deactivatingComponents ▸ hnames, hchanged', c, hc, hsub c hmem⟩

theorem isDeactivatedByFile (h : g.IsWithin g') (hg : g.isDeactivatedByFile = true) :
    g'.isDeactivatedByFile = true := by
  obtain ⟨patterns, files, hpatterns, hfiles, hmatch⟩ := isDeactivatedByFile_iff.mp hg
  obtain ⟨files', hfiles', hsub⟩ := exists_of_rel h.files hfiles
  exact isDeactivatedByFile_iff.mpr ⟨patterns, files', h.deactivatingPatterns ▸ hpatterns, hfiles',
    Glob.filesMatch_mono h.components_root hsub hmatch⟩

/-- A gate that does not apply does not apply with more changes. -/
theorem isEnabled_eq_false (h : g.IsWithin g') (hg : g.isEnabled = false) :
    g'.isEnabled = false := by
  rw [isEnabled_eq_false_iff] at hg ⊢
  rcases hg with ⟨hcomponents, hfiles⟩ | hg | hg
  · exact Or.inl ⟨eq_none_of_rel h.components hcomponents, eq_none_of_rel h.files hfiles⟩
  · exact Or.inr (Or.inl (h.isDeactivatedByComponent hg))
  · exact Or.inr (Or.inr (h.isDeactivatedByFile hg))

theorem touches (h : g.IsWithin g') {folder : Path} (hg : g.touches folder = true) :
    g'.touches folder = true := by
  obtain ⟨f, hf, hwithin⟩ := List.any_eq_true.mp hg
  cases hfiles : g.files with
  | none =>
    rw [hfiles] at hf
    exact absurd hf (by simp)
  | some files =>
    rw [hfiles] at hf
    obtain ⟨files', hfiles', hsub⟩ := exists_of_rel h.files hfiles
    obtain ⟨f', hf', hsame⟩ := hsub f hf
    rw [Path.isWithin, Path.same_iff.mp hsame] at hwithin
    exact List.any_eq_true.mpr ⟨f', by rwa [hfiles'], hwithin⟩

theorem changesRuleOf (h : g.IsWithin g') {folder : Path} (hg : g.changesRuleOf folder = true) :
    g'.changesRuleOf folder = true := by
  obtain ⟨f, hf, hfolder⟩ := List.any_eq_true.mp hg
  obtain ⟨f', hf', hsame⟩ := h.manifestFolders f hf
  have hcomponents := (Path.same_iff.mp hsame).symm.trans (Path.same_iff.mp hfolder)
  exact List.any_eq_true.mpr ⟨f', hf', Path.same_iff.mpr hcomponents⟩

/-- A build that is forced is forced with more changes. -/
theorem forces (h : g.IsWithin g') {rule : Rule} {app : Path} (hg : g.Forces rule app) :
    g'.Forces rule app := by
  have happ : app.absolutize g.root = app.absolutize g'.root :=
    Path.absolutize_congr h.components_root rfl
  rcases hg with hg | hg | hg
  · exact Or.inl (h.isEnabled_eq_false hg)
  · exact Or.inr (Or.inl (happ ▸ h.touches hg))
  · exact Or.inr (Or.inr (h.changesRuleOf hg))

theorem changedAmong_ne_nil (h : g.IsWithin g') (hg : g.changedAmong components ≠ []) :
    g'.changedAmong components ≠ [] := by
  obtain ⟨c, hc⟩ := List.exists_mem_of_ne_nil _ hg
  obtain ⟨hmem, hchanged⟩ := mem_changedAmong_iff.mp hc
  obtain ⟨changed, hcomponents⟩ := (knowsComponents_iff.mp (knowsComponents_of_changedAmong hg)).2
  obtain ⟨changed', hcomponents', hsub⟩ := exists_of_rel h.components hcomponents
  rw [hcomponents] at hchanged
  have hc' : c ∈ g'.changedAmong components :=
    mem_changedAmong_iff.mpr ⟨hmem, by rw [hcomponents']; exact hsub c hchanged⟩
  exact List.ne_nil_of_mem hc'

/-- A changed dependency is changed with more changes. -/
theorem changes (h : g.IsWithin g') (hg : g.Changes components patterns) :
    g'.Changes components patterns := by
  rcases hg with hg | hg
  · exact Or.inl (h.changedAmong_ne_nil hg)
  · obtain ⟨files, hfiles, hmatch⟩ := changesFilesOf_iff.mp hg
    obtain ⟨files', hfiles', hsub⟩ := exists_of_rel h.files hfiles
    exact Or.inr (changesFilesOf_iff.mpr
      ⟨files', hfiles', Glob.filesMatch_mono h.components_root hsub hmatch⟩)

/-- What is enough to skip an app with more changes is enough with fewer ones: which kinds of
changes are given is the same, and a list without components has none that could be left out. -/
theorem settles_of (h : g.IsWithin g') (hg : g'.Settles components patterns) :
    g.Settles components patterns := by
  rcases hg with hg | hg | ⟨hcomponents', hpatterns⟩
  · obtain ⟨hne, changed', hcomponents'⟩ := knowsComponents_iff.mp hg
    obtain ⟨changed, hcomponents, -⟩ := exists_of_rel_right h.components hcomponents'
    exact Or.inl (knowsComponents_iff.mpr ⟨hne, changed, hcomponents⟩)
  · obtain ⟨hne, files', hfiles'⟩ := knowsFiles_iff.mp hg
    obtain ⟨files, hfiles, -⟩ := exists_of_rel_right h.files hfiles'
    exact Or.inr (Or.inl (knowsFiles_iff.mpr ⟨hne, files, hfiles⟩))
  · obtain ⟨changed, hcomponents, hsub⟩ := exists_of_rel_right h.components hcomponents'
    have hnil : changed = [] :=
      List.eq_nil_iff_forall_not_mem.mpr fun c hc => absurd (hsub c hc) (by simp)
    exact Or.inr (Or.inr ⟨hnil ▸ hcomponents, hpatterns⟩)

theorem rank_decideByDependencies_le (h : g.IsWithin g') (components patterns : List String) :
    (g.decideByDependencies components patterns).rank ≤
      (g'.decideByDependencies components patterns).rank := by
  rcases g'.decideByDependencies_cases components patterns with
    ⟨-, reason', hd'⟩ | ⟨hchanges', hsettles', reason', hd'⟩ | ⟨hchanges', -, hd'⟩
  · rw [hd']
    cases g.decideByDependencies components patterns <;> simp [Decision.rank]
  · rcases g.decideByDependencies_cases components patterns with
      ⟨hchanges, -⟩ | ⟨-, -, reason, hd⟩ | ⟨-, hsettles, -⟩
    · exact absurd (h.changes hchanges) hchanges'
    · rw [hd]
      exact Nat.zero_le _
    · exact absurd (h.settles_of hsettles') hsettles
  · rw [hd']
    rcases g.decideByDependencies_cases components patterns with
      ⟨hchanges, -⟩ | ⟨-, -, reason, hd⟩ | ⟨-, -, hd⟩
    · exact absurd (h.changes hchanges) hchanges'
    · rw [hd]
      exact Nat.zero_le _
    · exact Nat.le_of_eq (congrArg Decision.rank hd)

end IsWithin

/-- **More changes never build less.** Where the gate has a decision about an app, it has one
with more changes, and the second one is at least as strong as the first one. -/
theorem decide_mono {g g' : Gate} (h : g.IsWithin g') {rule : Rule} {app : Path} {ctx : Context}
    {d : Decision} (hd : g.decide rule app ctx = .ok d) :
    ∃ d', g'.decide rule app ctx = .ok d' ∧ d.rank ≤ d'.rank := by
  by_cases hforces' : g'.Forces rule app
  · obtain ⟨reason, hbuild⟩ := decide_of_forces hforces' ctx
    refine ⟨_, hbuild, ?_⟩
    cases d <;> simp [Decision.rank]
  · rcases forces_or_resolved hd with ⟨hforces, -⟩ | ⟨-, components, patterns, hc, hp, rfl⟩
    · exact absurd (h.forces hforces) hforces'
    · exact ⟨_, decide_of_resolve hforces' hc hp, h.rank_decideByDependencies_le _ _⟩

/-- A gate that does not apply when the component `freertos` is changed. -/
def sampleCareful (components : List String) : Gate where
  root := ⟨"/w"⟩
  components := some components
  deactivatingComponents := some ["freertos"]

/-- A rule for an app that depends on the files of its documentation only. -/
def sampleDocumented : Rule where
  folder := ⟨"/w/apps/foo"⟩
  filePatterns := .flat ["docs/**"]

/-- The added change makes the gate not apply, where the app was left to the build before. -/
theorem decide_mono_sample :
    (sampleCareful ["bt"]).IsWithin (sampleCareful ["bt", "freertos"]) ∧
      (sampleCareful ["bt"]).decide sampleDocumented ⟨"apps/foo"⟩ sampleContext = .ok .defer ∧
      ∃ d, (sampleCareful ["bt", "freertos"]).decide sampleDocumented ⟨"apps/foo"⟩ sampleContext =
          .ok d ∧ Decision.defer.rank ≤ d.rank := by
  have hwithin : (sampleCareful ["bt"]).IsWithin (sampleCareful ["bt", "freertos"]) :=
    ⟨by decide +kernel, rfl, rfl, .some (by decide), .none, by decide⟩
  have hdecide : (sampleCareful ["bt"]).decide sampleDocumented ⟨"apps/foo"⟩ sampleContext =
      .ok .defer := eq_ok_of_toOption (by decide +kernel)
  exact ⟨hwithin, hdecide, decide_mono hwithin hdecide⟩

end Gate

end BuildMatrix
