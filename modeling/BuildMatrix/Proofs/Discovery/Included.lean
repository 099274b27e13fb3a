import BuildMatrix.Proofs.Discovery.Search

/-!
# The include options only filter

Whether disabled and skipped apps belong to the result is decided last for each app, but before apps
are sorted and have their repeats dropped. A search that includes fewer apps still looks at all of
them, so it fails when the full search does, with the same error, and finds the others in the same
order.

* `Discovery.IsIncluded`: what the options ask of an app.
* `Discovery.appsFor_including`, `Discovery.appsIn_including`: one folder for one target, and for
  all targets.
* `Discovery.findApps_including`: the whole search is the full one with some apps left out.
* `Discovery.include_options_only_filter`: the result for each choice of the options.
-/

namespace BuildMatrix

/-- The settings with a choice of which apps belong to the result. -/
def Settings.including (s : Settings) (disabled skipped : Bool) : Settings :=
  { s with includeDisabled := disabled, includeSkipped := skipped }

namespace Discovery

variable {d : Disk} {s : Settings} {m : Manifest} {env : Environment} {disabled skipped : Bool}

/-- Whether an app belongs to the result, given whether disabled and skipped ones do. -/
def IsIncluded (disabled skipped : Bool) (a : App) : Prop :=
  (a.status = .disabled → disabled = true) ∧ (a.status = .skipped → skipped = true)

instance (disabled skipped : Bool) : DecidablePred (IsIncluded disabled skipped) :=
  fun _ => inferInstanceAs (Decidable (_ ∧ _))

theorem keeps_including (s : Settings) (disabled skipped : Bool) (a : App) :
    keeps (s.including disabled skipped) a = decide (IsIncluded disabled skipped a) := by
  rw [Bool.eq_iff_iff, decide_eq_true_iff, IsIncluded, keeps]
  cases a.status <;> simp [Settings.including]

theorem keeps_including_all (s : Settings) (a : App) : keeps (s.including true true) a = true := by
  rw [keeps_including]
  exact decide_eq_true ⟨fun _ => rfl, fun _ => rfl⟩

/-- Apps that are the same are included together. -/
theorem isIncluded_eq_of_same {a b : App} (h : a.same b = true) :
    decide (IsIncluded disabled skipped a) = decide (IsIncluded disabled skipped b) := by
  obtain ⟨-, -, hrest⟩ := App.same_iff.mp h
  have hstatus : a.withoutPaths.status = b.withoutPaths.status := congrArg App.status hrest
  have hab : a.status = b.status := hstatus
  rw [decide_eq_decide, IsIncluded, IsIncluded, hab]

/-! ## One folder -/

/-- The apps of a folder for a target, included or not. -/
def judgedApps (q : Query) (folder : Path) (target : String) : Except FindError (List App) := do
  let found ← configs q.disk (q.settings.configRules.map ConfigRule.read) folder target
  let apps ← (found.mapM (appFor q (q.manifest.governingRule (q.disk.absolute folder)) folder
    target)).mapError FindError.eval
  return apps.filterMap id

/-- Apps are left out after all of them have been judged. -/
theorem appsFor_eq_judgedApps (q : Query) (folder : Path) (target : String) :
    appsFor q folder target =
      (judgedApps q folder target).map (List.filter (keeps q.settings)) := by
  rw [judgedApps, map_bind]
  simp only [map_bind]
  rfl

section

variable {gate : Gate}

/-- Judging apps does not look at the include options. -/
theorem judgedApps_including (disabled skipped disabled' skipped' : Bool) :
    judgedApps (queryOf d (s.including disabled skipped) m env gate) =
      judgedApps (queryOf d (s.including disabled' skipped') m env gate) :=
  rfl

theorem appsFor_including (folder : Path) (target : String) :
    appsFor (queryOf d (s.including disabled skipped) m env gate) folder target =
      (appsFor (queryOf d (s.including true true) m env gate) folder target).map
        (List.filter fun a => IsIncluded disabled skipped a) := by
  have hall : List.filter (keeps (s.including true true)) = id :=
    funext fun apps => List.filter_eq_self.mpr fun a _ => keeps_including_all s a
  have hsome : keeps (s.including disabled skipped) =
      fun a => decide (IsIncluded disabled skipped a) :=
    funext (keeps_including s disabled skipped)
  rw [appsFor_eq_judgedApps, appsFor_eq_judgedApps, judgedApps_including disabled skipped true true]
  show Except.map (List.filter (keeps (s.including disabled skipped))) _ =
    Except.map _ (Except.map (List.filter (keeps (s.including true true))) _)
  rw [hall, hsome, map_id_eq]

theorem appsIn_including (p : Path) :
    appsIn (queryOf d (s.including disabled skipped) m env gate) p =
      (appsIn (queryOf d (s.including true true) m env gate) p).map
        (List.filter fun a => IsIncluded disabled skipped a) := by
  rw [appsIn_eq, appsIn_eq, map_bind]
  refine congrArg₂ (· >>= ·) ?_ (funext fun folders => ?_)
  · refine appFolders_eq ?_ ?_ p <;> rfl
  · exact collect_filter (fun folder => collect_filter (appsFor_including folder) _) folders

end

/-! ## The whole search -/

/-- A search that includes fewer apps is the full search with the others left out; it fails with
the same errors. -/
theorem findApps_including (d : Disk) (s : Settings) (m : Manifest) (env : Environment)
    (disabled skipped : Bool) :
    findApps d (s.including disabled skipped) m env =
      (findApps d (s.including true true) m env).map
        (List.filter fun a => IsIncluded disabled skipped a) := by
  rw [findApps_eq, findApps_eq, map_bind]
  refine congrArg₂ (· >>= ·) rfl (funext fun gate => ?_)
  rw [collect_filter appsIn_including]
  show Except.map _ (Except.map _ (collect (appsIn _) s.paths)) =
    Except.map _ (Except.map _ (collect (appsIn _) s.paths))
  cases hfound : collect (appsIn (queryOf d (s.including true true) m env gate)) s.paths with
  | error e => rfl
  | ok found =>
    exact congrArg Except.ok (App.dropRepeats_sorted_filter
      (fun a b hab => isIncluded_eq_of_same hab)
      fun a ha b hb => same_of_mem_collect hfound ha hb)

/-- **The include options only filter.** A search without disabled and skipped apps has a result
exactly when the full search has one, and then it is the result of the full search, in the same
order, with these apps left out. Each of the two options adds back the apps with its status. -/
theorem include_options_only_filter (d : Disk) (s : Settings) (m : Manifest) (env : Environment) :
    ((∃ apps, findApps d (s.including false false) m env = .ok apps) ↔
        ∃ apps, findApps d (s.including true true) m env = .ok apps) ∧
      findApps d (s.including false false) m env =
        (findApps d (s.including true true) m env).map
          (List.filter fun a => a.status ≠ .disabled ∧ a.status ≠ .skipped) ∧
      findApps d (s.including true false) m env =
        (findApps d (s.including true true) m env).map
          (List.filter fun a => a.status ≠ .skipped) ∧
      findApps d (s.including false true) m env =
        (findApps d (s.including true true) m env).map
          (List.filter fun a => a.status ≠ .disabled) := by
  have hneither : List.filter (fun a => IsIncluded false false a) =
      List.filter fun a => a.status ≠ .disabled ∧ a.status ≠ .skipped := by
    simp [IsIncluded]
  have hdisabled : List.filter (fun a => IsIncluded true false a) =
      List.filter fun a => a.status ≠ .skipped := by
    simp [IsIncluded]
  have hskipped : List.filter (fun a => IsIncluded false true a) =
      List.filter fun a => a.status ≠ .disabled := by
    simp [IsIncluded]
  rw [← hneither, ← hdisabled, ← hskipped]
  refine ⟨?_, findApps_including d s m env false false, findApps_including d s m env true false,
    findApps_including d s m env false true⟩
  rw [findApps_including d s m env false false]
  constructor
  · rintro ⟨apps, h⟩
    obtain ⟨all, hall, -⟩ := map_eq_ok_iff.mp h
    exact ⟨all, hall⟩
  · rintro ⟨all, hall⟩
    exact ⟨_, map_eq_ok_iff.mpr ⟨all, hall, rfl⟩⟩

end Discovery

end BuildMatrix
