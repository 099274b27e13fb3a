import BuildMatrix.Proofs.CommandLine.Failing

/-!
# Exit codes and kinds of errors

There is an exit code for each kind of error: 2 for settings, 3 for manifests and expressions, 4 for
options that do not go together, and 1 for all others. A failure says more than the kind of its
error: it also says whether an error of a manifest comes from a search. The exit code looks at both,
so it depends on the stage at which an error arises.

* `CommandLine.Failure.kind`: the kind of the error that a failure tells about.
* `CommandLine.exists_manifest_iff_of_fails`: the errors whose kind is lost are those of manifests
  that arise anywhere but in the comparison with recorded digests.
* `CommandLine.exitCode_by_kind_and_stage`: the exit codes of all runs.
-/

namespace BuildMatrix.CommandLine

variable {s : Setting} {d : Disk} {vars : Table String String} {r : Reading} {i : Invocation}
  {stage : Stage} {f : Failure}

/-! ## Kinds of errors -/

/-- The kinds of errors. -/
inductive ErrorKind
  | settings
  | manifest
  | expression
  | options
  | other
  deriving DecidableEq, Repr

/-- The exit code for a kind of errors. -/
def ErrorKind.exitCode : ErrorKind → Nat
  | settings => exitCodes.settings
  | manifest | expression => exitCodes.manifest
  | options => exitCodes.options
  | other => exitCodes.failure

/-- The kind of an error in settings. -/
def settingsKind : SettingsError → ErrorKind
  | .config _ => .settings
  | .option _ => .options

/-- The kind of an error in a search for apps. -/
def findKind : FindError → ErrorKind
  | .manifest _ => .manifest
  | .eval _ => .expression
  | .option _ => .options
  | .configRule .. | .walk .. => .other

/-- The kind of the error that a failure tells about. -/
def Failure.kind : Failure → ErrorKind
  | settings e => settingsKind e
  | manifest _ => .manifest
  | find e => findKind e
  | option _ => .options
  | collect _ | disk _ | completions .. => .other

theorem settingsKind_ne_manifest (e : SettingsError) : settingsKind e ≠ .manifest := by
  cases e <;> nofun

/-- The exit code is that of the kind, unless the failure is an error of a manifest by itself. -/
theorem Failure.exitCode_eq_of_forall_ne {f : Failure} (h : ∀ e, f ≠ .manifest e) :
    f.exitCode = f.kind.exitCode := by
  cases f with
  | manifest e => exact absurd rfl (h e)
  | settings e => cases e <;> rfl
  | find e => cases e <;> rfl
  | option e => rfl
  | collect e => rfl
  | disk e => rfl
  | completions file e => rfl

/-! ## Kinds at each stage -/

section

variable {q : Discovery.Query} {p folder : Path} {target : String} {e : FindError}

theorem findKind_of_appFolders {settings : Settings}
    (h : Discovery.appFolders d settings p = .error e) : findKind e = .other := by
  rw [Discovery.appFolders] at h
  split at h
  · cases h
  · cases hfind : d.find p with
    | error x =>
      rw [hfind] at h
      rw [← Except.error.inj h]
      rfl
    | ok t =>
      rw [hfind] at h
      cases h

theorem findKind_of_configs {rules : List ConfigRule}
    (h : Discovery.configs d rules folder target = .error e) : findKind e = .other := by
  obtain h | ⟨found, -, h⟩ := bind_eq_error_iff.mp h
  · obtain ⟨rule, -, h⟩ := exists_of_mapM_eq_error h
    unfold Discovery.configsOf at h
    split at h
    · rw [← Except.error.inj h]
      rfl
    · exact absurd h nofun
  · exact absurd h nofun

theorem findKind_of_appsFor (h : Discovery.appsFor q folder target = .error e) :
    findKind e = .expression ∨ findKind e = .other := by
  rw [Discovery.appsFor_eq] at h
  obtain h | ⟨found, -, h⟩ := bind_eq_error_iff.mp h
  · exact .inr (findKind_of_configs h)
  · obtain h | ⟨apps, -, h⟩ := bind_eq_error_iff.mp h
    · obtain ⟨c, -, rfl⟩ := mapError_eq_error_iff.mp h
      exact .inl rfl
    · exact absurd h nofun

/-- Looking for apps evaluates expressions, but does not read manifests. -/
theorem findKind_of_appsIn (h : Discovery.appsIn q p = .error e) :
    findKind e = .expression ∨ findKind e = .other := by
  rw [Discovery.appsIn_eq] at h
  obtain h | ⟨folders, -, h⟩ := bind_eq_error_iff.mp h
  · exact .inr (findKind_of_appFolders h)
  · obtain ⟨folder, -, h⟩ := Discovery.exists_of_collect_eq_error h
    obtain ⟨target, -, h⟩ := Discovery.exists_of_collect_eq_error h
    exact findKind_of_appsFor h

end

theorem exists_manifest_iff_of_selectionFails (h : SelectionFails d vars r stage f) :
    (∃ e, f = .manifest e) ↔ f.kind = .manifest ∧ stage ≠ .comparing := by
  cases h with
  | file h | check _ h => simp [Failure.kind, settingsKind_ne_manifest]
  | load hs h => simp [Failure.kind]
  | compare hs hm h => simp
  | search hs hm hgate h =>
    obtain ⟨p, -, hp⟩ := Discovery.exists_of_collect_eq_error h
    obtain hkind | hkind := findKind_of_appsIn hp <;> simp [Failure.kind, hkind]

theorem exists_manifest_iff_of_commandFails (h : CommandFails s d i stage f) :
    (∃ e, f = .manifest e) ↔ f.kind = .manifest ∧ stage ≠ .comparing := by
  cases h with
  | select _ h => exact exists_manifest_iff_of_selectionFails h
  | check => simp [Failure.kind, settingsKind_ne_manifest]
  | list | prepare | load | record | complete => simp [Failure.kind]

theorem exists_manifest_iff_of_fails (h : Fails s d i stage f) :
    (∃ e, f = .manifest e) ↔ f.kind = .manifest ∧ stage ≠ .comparing := by
  cases h with
  | command _ h => exact exists_manifest_iff_of_commandFails h
  | enter | collect => simp [Failure.kind]

/-! ## The exit codes -/

/-- **Exit codes follow the kind of error, but for manifests that are read.** Arguments that cannot
be read have the exit code for usage. A run that fails reports its failure with the exit code for
the kind of its error; only an error of a manifest has that of other errors, unless it arises when
the manifest is compared with recorded digests. A run that does not fail succeeds or has built apps
of which one failed. -/
theorem exitCode_by_kind_and_stage (launch : Build.Launcher) (vars : Table String String) (d : Disk)
    (args : List String) :
    (∀ stop, wishOf vars args = .error stop → (run launch vars d args).exitCode = usageCode) ∧
    ∀ i, wishOf vars args = .ok (.perform i) →
      (∀ stage f, Fails ⟨vars, launch, isColoured vars⟩ d i stage f →
        (run launch vars d args).errors = errorMessage (isColoured vars) f.chain ∧
        (run launch vars d args).exitCode =
          if f.kind = .manifest ∧ stage ≠ .comparing then exitCodes.failure else f.kind.exitCode) ∧
      ((∀ stage f, ¬ Fails ⟨vars, launch, isColoured vars⟩ d i stage f) →
        (run launch vars d args).exitCode = exitCodes.success ∨
          (run launch vars d args).exitCode = exitCodes.failure ∧
            HasFailedApp ⟨vars, launch, isColoured vars⟩ d i) := by
  refine ⟨fun stop hstop => ?_, fun i hi => ⟨fun stage f hf => ?_, fun hsound => ?_⟩⟩
  · rw [run, hstop]
  · obtain ⟨d', hd'⟩ := exists_run_eq_failed launch hi hf
    rw [hd']
    refine ⟨rfl, ?_⟩
    split
    case isTrue hkind =>
      obtain ⟨e, rfl⟩ := (exists_manifest_iff_of_fails hf).mpr hkind
      rfl
    case isFalse hkind =>
      refine Failure.exitCode_eq_of_forall_ne fun e he => hkind ?_
      exact (exists_manifest_iff_of_fails hf).mp ⟨e, he⟩
  · rw [run, hi]
    exact exitCode_of_forall_not_fails hsound

/-! ### Errors of manifests in a folder without any -/

/-- A folder with a file that is no snapshot, and without manifests. -/
def bareDisk : Disk :=
  ⟨.folder [("sha.txt", .file (.text "foo"))], []⟩

/-- How commands are run in it. -/
def bareSetting : Setting :=
  ⟨[], Build.launchShell, false⟩

/-- Finds apps after comparing an empty manifest with what is no snapshot. -/
def compareWords : List String :=
  ["find", "--compare-manifest-sha-filepath", "sha.txt"]

/-- Finds apps by a manifest that is missing. -/
def missingWords : List String :=
  ["find", "--manifest-files", "missing.yml"]

/-- Writes a snapshot of a manifest that is missing. -/
def snapshotWords : List String :=
  ["dump-manifest-sha", "--manifest-files", "missing.yml", "--output", "x"]

theorem fails_compareWords : ∃ i, wishOf [] compareWords = .ok (.perform i) ∧
    Fails bareSetting bareDisk i .comparing
      (.find (.manifest (.malformedLine ⟨"sha.txt"⟩ 1 "foo"))) :=
  ⟨_, rfl, .command rfl (.select rfl (.compare ⟨_, rfl, rfl, rfl⟩ rfl rfl))⟩

theorem fails_missingWords : ∃ i, wishOf [] missingWords = .ok (.perform i) ∧
    Fails bareSetting bareDisk i .loading (.manifest (.disk .notFound)) :=
  ⟨_, rfl, .command rfl (.select rfl (.load ⟨_, rfl, rfl, rfl⟩ rfl))⟩

theorem fails_snapshotWords : ∃ i, wishOf [] snapshotWords = .ok (.perform i) ∧
    Fails bareSetting bareDisk i .loading (.manifest (.disk .notFound)) :=
  ⟨_, rfl, .command rfl (.load rfl rfl)⟩

theorem exitCode_by_kind_and_stage_sample :
    (∃ i stage f, wishOf [] compareWords = .ok (.perform i) ∧
        Fails bareSetting bareDisk i stage f) ∧
      (run Build.launchShell [] bareDisk compareWords).exitCode = 3 ∧
      (run Build.launchShell [] bareDisk snapshotWords).exitCode = 1 ∧
      wishOf [] ["find", "--find"] = .error .usage ∧
      (run Build.launchShell [] bareDisk ["find", "--find"]).exitCode = 2 := by
  obtain ⟨i, hi, hcompare⟩ := fails_compareWords
  obtain ⟨j, hj, hsnapshot⟩ := fails_snapshotWords
  refine ⟨⟨i, _, _, hi, hcompare⟩, ?_, ?_, rfl, ?_⟩
  · exact (((exitCode_by_kind_and_stage Build.launchShell [] bareDisk _).2 i hi).1 _ _ hcompare).2
  · exact (((exitCode_by_kind_and_stage Build.launchShell [] bareDisk _).2 j hj).1 _ _ hsnapshot).2
  · exact (exitCode_by_kind_and_stage Build.launchShell [] bareDisk _).1 .usage rfl

theorem exitCode_bareDisk {words : List String} (hi : wishOf [] words = .ok (.perform i))
    (hf : Fails bareSetting bareDisk i stage f) :
    (run Build.launchShell [] bareDisk words).exitCode = f.exitCode := by
  obtain ⟨d', hd'⟩ := exists_run_eq_failed Build.launchShell hi hf
  rw [hd']
  rfl

/-- The exit code does not only depend on the kind of an error: a malformed snapshot has the one for
manifests, a manifest that is missing has not, neither when apps are looked for nor when a snapshot
is written. -/
theorem manifest_errors_sample :
    (∃ i f, wishOf [] compareWords = .ok (.perform i) ∧
      Fails bareSetting bareDisk i .comparing f ∧ f.kind = .manifest ∧
      (run Build.launchShell [] bareDisk compareWords).exitCode = exitCodes.manifest) ∧
    (∃ i f, wishOf [] missingWords = .ok (.perform i) ∧
      Fails bareSetting bareDisk i .loading f ∧ f.kind = .manifest ∧
      (run Build.launchShell [] bareDisk missingWords).exitCode ≠ exitCodes.manifest) ∧
    ∃ i f, wishOf [] snapshotWords = .ok (.perform i) ∧
      Fails bareSetting bareDisk i .loading f ∧ f.kind = .manifest ∧
      (run Build.launchShell [] bareDisk snapshotWords).exitCode ≠ exitCodes.manifest := by
  refine ⟨?_, ?_, ?_⟩
  · obtain ⟨i, hi, hfails⟩ := fails_compareWords
    exact ⟨i, _, hi, hfails, rfl, exitCode_bareDisk hi hfails⟩
  · obtain ⟨i, hi, hfails⟩ := fails_missingWords
    exact ⟨i, _, hi, hfails, rfl, (exitCode_bareDisk hi hfails).trans_ne (by decide)⟩
  · obtain ⟨i, hi, hfails⟩ := fails_snapshotWords
    exact ⟨i, _, hi, hfails, rfl, (exitCode_bareDisk hi hfails).trans_ne (by decide)⟩

end BuildMatrix.CommandLine
