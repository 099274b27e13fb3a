import BuildMatrix.CommandLine.Run
import BuildMatrix.Proofs.Build.Protocol
import BuildMatrix.Proofs.Discovery.Search

/-!
# How a run fails

A run goes through stages: its folder is entered, settings and manifests are read, apps are looked
for and built, and files are written. Each stage has errors of its own. A run that comes to one of
them stops and reports it, and a run that comes to none has done its work.

* `CommandLine.SelectionFails`, `CommandLine.CommandFails`, `CommandLine.Fails`: the failures of a
  selection of apps, of a command and of a run, each with the stage at which it arises.
* `CommandLine.discover_eq_error_iff`, `CommandLine.performHere_eq_error_iff`: there are no others.
* `CommandLine.exists_run_eq_failed`: the report of a run that fails.
* `CommandLine.exitCode_of_forall_not_fails`: the exit code of a run that does not.
-/

namespace BuildMatrix.CommandLine

/-! ## Selecting apps -/

/-- The stages of a run. -/
inductive Stage
  /-- The folder of the run is entered. -/
  | entering
  /-- Settings are read, overridden by options and checked. -/
  | configuring
  | loading
  /-- The changes that the gate goes by are read, recorded digests among them. -/
  | comparing
  | searching
  /-- Records of built apps are collected. -/
  | collecting
  | writing
  deriving DecidableEq, Repr

variable {d : Disk} {vars : Table String String} {r : Reading} {stage : Stage} {f : Failure}

/-- The settings that a selection comes to. -/
def Configures (d : Disk) (vars : Table String String) (r : Reading) (s : Settings) : Prop :=
  ∃ file, fileSettings d r = .ok file ∧ selected r vars file = s ∧ s.check = .ok ()

/-- The manifest that apps are selected by. -/
def manifestOf (d : Disk) (s : Settings) : Except ManifestError Manifest :=
  Manifest.load d s.manifestFiles s.manifestRoot s.checkManifests

/-- The failures of a selection. -/
inductive SelectionFails (d : Disk) (vars : Table String String) (r : Reading) :
    Stage → Failure → Prop
  | file {e : SettingsError} (h : fileSettings d r = .error e) :
    SelectionFails d vars r .configuring (.settings e)
  | check {file : Settings} {e : SettingsError} (hfile : fileSettings d r = .ok file)
    (h : (selected r vars file).check = .error e) :
    SelectionFails d vars r .configuring (.settings e)
  | load {s : Settings} {e : ManifestError} (hs : Configures d vars r s)
    (h : manifestOf d s = .error e) :
    SelectionFails d vars r .loading (.manifest e)
  | compare {s : Settings} {m : Manifest} {e : FindError} (hs : Configures d vars r s)
    (hm : manifestOf d s = .ok m) (h : Discovery.gateOf d s m = .error e) :
    SelectionFails d vars r .comparing (.find e)
  | search {s : Settings} {m : Manifest} {gate : Gate} {e : FindError} (hs : Configures d vars r s)
    (hm : manifestOf d s = .ok m) (hgate : Discovery.gateOf d s m = .ok gate)
    (h : Discovery.collect
      (Discovery.appsIn (Discovery.queryOf d s m (environmentOf d s vars) gate)) s.paths =
        .error e) :
    SelectionFails d vars r .searching (.find e)

theorem discover_eq (d : Disk) (vars : Table String String) (r : Reading) :
    discover d vars r = (fileSettings d r).mapError Failure.settings >>= fun file =>
      (selected r vars file).check.mapError Failure.settings >>= fun _ =>
        (manifestOf d (selected r vars file)).mapError Failure.manifest >>= fun m =>
          (Discovery.findApps d (selected r vars file) m
            (environmentOf d (selected r vars file) vars)).mapError Failure.find >>= fun apps =>
              .ok (selected r vars file, apps) :=
  rfl

/-- A selection fails in one of these ways. -/
theorem discover_eq_error_iff :
    discover d vars r = .error f ↔ ∃ stage, SelectionFails d vars r stage f := by
  rw [discover_eq]
  simp only [bind_eq_error_iff, mapError_eq_error_iff, mapError_eq_ok_iff, Discovery.findApps_eq,
    map_eq_error_iff, reduceCtorEq, and_false, exists_false, or_false]
  constructor
  · rintro (⟨e, h, rfl⟩ |
      ⟨file, hfile, ⟨e, h, rfl⟩ | ⟨⟨⟩, hcheck, ⟨e, h, rfl⟩ | ⟨m, hm, e, h, rfl⟩⟩⟩)
    · exact ⟨_, .file h⟩
    · exact ⟨_, .check hfile h⟩
    · exact ⟨_, .load ⟨file, hfile, rfl, hcheck⟩ h⟩
    · obtain h | ⟨gate, hgate, h⟩ := h
      · exact ⟨_, .compare ⟨file, hfile, rfl, hcheck⟩ hm h⟩
      · exact ⟨_, .search ⟨file, hfile, rfl, hcheck⟩ hm hgate h⟩
  · rintro ⟨stage, h⟩
    cases h with
    | file h => exact .inl ⟨_, h, rfl⟩
    | check hfile h => exact .inr ⟨_, hfile, .inl ⟨_, h, rfl⟩⟩
    | load hs h =>
      obtain ⟨file, hfile, rfl, hcheck⟩ := hs
      exact .inr ⟨file, hfile, .inr ⟨(), hcheck, .inl ⟨_, h, rfl⟩⟩⟩
    | compare hs hm h =>
      obtain ⟨file, hfile, rfl, hcheck⟩ := hs
      exact .inr ⟨file, hfile, .inr ⟨(), hcheck, .inr ⟨_, hm, _, .inl h, rfl⟩⟩⟩
    | search hs hm hgate h =>
      obtain ⟨file, hfile, rfl, hcheck⟩ := hs
      exact .inr ⟨file, hfile, .inr ⟨(), hcheck, .inr ⟨_, hm, _, .inr ⟨_, hgate, h⟩, rfl⟩⟩⟩

/-! ## Commands -/

variable {s : Setting} {i : Invocation} {report : Report}

/-- A build run that a command comes to. -/
def Builds (s : Setting) (d : Disk) (i : Invocation) (p : Build.Progress) : Prop :=
  ∃ found apps options, discover d s.vars i.options = .ok (found, apps) ∧
    (buildSettings i.options found).check = .ok () ∧
    Build.Options.ofSettings (buildSettings i.options found) s.vars = .ok options ∧
    Build.run (Build.sdkBuilder s.launch ((i.options.value? "python").getD "python") s.vars) options
      d apps = p

/-- The manifest whose digests a command writes to a file. -/
def snapshotManifest (d : Disk) (i : Invocation) : Except ManifestError Manifest :=
  Manifest.load d (pathsOr i.options "manifest-files" [])
    ((pathOr i.options "manifest-rootpath" none).getD ⟨"."⟩) (i.options.has "check-manifest-rules")

/-- The failures of a command in the folder of its run, before anything is built. -/
inductive CommandFails (s : Setting) (d : Disk) (i : Invocation) : Stage → Failure → Prop
  | select {stage : Stage} {f : Failure} (hc : i.command.selectsApps = true)
    (h : SelectionFails d s.vars i.options stage f) :
    CommandFails s d i stage f
  | list {found : Settings} {apps : List App} {file : String} {e : DiskError}
    (hc : i.command = .find) (hfound : discover d s.vars i.options = .ok (found, apps))
    (hfile : i.options.value? "output" = some file)
    (h : d.writeText ⟨file⟩ (fileContent i apps) = .error e) :
    CommandFails s d i .writing (.disk e)
  | check {found : Settings} {apps : List App} {e : SettingsError} (hc : i.command = .build)
    (hfound : discover d s.vars i.options = .ok (found, apps))
    (h : (buildSettings i.options found).check = .error e) :
    CommandFails s d i .configuring (.settings e)
  | prepare {found : Settings} {apps : List App} {e : OptionError} (hc : i.command = .build)
    (hfound : discover d s.vars i.options = .ok (found, apps))
    (hcheck : (buildSettings i.options found).check = .ok ())
    (h : Build.Options.ofSettings (buildSettings i.options found) s.vars = .error e) :
    CommandFails s d i .configuring (.option e)
  | load {e : ManifestError} (hc : i.command = .dumpManifestSha)
    (h : snapshotManifest d i = .error e) :
    CommandFails s d i .loading (.manifest e)
  | record {m : Manifest} {e : ManifestError} (hc : i.command = .dumpManifestSha)
    (hm : snapshotManifest d i = .ok m)
    (h : m.writeSnapshot d ((pathOr i.options "output" none).getD .empty) = .error e) :
    CommandFails s d i .writing (.manifest e)
  | complete {file : String} {e : DiskError} (hc : i.command = .completions)
    (hfile : i.options.value? "output" = some file)
    (h : d.writeText ⟨file⟩ (completionScript (i.options.words.headD "")) = .error e) :
    CommandFails s d i .writing (.completions ⟨file⟩ e)

theorem findCommand_eq_error_iff : findCommand s d i = .error f ↔
    discover d s.vars i.options = .error f ∨ ∃ found apps file e,
      discover d s.vars i.options = .ok (found, apps) ∧ i.options.value? "output" = some file ∧
      d.writeText ⟨file⟩ (fileContent i apps) = .error e ∧ .disk e = f := by
  rw [findCommand, bind_eq_error_iff, Prod.exists]
  refine or_congr_right (exists_congr fun found => exists_congr fun apps => ?_)
  cases i.options.value? "output" with
  | none => simp [pure, Except.pure]
  | some file => simp [bind_eq_error_iff, mapError_eq_error_iff, pure, Except.pure]

theorem buildCommand_eq_error_iff : buildCommand s d i = .error f ↔
    discover d s.vars i.options = .error f ∨ ∃ found apps,
      discover d s.vars i.options = .ok (found, apps) ∧
      ((∃ e, (buildSettings i.options found).check = .error e ∧ .settings e = f) ∨
        (buildSettings i.options found).check = .ok () ∧
        ∃ e, Build.Options.ofSettings (buildSettings i.options found) s.vars = .error e ∧
          .option e = f) := by
  rw [buildCommand, bind_eq_error_iff, Prod.exists]
  refine or_congr_right (exists_congr fun found => exists_congr fun apps => ?_)
  simp [bind_eq_error_iff, mapError_eq_error_iff, mapError_eq_ok_iff, Unique.exists_iff, pure,
    Except.pure]

theorem snapshotCommand_eq_error_iff : snapshotCommand s d i = .error f ↔
    (∃ e, snapshotManifest d i = .error e ∧ .manifest e = f) ∨ ∃ m e,
      snapshotManifest d i = .ok m ∧
      m.writeSnapshot d ((pathOr i.options "output" none).getD .empty) = .error e ∧
      .manifest e = f := by
  rw [snapshotCommand]
  simp [bind_eq_error_iff, mapError_eq_error_iff, mapError_eq_ok_iff, pure, Except.pure,
    snapshotManifest]

theorem completionsCommand_eq_error_iff : completionsCommand s d i = .error f ↔
    ∃ file, i.options.value? "output" = some file ∧ ∃ e,
      d.writeText ⟨file⟩ (completionScript (i.options.words.headD "")) = .error e ∧
      .completions ⟨file⟩ e = f := by
  rw [completionsCommand]
  cases i.options.value? "output" with
  | none => simp
  | some file =>
    simp only [Option.some.injEq, exists_eq_left']
    generalize d.writeText ⟨file⟩ (completionScript (i.options.words.headD "")) = written
    cases written <;> simp

theorem exists_commandFails_of_performHere (hfails : performHere s d i = .error f) :
    ∃ stage, CommandFails s d i stage f := by
  cases hc : i.command with
  | find =>
    rw [performHere, hc] at hfails
    obtain hselect | ⟨found, apps, file, e, hfound, hfile, h, rfl⟩ :=
      findCommand_eq_error_iff.mp hfails
    · obtain ⟨stage, h⟩ := discover_eq_error_iff.mp hselect
      exact ⟨stage, .select (hc ▸ rfl) h⟩
    · exact ⟨_, .list hc hfound hfile h⟩
  | build =>
    rw [performHere, hc] at hfails
    obtain hselect | ⟨found, apps, hfound, ⟨e, h, rfl⟩ | ⟨hcheck, e, h, rfl⟩⟩ :=
      buildCommand_eq_error_iff.mp hfails
    · obtain ⟨stage, h⟩ := discover_eq_error_iff.mp hselect
      exact ⟨stage, .select (hc ▸ rfl) h⟩
    · exact ⟨_, .check hc hfound h⟩
    · exact ⟨_, .prepare hc hfound hcheck h⟩
  | dumpManifestSha =>
    rw [performHere, hc] at hfails
    obtain ⟨e, h, rfl⟩ | ⟨m, e, hm, h, rfl⟩ := snapshotCommand_eq_error_iff.mp hfails
    · exact ⟨_, .load hc h⟩
    · exact ⟨_, .record hc hm h⟩
  | completions =>
    rw [performHere, hc] at hfails
    obtain ⟨file, hfile, e, h, rfl⟩ := completionsCommand_eq_error_iff.mp hfails
    exact ⟨_, .complete hc hfile h⟩

theorem CommandFails.performHere_eq (h : CommandFails s d i stage f) :
    performHere s d i = .error f := by
  cases h with
  | select hselects h =>
    have hselect := discover_eq_error_iff.mpr ⟨stage, h⟩
    cases hc : i.command with
    | find =>
      rw [performHere, hc]
      exact findCommand_eq_error_iff.mpr (.inl hselect)
    | build =>
      rw [performHere, hc]
      exact buildCommand_eq_error_iff.mpr (.inl hselect)
    | dumpManifestSha => exact absurd (hc ▸ hselects) nofun
    | completions => exact absurd (hc ▸ hselects) nofun
  | list hc hfound hfile h =>
    rw [performHere, hc]
    exact findCommand_eq_error_iff.mpr (.inr ⟨_, _, _, _, hfound, hfile, h, rfl⟩)
  | check hc hfound h =>
    rw [performHere, hc]
    exact buildCommand_eq_error_iff.mpr (.inr ⟨_, _, hfound, .inl ⟨_, h, rfl⟩⟩)
  | prepare hc hfound hcheck h =>
    rw [performHere, hc]
    exact buildCommand_eq_error_iff.mpr (.inr ⟨_, _, hfound, .inr ⟨hcheck, _, h, rfl⟩⟩)
  | load hc h =>
    rw [performHere, hc]
    exact snapshotCommand_eq_error_iff.mpr (.inl ⟨_, h, rfl⟩)
  | record hc hm h =>
    rw [performHere, hc]
    exact snapshotCommand_eq_error_iff.mpr (.inr ⟨_, _, hm, h, rfl⟩)
  | complete hc hfile h =>
    rw [performHere, hc]
    exact completionsCommand_eq_error_iff.mpr ⟨_, hfile, _, h, rfl⟩

/-- A command fails in one of these ways. -/
theorem performHere_eq_error_iff :
    performHere s d i = .error f ↔ ∃ stage, CommandFails s d i stage f :=
  ⟨exists_commandFails_of_performHere, fun ⟨_, h⟩ => h.performHere_eq⟩

/-- What a command that does not fail leaves behind: its exit code says so, or it is that of a build
run. -/
theorem performHere_eq_ok (h : performHere s d i = .ok report) :
    report.exitCode = exitCodes.success ∨
      i.command = .build ∧ ∃ p, Builds s d i p ∧ runReport s i p = report := by
  rw [performHere] at h
  split at h
  case h_1 =>
    obtain ⟨⟨found, apps⟩, -, h⟩ := bind_eq_ok_iff.mp h
    dsimp only at h
    split at h
    · obtain ⟨written, -, h⟩ := bind_eq_ok_iff.mp h
      rw [← Except.ok.inj h]
      exact .inl rfl
    · rw [← Except.ok.inj h]
      exact .inl rfl
  case h_2 hc =>
    obtain ⟨⟨found, apps⟩, hfound, h⟩ := bind_eq_ok_iff.mp h
    obtain ⟨_, hcheck, h⟩ := bind_eq_ok_iff.mp h
    obtain ⟨options, hoptions, h⟩ := bind_eq_ok_iff.mp h
    rw [mapError_eq_ok_iff] at hcheck hoptions
    exact .inr ⟨hc, _, ⟨found, apps, options, hfound, hcheck, hoptions, rfl⟩, Except.ok.inj h⟩
  case h_3 =>
    obtain ⟨m, -, h⟩ := bind_eq_ok_iff.mp h
    obtain ⟨written, -, h⟩ := bind_eq_ok_iff.mp h
    rw [← Except.ok.inj h]
    exact .inl rfl
  case h_4 =>
    rw [completionsCommand] at h
    split at h
    · dsimp only at h
      split at h
      · exact absurd h nofun
      · rw [← Except.ok.inj h]
        exact .inl rfl
    · rw [← Except.ok.inj h]
      exact .inl rfl

/-! ## Runs -/

/-- The disk that a command of a run starts with: logs are set up and the folder is entered. -/
def startOf (d : Disk) (i : Invocation) : Except DiskError Disk :=
  let d := (i.logFile.map (openLog d)).getD d
  match i.folder with
  | none => .ok d
  | some folder => d.enter folder

theorem perform_of_startOf_eq_error {e : DiskError} (h : startOf d i = .error e) :
    ∃ d', perform s d i = failed s.isColoured d' (.disk e) := by
  rw [startOf] at h
  rw [perform]
  cases hfolder : i.folder with
  | none => exact absurd (hfolder ▸ h) nofun
  | some folder =>
    rw [hfolder] at h
    dsimp only at h ⊢
    exact ⟨_, by rw [h]⟩

theorem perform_of_startOf_eq_ok {inside : Disk} (h : startOf d i = .ok inside) :
    perform s d i = finish s inside (performHere s inside i) := by
  rw [startOf] at h
  rw [perform]
  cases hfolder : i.folder with
  | none =>
    rw [hfolder] at h
    rw [← Except.ok.inj h]
  | some folder =>
    rw [hfolder] at h
    dsimp only at h ⊢
    rw [h]

/-- The failures of a run. -/
inductive Fails (s : Setting) (d : Disk) (i : Invocation) : Stage → Failure → Prop
  | enter {e : DiskError} (h : startOf d i = .error e) : Fails s d i .entering (.disk e)
  | command {inside : Disk} {stage : Stage} {f : Failure} (hstart : startOf d i = .ok inside)
    (h : CommandFails s inside i stage f) : Fails s d i stage f
  | collect {inside : Disk} {p : Build.Progress} {e : DiskError} (hstart : startOf d i = .ok inside)
    (hc : i.command = .build) (hp : Builds s inside i p) (h : p.fault = some e) :
    Fails s d i .collecting (.collect e)

/-- An app of a run could not be built. -/
def HasFailedApp (s : Setting) (d : Disk) (i : Invocation) : Prop :=
  i.command = .build ∧ ∃ inside p, startOf d i = .ok inside ∧ Builds s inside i p ∧
    ∃ a ∈ p.apps, a.status = .failed

theorem performHere_of_builds {p : Build.Progress} (hc : i.command = .build)
    (hp : Builds s d i p) : performHere s d i = .ok (runReport s i p) := by
  obtain ⟨found, apps, options, hfound, hcheck, hoptions, rfl⟩ := hp
  rw [performHere, hc]
  exact bind_eq_ok_iff.mpr ⟨_, hfound, bind_eq_ok_iff.mpr ⟨(), mapError_eq_ok_iff.mpr hcheck,
    bind_eq_ok_iff.mpr ⟨_, mapError_eq_ok_iff.mpr hoptions, rfl⟩⟩⟩

/-- A run that fails reports its failure. -/
theorem exists_perform_eq_failed (h : Fails s d i stage f) :
    ∃ d', perform s d i = failed s.isColoured d' f := by
  cases h with
  | enter h => exact perform_of_startOf_eq_error h
  | @command inside _ _ hstart h =>
    refine ⟨inside, ?_⟩
    rw [perform_of_startOf_eq_ok hstart, performHere_eq_error_iff.mpr ⟨stage, h⟩]
    rfl
  | @collect inside p e hstart hc hp h =>
    refine ⟨p.disk, ?_⟩
    rw [perform_of_startOf_eq_ok hstart, performHere_of_builds hc hp, finish, runReport, h]

/-- A run that does not fail tells by its exit code whether an app could not be built. -/
theorem exitCode_of_forall_not_fails (h : ∀ stage f, ¬ Fails s d i stage f) :
    (perform s d i).exitCode = exitCodes.success ∨
      (perform s d i).exitCode = exitCodes.failure ∧ HasFailedApp s d i := by
  cases hstart : startOf d i with
  | error e => exact absurd (.enter hstart) (h _ _)
  | ok inside =>
    rw [perform_of_startOf_eq_ok hstart]
    cases hreport : performHere s inside i with
    | error f =>
      obtain ⟨stage, hfails⟩ := performHere_eq_error_iff.mp hreport
      exact absurd (.command hstart hfails) (h _ _)
    | ok report =>
      show report.exitCode = _ ∨ report.exitCode = _ ∧ _
      obtain hsuccess | ⟨hc, p, hp, rfl⟩ := performHere_eq_ok hreport
      · exact .inl hsuccess
      · have hfault : p.fault = none :=
          Option.eq_none_iff_forall_ne_some.mpr fun e he => h _ _ (.collect hstart hc hp he)
        rw [runReport, hfault]
        dsimp only
        cases hfailures : Build.hasFailures p.apps with
        | false => exact .inl (if_neg (by rw [hfailures]; nofun))
        | true =>
          exact .inr ⟨if_pos hfailures, hc, inside, p, hstart, hp,
            Build.hasFailures_iff.mp hfailures⟩

/-- The report of a run that fails. -/
theorem exists_run_eq_failed (launch : Build.Launcher) {args : List String}
    (hi : wishOf vars args = .ok (.perform i))
    (hf : Fails ⟨vars, launch, isColoured vars⟩ d i stage f) :
    ∃ d', run launch vars d args = failed (isColoured vars) d' f := by
  obtain ⟨d', hd'⟩ := exists_perform_eq_failed hf
  refine ⟨d', ?_⟩
  rw [run, hi]
  exact hd'

end BuildMatrix.CommandLine
