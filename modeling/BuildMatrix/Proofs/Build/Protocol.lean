import BuildMatrix.Build.Run

/-!
# The protocol of a build run

What a run reports of an app is either that it was left out, or that its build was started, which
warnings it gave and how it was finished. A run gives one such report for each app that it visits,
in order, and ends with the numbers of apps by their status.

The builder may do anything, so that it is known from what it leaves behind how often a visit asks
it: an app that is left out finds the disk as it was, and one that is built has a status, a comment
and warnings that come from the builder's one answer, and leaves the disk to the next app as the builder
has left it, with the record of the app added.

* `Build.Concludes`: how an answer of the builder ends a build.
* `Build.IsReport`: what a visit to an app leaves behind and what is reported of it.
* `Build.IsTranscript`: one report for each visited app, in order and with consecutive numbers, each
  visit on the disk that the one before has left.
* `Build.isReport_visit`: a visit gives a report, whatever the builder does.
* `Build.exists_transcript`: so the visits of a run give a transcript.
* `Build.visits_all`, `Build.stops_after_failure`: how far a run gets.
* `Build.run_follows_protocol`: the run as a whole.
-/

namespace BuildMatrix.Build

/-! ## Reports -/

/-- What is reported of an app that is left out. -/
def skipReport (index : Nat) (a : App) : List Step :=
  [.reported (.skipped index a.describe (a.buildComment.getD ""))]

/-- What is reported of an app that is built: `built` is the app afterwards. -/
def buildReport (index : Nat) (a built : App) (found : List String) : List Step :=
  [.reported (.started index a.describe), .asked a] ++
    found.map (fun line => .reported (.warning a.folder line)) ++
    [.reported (.finished index a.describe built.status built.buildComment)]

/-- Whether a status is one that a build ends with. -/
def IsOutcome (s : BuildStatus) : Prop :=
  s = .success ∨ s = .failed ∨ s = .skipped

/-- Whether a status is one that a visit ends with. -/
def IsFinal (s : BuildStatus) : Prop :=
  IsOutcome s ∨ s = .disabled

/-- Whether an app is another one with, at most, another status and another comment. -/
def IsSameBuild (a built : App) : Prop :=
  built = { a with status := built.status, buildComment := built.buildComment }

/-- How an answer of the builder ends the build of an app: with which status and which comment, and
which warnings are given. -/
inductive Concludes (o : Options) (a : App) :
    Except BuildError Outcome → BuildStatus → Option String → List String → Prop
  | error (e : BuildError) : Concludes o a (.error e) .failed (some e.message) []
  | dryRun (outcome : Outcome) (hdry : o.request.isDryRun = true) :
      Concludes o a (.ok outcome) .skipped (some "dry run") []
  | failure {outcome : Outcome} (hdry : o.request.isDryRun = false)
      (hfailed : outcome.isSuccess = false) :
      Concludes o a (.ok outcome) .failed (some (failureComment a)) []
  | warned {outcome : Outcome} {found : List String} (hdry : o.request.isDryRun = false)
      (hsuccess : outcome.isSuccess = true) (hfound : warnings o.ignored outcome.logLines = found)
      (hcheck : o.checkWarnings = true) (hne : found ≠ []) :
      Concludes o a (.ok outcome) .failed
        (some ("build succeeded with " ++ toString found.length ++ " warning(s)")) found
  | success {outcome : Outcome} {found : List String} (hdry : o.request.isDryRun = false)
      (hsuccess : outcome.isSuccess = true) (hfound : warnings o.ignored outcome.logLines = found)
      (hcheck : o.checkWarnings = true → found = []) :
      Concludes o a (.ok outcome) .success a.buildComment found

/-- What the visit to an app leaves of the disk and of the app, and what is reported of it. An app
that was skipped or disabled before stays as it is, and so does the disk. For any other one the builder
is asked once: its answer ends the build, and the disk is the one that it leaves. -/
inductive IsReport (b : Builder) (o : Options) (index : Nat) (d : Disk) (a : App) :
    Disk → App → List Step → Prop
  | leftOut (h : a.status = .skipped ∨ a.status = .disabled) :
      IsReport b o index d a d a (skipReport index a)
  | built {d' : Disk} {c : App} {answer : Except BuildError Outcome} {found : List String}
      (hskipped : a.status ≠ .skipped) (hdisabled : a.status ≠ .disabled)
      (hbuild : (b.build a o.request).run.run d = (answer, d'))
      (hends : Concludes o a answer c.status c.buildComment found) (hrest : IsSameBuild a c) :
      IsReport b o index d a d' c (buildReport index a c found)

section

variable {b : Builder} {o : Options} {index : Nat} {d d' : Disk} {a c : App} {report : List Step}

theorem Concludes.isOutcome {answer : Except BuildError Outcome} {status : BuildStatus}
    {comment : Option String} {found : List String}
    (h : Concludes o a answer status comment found) : IsOutcome status := by
  cases h with
  | error | failure | warned => exact Or.inr (Or.inl rfl)
  | dryRun => exact Or.inr (Or.inr rfl)
  | success => exact Or.inl rfl

theorem IsReport.isFinal (h : IsReport b o index d a d' c report) : IsFinal c.status := by
  cases h with
  | leftOut h => exact h.imp (fun h => Or.inr (Or.inr h)) id
  | built hskipped hdisabled hbuild hends hrest => exact Or.inl hends.isOutcome

theorem IsReport.isSameBuild (h : IsReport b o index d a d' c report) : IsSameBuild a c := by
  cases h with
  | leftOut h => exact rfl
  | built hskipped hdisabled hbuild hends hrest => exact hrest

/-- No report of an app says that the run is over. -/
theorem IsReport.allCompleted_notMem (h : IsReport b o index d a d' c report)
    (total succeeded failed skipped : Nat) :
    Step.reported (.allCompleted total succeeded failed skipped) ∉ report := by
  cases h <;> simp [skipReport, buildReport]

end

/-! ## Visits -/

section

variable (b : Builder) (o : Options) (d : Disk)

/-- The end of a build is one that the builder's answer may have. -/
theorem concludes_conclude (a : App) (answer : Except BuildError Outcome) :
    Concludes o a answer (conclude o a answer).1.status (conclude o a answer).1.buildComment
      (conclude o a answer).2 := by
  cases answer with
  | error e => exact .error e
  | ok outcome =>
    rw [conclude]
    split
    · next hdry => exact .dryRun outcome hdry
    next hdry =>
    have hdry : o.request.isDryRun = false := Bool.eq_false_iff.mpr hdry
    split
    · next hfailed => exact .failure hdry (by simpa using hfailed)
    next hsuccess =>
    have hsuccess : outcome.isSuccess = true := by simpa using hsuccess
    dsimp only
    split
    · next hwarned =>
      rw [Bool.and_eq_true, Bool.not_eq_true', List.isEmpty_eq_false_iff] at hwarned
      exact .warned hdry hsuccess rfl hwarned.1 hwarned.2
    · next hclean =>
      refine .success hdry hsuccess rfl fun hcheck => ?_
      simpa [hcheck] using hclean

theorem isSameBuild_conclude (a : App) (answer : Except BuildError Outcome) :
    IsSameBuild a (conclude o a answer).1 := by
  unfold conclude IsSameBuild
  split
  · rfl
  · split
    · rfl
    · split
      · rfl
      · dsimp only
        split <;> rfl

/-- A visit gives a report, whatever the builder does. -/
theorem isReport_visit (index : Nat) (a : App) :
    IsReport b o index d a (visit b o d index a).disk (visit b o d index a).app
      (visit b o d index a).steps := by
  unfold visit
  split
  · next h =>
    have hasked : a.status ≠ .skipped ∧ a.status ≠ .disabled := by simpa [isAsked] using h
    exact .built hasked.1 hasked.2 rfl (concludes_conclude o a _) (isSameBuild_conclude o a _)
  · next h =>
    exact .leftOut (by simpa [isAsked, Decidable.or_iff_not_imp_left] using h)

end

/-! ## Transcripts -/

/-- How the visits of a run follow one another: with the numbers from `index` on, they take the first
apps of a slice to the visited ones, and with what they report they take the disk from `d` to `d'`. The
record of each app is added to the disk before the next one is visited. -/
inductive IsTranscript (b : Builder) (o : Options) :
    (index : Nat) → (d : Disk) → (slice visited : List App) → (reports : List (List Step)) →
      (d' : Disk) → Prop
  | done (index : Nat) (d : Disk) (slice : List App) : IsTranscript b o index d slice [] [] d
  | visit {index : Nat} {d d₁ d₂ d' : Disk} {a c : App} {slice visited : List App}
      {report : List Step} {reports : List (List Step)}
      (hreport : IsReport b o index d { a with index := some index } d₁ c report)
      (hcollect : collect o d₁ c = (d₂, none))
      (hrest : IsTranscript b o (index + 1) d₂ slice visited reports d') :
      IsTranscript b o index d (a :: slice) (c :: visited) (report :: reports) d'

section

variable {b : Builder} {o : Options} {index : Nat} {d d' : Disk} {slice visited : List App}
  {reports : List (List Step)}

theorem IsTranscript.isFinal (h : IsTranscript b o index d slice visited reports d') :
    ∀ a ∈ visited, IsFinal a.status := by
  induction h with
  | done => exact List.forall_mem_nil _
  | visit hreport _ _ ih => exact List.forall_mem_cons.mpr ⟨hreport.isFinal, ih⟩

theorem IsTranscript.allCompleted_notMem (h : IsTranscript b o index d slice visited reports d')
    (total succeeded failed skipped : Nat) :
    Step.reported (.allCompleted total succeeded failed skipped) ∉ reports.flatten := by
  induction h with
  | done => exact List.not_mem_nil
  | visit hreport _ _ ih =>
    rw [List.flatten_cons, List.mem_append]
    exact not_or.mpr ⟨hreport.allCompleted_notMem _ _ _ _, ih⟩

end

/-! ## Runs -/

section

variable {b : Builder} {o : Options} {index : Nat} {d : Disk} {a : App} {rest : List App}

/-- The visit to the first app of a list. -/
def firstVisit (b : Builder) (o : Options) (index : Nat) (d : Disk) (a : App) : Visit :=
  visit b o d index { a with index := some index }

/-- After the visit to the first app, whose record is added, a run stops, if the app has failed and the
run is not told to keep going, or goes on with the other apps. -/
theorem visitAll_cons (h : (visitAll b o index d (a :: rest)).fault = none) :
    ∃ d', collect o (firstVisit b o index d a).disk (firstVisit b o index d a).app = (d', none) ∧
      (((firstVisit b o index d a).app.status = .failed ∧ o.keepGoing = false) ∧
        visitAll b o index d (a :: rest) =
          { disk := d', apps := [(firstVisit b o index d a).app],
            steps := (firstVisit b o index d a).steps } ∨
      ((firstVisit b o index d a).app.status ≠ .failed ∨ o.keepGoing = true) ∧
        visitAll b o index d (a :: rest) =
          { visitAll b o (index + 1) d' rest with
            apps := (firstVisit b o index d a).app :: (visitAll b o (index + 1) d' rest).apps
            steps := (firstVisit b o index d a).steps ++
              (visitAll b o (index + 1) d' rest).steps }) := by
  rw [visitAll] at h ⊢
  rw [← firstVisit] at h ⊢
  dsimp only at h ⊢
  split at h
  · exact absurd h (by simp)
  · next d' hcollect =>
    refine ⟨d', hcollect, ?_⟩
    by_cases hstop : (firstVisit b o index d a).app.status = .failed ∧ o.keepGoing = false
    · exact Or.inl ⟨hstop, if_pos (by simpa using hstop)⟩
    · have hgo : (firstVisit b o index d a).app.status ≠ .failed ∨ o.keepGoing = true :=
        (Decidable.not_and_iff_not_or_not.mp hstop).imp_right (by simp)
      exact Or.inr ⟨hgo, if_neg (by simpa using hstop)⟩

end

/-- The visits of a run give a transcript. -/
theorem exists_transcript (b : Builder) (o : Options) (slice : List App) (index : Nat) (d : Disk)
    (h : (visitAll b o index d slice).fault = none) :
    ∃ reports, (visitAll b o index d slice).steps = reports.flatten ∧
      IsTranscript b o index d slice (visitAll b o index d slice).apps reports
        (visitAll b o index d slice).disk := by
  induction slice generalizing index d with
  | nil => exact ⟨[], rfl, .done index d []⟩
  | cons a rest ih =>
    have hfirst := isReport_visit b o d index { a with index := some index }
    obtain ⟨d', hcollect, ⟨-, heq⟩ | ⟨-, heq⟩⟩ := visitAll_cons h
    · rw [heq]
      exact ⟨[_], List.flatten_singleton.symm, .visit hfirst hcollect (.done _ d' rest)⟩
    · rw [heq] at h ⊢
      obtain ⟨reports, hsteps, htranscript⟩ := ih (index + 1) d' h
      exact ⟨_ :: reports, congrArg _ hsteps, .visit hfirst hcollect htranscript⟩

/-- A run visits all apps, if it is told to keep going or if none of them fails. -/
theorem visits_all (b : Builder) (o : Options) (slice : List App) (index : Nat) (d : Disk)
    (h : (visitAll b o index d slice).fault = none)
    (hgo : o.keepGoing = true ∨ ∀ a ∈ (visitAll b o index d slice).apps, a.status ≠ .failed) :
    (visitAll b o index d slice).apps.length = slice.length := by
  induction slice generalizing index d with
  | nil => rfl
  | cons a rest ih =>
    obtain ⟨d', -, ⟨⟨hfailed, hkeep⟩, heq⟩ | ⟨-, heq⟩⟩ := visitAll_cons h
    · rw [heq, hkeep] at hgo
      exact absurd hfailed (hgo.resolve_left (by simp) _ List.mem_cons_self)
    · rw [heq] at h hgo ⊢
      exact congrArg (· + 1)
        (ih (index + 1) d' h (hgo.imp_right fun hok c hc => hok c (List.mem_cons_of_mem _ hc)))

/-- A run that is not told to keep going stops with the first app that fails. -/
theorem stops_after_failure (b : Builder) (o : Options) (hkeep : o.keepGoing = false)
    (slice : List App) (index : Nat) (d : Disk)
    (h : (visitAll b o index d slice).fault = none)
    (hfailed : ∃ a ∈ (visitAll b o index d slice).apps, a.status = .failed) :
    ∃ before last, (visitAll b o index d slice).apps = before ++ [last] ∧
      last.status = .failed ∧ ∀ a ∈ before, a.status ≠ .failed := by
  induction slice generalizing index d with
  | nil =>
    obtain ⟨a, ha, -⟩ := hfailed
    exact absurd ha List.not_mem_nil
  | cons a rest ih =>
    obtain ⟨d', -, ⟨⟨hstop, -⟩, heq⟩ | ⟨hgo, heq⟩⟩ := visitAll_cons h
    · rw [heq]
      exact ⟨[], _, rfl, hstop, fun c hc => absurd hc List.not_mem_nil⟩
    · have hfirst := hgo.resolve_right (by simp [hkeep])
      rw [heq] at h hfailed ⊢
      obtain ⟨c, hc, hcfailed⟩ := hfailed
      rcases List.mem_cons.mp hc with rfl | hc
      · exact absurd hcfailed hfirst
      · obtain ⟨before, last, hsplit, hlast, hbefore⟩ := ih (index + 1) d' h ⟨c, hc, hcfailed⟩
        refine ⟨_ :: before, last, congrArg _ hsplit, hlast, fun e he => ?_⟩
        rcases List.mem_cons.mp he with rfl | he
        · exact hfirst
        · exact hbefore e he

/-! ## Counts -/

/-- Apps with final statuses are counted by the four kinds of statuses. -/
theorem countOf_add_countOf {apps : List App} (h : ∀ a ∈ apps, IsFinal a.status) :
    countOf apps .success + countOf apps .failed +
      (countOf apps .skipped + countOf apps .disabled) = apps.length := by
  induction apps with
  | nil => rfl
  | cons a apps ih =>
    have hrest := ih fun c hc => h c (List.mem_cons_of_mem _ hc)
    unfold countOf at hrest ⊢
    rcases h a List.mem_cons_self with (ha | ha | ha) | ha <;>
    · simp only [List.countP_cons, List.length_cons, ha]
      simp
      omega

theorem hasFailures_iff {apps : List App} :
    hasFailures apps = true ↔ ∃ a ∈ apps, a.status = .failed := by
  simp [hasFailures, countOf, List.countP_pos_iff]

/-- The exit code is one if an app has failed, and zero otherwise. -/
theorem exitCode_eq_one_iff {apps : List App} :
    exitCode apps = 1 ↔ ∃ a ∈ apps, a.status = .failed := by
  rw [exitCode, ← hasFailures_iff]
  split <;> simp_all

/-! ## The protocol -/

/-- A run that was not given up ends with the numbers of apps by their status. -/
theorem run_of_fault_eq_none {b : Builder} {o : Options} {d : Disk} {apps : List App}
    (h : (run b o d apps).fault = none) :
    ∃ done, done = visitAll b o (sliceOf o apps).start.toNat d
        ((sliceOf o apps).select (App.sorted apps)) ∧ done.fault = none ∧
      run b o d apps = { done with steps := done.steps ++ [.reported (total done.apps)] } := by
  refine ⟨_, rfl, ?_⟩
  rw [run] at h ⊢
  split at h
  · next hfault => exact absurd h (Option.isSome_iff_ne_none.mp hfault)
  · next hfault => exact ⟨h, if_neg hfault⟩

/-- **The protocol of a build run.** A run that can write its records gives a report for each app
that it visits, in order and numbered from the start of its slice, and then, once, the numbers of
apps by their status. The builder is asked once for each app that was neither skipped nor disabled, and
for no other one: its answers end the builds, and they and the records are all that changes the disk. A
run visits its whole slice, or, if it is not told to keep going and an app fails, the slice up to and
including the first such app. Each visited app ends as built, failed, skipped or disabled, and the exit
code tells whether one of them has failed. -/
theorem run_follows_protocol (b : Builder) (o : Options) (d : Disk) (apps : List App)
    (hfault : (run b o d apps).fault = none) :
    let slice := (sliceOf o apps).select (App.sorted apps)
    let visited := (run b o d apps).apps
    let succeeded := countOf visited .success
    let failed := countOf visited .failed
    let skipped := countOf visited .skipped + countOf visited .disabled
    ∃ reports,
      (run b o d apps).steps = reports.flatten ++
        [.reported (.allCompleted visited.length succeeded failed skipped)] ∧
      (∀ total s f k, Step.reported (.allCompleted total s f k) ∉ reports.flatten) ∧
      IsTranscript b o (sliceOf o apps).start.toNat d slice visited reports (run b o d apps).disk ∧
      (o.keepGoing = true ∨ (∀ a ∈ visited, a.status ≠ .failed) →
        visited.length = slice.length) ∧
      (o.keepGoing = false → (∃ a ∈ visited, a.status = .failed) →
        ∃ before last, visited = before ++ [last] ∧ last.status = .failed ∧
          ∀ a ∈ before, a.status ≠ .failed) ∧
      (∀ a ∈ visited, IsFinal a.status) ∧
      succeeded + failed + skipped = visited.length ∧
      (exitCode visited = 1 ↔ ∃ a ∈ visited, a.status = .failed) := by
  obtain ⟨done, hdone, hok, hrun⟩ := run_of_fault_eq_none hfault
  rw [hrun]
  subst hdone
  obtain ⟨reports, hsteps, htranscript⟩ := exists_transcript b o _ _ d hok
  exact ⟨reports, congrArg (· ++ _) hsteps, htranscript.allCompleted_notMem, htranscript,
    visits_all b o _ _ d hok, fun hkeep => stops_after_failure b o hkeep _ _ d hok,
    htranscript.isFinal, countOf_add_countOf htranscript.isFinal, exitCode_eq_one_iff⟩

/-- A builder that fails in one folder and gives a warning in all others. -/
def sampleBuilder : Builder where
  name := "sample"
  build a _ := if a.folder = ⟨"/w/b"⟩ then throw .sdkMissing else return ⟨true, ["x: warning: y"]⟩

/-- Three apps in order, the first of which is skipped. -/
def sampleApps : List App :=
  [{ folder := ⟨"/w/a"⟩, target := "esp32", status := .skipped },
    { folder := ⟨"/w/b"⟩, target := "esp32" }, { folder := ⟨"/w/c"⟩, target := "esp32" }]

theorem sorted_sampleApps : App.sorted sampleApps = sampleApps :=
  List.mergeSort_of_pairwise (by decide +kernel)

/-- In the sample the run stops with the second app, for which the builder has an error. -/
theorem run_follows_protocol_sample :
    (run sampleBuilder {} default sampleApps).fault = none ∧
      (run sampleBuilder {} default sampleApps).apps.map (fun a => (a.status, a.buildComment)) =
        [(.skipped, none), (.failed, some BuildError.sdkMissing.message)] ∧
      ∃ reports, (run sampleBuilder {} default sampleApps).steps =
          reports.flatten ++ [.reported (.allCompleted 2 0 1 1)] ∧
        IsTranscript sampleBuilder {} 1 default sampleApps
          (run sampleBuilder {} default sampleApps).apps reports
          (run sampleBuilder {} default sampleApps).disk ∧
        exitCode (run sampleBuilder {} default sampleApps).apps = 1 := by
  have hfault : (run sampleBuilder {} default sampleApps).fault = none := by
    rw [run, sorted_sampleApps]
    decide +kernel
  have hends : (run sampleBuilder {} default sampleApps).apps.map
      (fun a => (a.status, a.buildComment)) =
        [(.skipped, none), (.failed, some BuildError.sdkMissing.message)] := by
    rw [run, sorted_sampleApps]
    decide +kernel
  obtain ⟨reports, hsteps, -, htranscript, -, -, -, -, hexit⟩ :=
    run_follows_protocol sampleBuilder {} default sampleApps hfault
  have hstatus : (run sampleBuilder {} default sampleApps).apps.map App.status =
      [.skipped, .failed] := by
    simpa [List.map_map, Function.comp_def] using congrArg (List.map Prod.fst) hends
  have hcount : ∀ s, countOf (run sampleBuilder {} default sampleApps).apps s =
      [BuildStatus.skipped, .failed].countP (· = s) := by
    intro s
    rw [countOf, ← hstatus, List.countP_map]
    rfl
  refine ⟨hfault, hends, reports, ?_, ?_, ?_⟩
  · rw [hsteps, ← List.length_map (f := App.status), hstatus, hcount, hcount, hcount, hcount]
    rfl
  · rw [sorted_sampleApps] at htranscript
    exact htranscript
  · rw [exitCode, hasFailures, hcount]
    rfl

end BuildMatrix.Build
