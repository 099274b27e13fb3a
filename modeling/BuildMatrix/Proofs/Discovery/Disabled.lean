import BuildMatrix.Proofs.Discovery.Union
import BuildMatrix.Proofs.Manifest.Reasons

/-!
# Disabled apps

A search that comes to an app whose target its rule does not build for asks the rule for the reason,
which becomes the comment of the disabled app. The rule looks for the reason in its own way, so it
may fail to give one. Where a disabling clause has no value for a target that the enabling clauses
leave out anyway, the whole search fails. And where the target is not a known one, a rule that would
build for it has no reason to give, and the app is disabled without a comment.

* `Discovery.IsDisabled`: what it means that a search has decided that an app is disabled.
* `Discovery.appFor_of_isDisabled`: what becomes of such an app.
* `Discovery.not_stalls_of_findApps`, `Discovery.buildComment_eq_none_iff_of_findApps`: what an
  answer of a search says about the disabled apps that it came to, and which of them have no
  comment.
* `Discovery.disabled_explained_iff`: which targets that are left out have a reason, when a search
  goes on after it has disabled an app, and which disabled apps have a comment.
* `Discovery.unexplained_sample`: a search that fails at a disabled app, and one that finds a
  disabled app without a comment.
-/

namespace BuildMatrix.Discovery

variable {q : Query} {rule : Rule} {folder : Path} {target : String} {config : Config} {a : App}

/-- Whether a search has decided that an app is disabled: its rule says for which targets it builds,
and the target is not among them. Apps that are pinned to a target are never disabled, they are left
out. -/
structure IsDisabled (q : Query) (rule : Rule) (folder : Path) (target : String)
    (config : Config) : Prop where
  unpinned : pinnedTarget q.disk folder config.1 = none
  left_out : ∃ ts, rule.buildTargets q.env none config.2 = .ok ts ∧ target ∉ ts

/-- An app that is decided to be disabled has the answer about the reason as its comment. -/
theorem appFor_of_isDisabled (h : IsDisabled q rule folder target config) :
    appFor q rule folder target config =
      (rule.buildDisableReason ⟨q.env, target, config.2⟩).map fun buildComment =>
        some { plainApp q.settings folder target config with
          status := .disabled, buildComment } := by
  obtain ⟨ts, hts, htarget⟩ := h.left_out
  have hcontains : ts.contains target = false := by
    rw [Bool.eq_false_iff, ne_eq, List.contains_iff_mem]
    exact htarget
  rw [appFor_eq, h.unpinned, if_neg (by simp), hts]
  show judge q rule (plainApp q.settings folder target config) (ts.contains target) >>= _ = _
  rw [hcontains, judge_eq]
  show (rule.buildDisableReason ⟨q.env, target, config.2⟩ >>= _) >>= _ = _
  cases rule.buildDisableReason ⟨q.env, target, config.2⟩ <;> rfl

/-- The search goes on after such an app exactly if the search for its reason does not stall. -/
theorem exists_appFor_iff_of_isDisabled (h : IsDisabled q rule folder target config) :
    (∃ a, appFor q rule folder target config = .ok a) ↔
      ¬ rule.Stalls ⟨q.env, target, config.2⟩ := by
  rw [appFor_of_isDisabled h, ← Rule.exists_buildDisableReason_iff]
  constructor
  · rintro ⟨a, ha⟩
    obtain ⟨reason, hreason, -⟩ := map_eq_ok_iff.mp ha
    exact ⟨reason, hreason⟩
  · rintro ⟨reason, hreason⟩
    exact ⟨_, map_eq_ok_iff.mpr ⟨reason, hreason, rfl⟩⟩

/-- An app with a decision of the gate is not disabled. -/
theorem status_withDecision_ne (a : App) (decision : Decision) :
    (withDecision a decision).status ≠ .disabled := by
  cases decision <;> exact nofun

/-- A disabled app lacks a comment exactly if its target is not known and its rule would build for
it. -/
theorem buildComment_eq_none_iff (h : appFor q rule folder target config = .ok (some a))
    (hstatus : a.status = .disabled) :
    a.buildComment = none ↔ a.target ∉ q.env.allTargets ∧
      rule.builds ⟨q.env, a.target, a.configName⟩ = .ok true := by
  obtain ⟨enabled, henabled, hjudge⟩ := exists_judge_of_appFor h
  obtain ⟨-, htarget, hname, -⟩ := order_of_judge hjudge
  rw [htarget, hname]
  cases enabled with
  | true =>
    obtain ⟨testComment, -, decision, -, rfl⟩ := judge_true_eq_ok_iff.mp hjudge
    exact absurd hstatus (status_withDecision_ne _ decision)
  | false =>
    obtain ⟨buildComment, hreason, hresult⟩ := judge_false_eq_ok_iff.mp hjudge
    have hcomment : a.buildComment = buildComment := by rw [← hresult]
    have hleft : ¬(target ∈ q.env.allTargets ∧
        rule.builds ⟨q.env, target, config.2⟩ = .ok true) := fun hboth =>
      absurd (henabled.mpr hboth) nofun
    have hbuilds : buildComment = none ↔ rule.builds ⟨q.env, target, config.2⟩ = .ok true := by
      rw [← Rule.buildDisableReason_eq_none_iff]
      constructor
      · rintro rfl
        exact hreason
      · exact fun hnone => Except.ok.inj (hreason.symm.trans hnone)
    rw [hcomment, hbuilds]
    exact ⟨fun hb => ⟨fun hknown => hleft ⟨hknown, hb⟩, hb⟩, fun h => h.2⟩

section

variable {d : Disk} {s : Settings} {m : Manifest} {env : Environment} {gate : Gate}
  {apps : List App}

/-- Where a search has an answer, the search for a reason does not stall for any app that it came to
and decided to be disabled. -/
theorem not_stalls_of_findApps {p : Path} (hgate : gateOf d s m = .ok gate)
    (happs : findApps d s m env = .ok apps) (hp : p ∈ s.paths) (htarget : target ∈ targets s env)
    (hvisits : Visits (queryOf d s m env gate) p folder target config)
    (hdisabled : IsDisabled (queryOf d s m env gate) (m.governingRule (d.absolute folder)) folder
      target config) :
    ¬ (m.governingRule (d.absolute folder)).Stalls
      ⟨(queryOf d s m env gate).env, target, config.2⟩ := by
  refine (exists_appFor_iff_of_isDisabled hdisabled).mp ?_
  exact exists_appFor_of_findApps happs hgate hp htarget hvisits

/-- The disabled apps without a comment among those that a search finds. -/
theorem buildComment_eq_none_iff_of_findApps (hgate : gateOf d s m = .ok gate)
    (happs : findApps d s m env = .ok apps) (ha : a ∈ apps) (hstatus : a.status = .disabled) :
    a.buildComment = none ↔ a.target ∉ env.allTargets ∧
      (m.governingRule (d.absolute a.folder)).builds
        ⟨(queryOf d s m env gate).env, a.target, a.configName⟩ = .ok true := by
  obtain ⟨p, -, t, -, hfinds⟩ := (isUnion_of_findApps hgate happs).sound a ha
  obtain ⟨_, -, folder, -, found, hfound, ha⟩ := hfinds
  obtain ⟨-, _, -, config, -, hfor⟩ := (mem_appsFor hfound a).mp ha
  obtain ⟨_, -, hjudge⟩ := exists_judge_of_appFor hfor
  have hfolder : a.folder = folder := (order_of_judge hjudge).1
  rw [hfolder]
  exact buildComment_eq_none_iff hfor hstatus

end

/-- **Reasons of disabled apps.** A known target that a rule leaves out has a reason unless a
disabling clause has no value for it. One that is not known has a reason unless the search for it
stalls or the rule would build for the target. A search goes on after it has decided that an app is
disabled unless the search for the reason stalls, so one that has an answer came to no such app. And
a disabled app that it finds has a comment unless its target is not known and its rule would build
for it. -/
theorem disabled_explained_iff (rule : Rule) (env : Environment) (configName : String) :
    (∀ (target : String) (ts : List String),
      rule.buildTargets env none configName = .ok ts → target ∉ ts →
        (target ∈ env.allTargets →
          ((∃ reason, rule.buildDisableReason ⟨env, target, configName⟩ = .ok (some reason)) ↔
            ∃ found, Clause.firstMatch ⟨env, target, configName⟩ rule.disable = .ok found)) ∧
        (target ∉ env.allTargets →
          ((∃ reason, rule.buildDisableReason ⟨env, target, configName⟩ = .ok (some reason)) ↔
            ¬ rule.Stalls ⟨env, target, configName⟩ ∧
              rule.builds ⟨env, target, configName⟩ ≠ .ok true))) ∧
    (∀ (q : Query) (folder : Path) (target : String) (config : Config),
      IsDisabled q rule folder target config →
        ((∃ a, appFor q rule folder target config = .ok a) ↔
          ¬ rule.Stalls ⟨q.env, target, config.2⟩)) ∧
    ∀ (d : Disk) (s : Settings) (m : Manifest) (gate : Gate) (apps : List App),
      gateOf d s m = .ok gate → findApps d s m env = .ok apps →
        (∀ p ∈ s.paths, ∀ target ∈ targets s env, ∀ folder config,
          Visits (queryOf d s m env gate) p folder target config →
            IsDisabled (queryOf d s m env gate) (m.governingRule (d.absolute folder)) folder target
              config →
              ¬ (m.governingRule (d.absolute folder)).Stalls
                ⟨(queryOf d s m env gate).env, target, config.2⟩) ∧
        ∀ a ∈ apps, a.status = .disabled →
          (a.buildComment = none ↔ a.target ∉ env.allTargets ∧
            (m.governingRule (d.absolute a.folder)).builds
              ⟨(queryOf d s m env gate).env, a.target, a.configName⟩ = .ok true) := by
  refine ⟨fun target ts hts hleft => ⟨fun hknown => ?_, fun _ => ?_⟩,
    fun q folder target config => exists_appFor_iff_of_isDisabled,
    fun d s m gate apps hgate happs => ⟨fun p hp target htarget folder config => ?_,
      fun a => buildComment_eq_none_iff_of_findApps hgate happs⟩⟩
  · exact Rule.exists_reason_iff_of_known hts hknown hleft
  · exact Rule.exists_reason_iff
  · exact not_stalls_of_findApps hgate happs hp htarget

/-! ## Disabled apps without a reason -/

/-- An environment in which only one of two targets has a text as a constant. -/
def chipEnv : Environment :=
  { Environment.ofTargets ⟨["esp32", "esp32c3"], []⟩ with
    capabilities := Capabilities.define [] "esp32" "SOC_CHIP" (.str "z") }

/-- A rule that enables the target with the constant and disables by the constant. -/
def chipRule : Rule where
  folder := ⟨"/app"⟩
  enable := [Rule.targetClause .eq "esp32"]
  disable := [⟨"SOC_CHIP < \"m\"", .compare (.attr "SOC_CHIP") .lt (.literal (.str "m")), false,
    none⟩]

/-- A rule that enables each target but one. -/
def exceptRule : Rule where
  folder := ⟨"/app"⟩
  enable := [Rule.targetClause .ne "esp32"]

/-- The settings of a search for a target in the folder of the sample. -/
def searchFor (target : String) : Settings where
  paths := [⟨"app"⟩]
  target := target
  includeDisabled := true

theorem buildTargets_chipRule : chipRule.buildTargets chipEnv none "" = .ok ["esp32"] :=
  Rule.buildTargets_of_pairwise (eq_ok_of_toOption (by decide +kernel)) (by decide +kernel)

theorem buildTargets_exceptRule : exceptRule.buildTargets chipEnv none "" = .ok ["esp32c3"] :=
  Rule.buildTargets_of_pairwise (eq_ok_of_toOption (by decide +kernel)) (by decide +kernel)

theorem stalls_chipRule : chipRule.Stalls ⟨chipEnv, "esp32c3", ""⟩ :=
  Or.inl ⟨_, rfl⟩

/-- The query of a search for a target in the folder of the sample that a rule governs. -/
def queryFor (rule : Rule) (target : String) (gate : Gate) : Query :=
  queryOf sampleDisk (searchFor target) ⟨[rule], ⟨"/"⟩⟩ chipEnv gate

theorem isDisabled_chipRule (gate : Gate) : IsDisabled (queryFor chipRule "esp32c3" gate) chipRule
    ⟨"app"⟩ "esp32c3" (none, "") :=
  ⟨rfl, _, buildTargets_chipRule, by decide⟩

theorem isDisabled_exceptRule (gate : Gate) : IsDisabled (queryFor exceptRule "esp99" gate)
    exceptRule ⟨"app"⟩ "esp99" (none, "") :=
  ⟨rfl, _, buildTargets_exceptRule, by decide⟩

theorem governingRule_sample {rule : Rule} (h : rule ∈ [chipRule, exceptRule]) :
    (Manifest.mk [rule] ⟨"/"⟩).governingRule (sampleDisk.absolute ⟨"app"⟩) = rule := by
  revert rule
  decide +kernel

theorem appFolders_sample (target : String) :
    appFolders sampleDisk (searchFor target) ⟨"app"⟩ = .ok [⟨"app"⟩] := by
  have happ : isApp sampleDisk ⟨"app"⟩ = true := by decide +kernel
  rw [appFolders, happ]
  rfl

theorem visits_sample (rule : Rule) (target : String) (gate : Gate) :
    Visits (queryFor rule target gate) ⟨"app"⟩ ⟨"app"⟩ target (none, "") :=
  ⟨⟨_, appFolders_sample target, List.mem_singleton_self _⟩, _, rfl, List.mem_singleton_self _⟩

/-- The search for a target that is not known finds a disabled app without a comment. -/
theorem findApps_exceptRule :
    findApps sampleDisk (searchFor "esp99") ⟨[exceptRule], ⟨"/"⟩⟩ chipEnv =
      .ok [{ folder := ⟨"app"⟩, target := "esp99", status := .disabled }] := by
  have hreason : exceptRule.buildDisableReason ⟨chipEnv, "esp99", ""⟩ = .ok none := rfl
  obtain ⟨gate, hgate⟩ : ∃ gate,
      gateOf sampleDisk (searchFor "esp99") ⟨[exceptRule], ⟨"/"⟩⟩ = .ok gate := ⟨_, rfl⟩
  have hconfigs : configs sampleDisk ((searchFor "esp99").configRules.map ConfigRule.read)
      ⟨"app"⟩ "esp99" = .ok [(none, "")] := rfl
  refine findApps_of_appFor hgate rfl rfl (appFolders_sample "esp99") hconfigs ?_ rfl
  rw [governingRule_sample (by simp)]
  refine (appFor_of_isDisabled (isDisabled_exceptRule gate)).trans ?_
  exact map_eq_ok_iff.mpr ⟨none, hreason, rfl⟩

/-- The first rule leaves out a known target, but the search for the reason fails at the constant
that the target has no text for, and so does the search for apps. The second one would build for a
target that is not known, so the disabled app has no comment. -/
theorem unexplained_sample :
    (chipRule.buildTargets chipEnv none "" = .ok ["esp32"] ∧ "esp32c3" ∈ chipEnv.allTargets ∧
      chipRule.buildDisableReason ⟨chipEnv, "esp32c3", ""⟩ =
        .error (.incomparable (.int 0) .lt (.str "m")) ∧
      ∀ apps, findApps sampleDisk (searchFor "esp32c3") ⟨[chipRule], ⟨"/"⟩⟩ chipEnv ≠ .ok apps) ∧
    exceptRule.buildTargets chipEnv none "" = .ok ["esp32c3"] ∧
      exceptRule.buildDisableReason ⟨chipEnv, "esp99", ""⟩ = .ok none ∧
      ∃ a, findApps sampleDisk (searchFor "esp99") ⟨[exceptRule], ⟨"/"⟩⟩ chipEnv = .ok [a] ∧
        a.status = .disabled ∧ a.buildComment = none := by
  refine ⟨⟨buildTargets_chipRule, by decide, rfl, fun apps happs => ?_⟩,
    buildTargets_exceptRule, rfl, _, findApps_exceptRule, rfl, rfl⟩
  obtain ⟨gate, hgate⟩ : ∃ gate,
      gateOf sampleDisk (searchFor "esp32c3") ⟨[chipRule], ⟨"/"⟩⟩ = .ok gate := ⟨_, rfl⟩
  have happ := exists_appFor_of_findApps happs hgate (List.mem_singleton_self _)
    (List.mem_singleton_self _) (visits_sample chipRule "esp32c3" gate)
  rw [governingRule_sample (by simp)] at happ
  exact (exists_appFor_iff_of_isDisabled (isDisabled_chipRule gate)).mp happ stalls_chipRule

/-- In the sample a target that is left out has a reason, one has none since a clause has no value
for it, and one has none since it is not known. The search comes to an app that is disabled for the
last one, goes on, and finds it without a comment. -/
theorem disabled_explained_iff_sample :
    (∃ reason, exceptRule.buildDisableReason ⟨chipEnv, "esp32", ""⟩ = .ok (some reason)) ∧
      (¬ ∃ reason, chipRule.buildDisableReason ⟨chipEnv, "esp32c3", ""⟩ = .ok (some reason)) ∧
      (¬ ∃ reason, exceptRule.buildDisableReason ⟨chipEnv, "esp99", ""⟩ = .ok (some reason)) ∧
      (∀ gate a, appFor (queryFor chipRule "esp32c3" gate) chipRule ⟨"app"⟩ "esp32c3" (none, "") ≠
        .ok a) ∧
      ∃ a, findApps sampleDisk (searchFor "esp99") ⟨[exceptRule], ⟨"/"⟩⟩ chipEnv = .ok [a] ∧
        a.status = .disabled ∧ a.buildComment = none ∧
        ¬ exceptRule.Stalls ⟨chipEnv, "esp99", ""⟩ := by
  obtain ⟨hexcept, -, hfind⟩ := disabled_explained_iff exceptRule chipEnv ""
  obtain ⟨hchip, hsearch, -⟩ := disabled_explained_iff chipRule chipEnv ""
  have hbuilds : exceptRule.builds ⟨chipEnv, "esp99", ""⟩ = .ok true := rfl
  have hknown := hexcept "esp32" _ buildTargets_exceptRule (by decide)
  have hunknown := hexcept "esp99" _ buildTargets_exceptRule (by decide)
  have hstalled := hchip "esp32c3" _ buildTargets_chipRule (by decide)
  obtain ⟨gate, hgate⟩ : ∃ gate,
      gateOf sampleDisk (searchFor "esp99") ⟨[exceptRule], ⟨"/"⟩⟩ = .ok gate := ⟨_, rfl⟩
  obtain ⟨hgoes, hcomment⟩ := hfind _ _ _ gate _ hgate findApps_exceptRule
  refine ⟨(hknown.1 (by decide)).mpr ⟨_, rfl⟩, fun h => ?_, fun h => ?_, fun gate a ha => ?_,
    _, findApps_exceptRule, rfl, ?_, ?_⟩
  · obtain ⟨found, hfound⟩ := (hstalled.1 (by decide)).mp h
    exact absurd hfound nofun
  · exact ((hunknown.2 (by decide)).mp h).2 hbuilds
  · exact (hsearch _ _ _ _ (isDisabled_chipRule gate)).mp ⟨a, ha⟩ stalls_chipRule
  · refine (hcomment _ (List.mem_singleton_self _) rfl).mpr ⟨by decide, ?_⟩
    rw [governingRule_sample (by simp)]
    exact hbuilds
  · have hstalls := hgoes ⟨"app"⟩ (List.mem_singleton_self _) "esp99" (List.mem_singleton_self _)
      ⟨"app"⟩ (none, "") (visits_sample exceptRule "esp99" gate)
    rw [governingRule_sample (by simp)] at hstalls
    exact hstalls (isDisabled_exceptRule gate)

end BuildMatrix.Discovery
