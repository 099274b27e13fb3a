import BuildMatrix.Proofs.Manifest.Targets

/-!
# Decisions and reasons

What a rule decides and the reasons that it gives are computed apart. The decision asks the enabling
clauses first and goes through the known targets only; a reason is looked for among the disabling
clauses first, for whatever target it is asked for. Where the decision has an answer for all known
targets, the two agree on each of them.

A reason is not always found for a target that is left out. The search for it stalls at a clause
without a value that the decision never looked at, and for a target that is not known there may be
nothing to find.

* `Rule.testDisableReason_eq_none_iff`: where no reason stands against a test.
* `Rule.buildTargets_pinned`, `Rule.mem_testTargets_iff`: the targets built for and tested on.
* `Rule.targets_iff_no_reason`: targets and reasons agree.
* `Rule.Stalls`, `Rule.buildDisableReason_cases_of_builds`: the three ends of the search for a
  reason.
* `Rule.exists_reason_iff`, `Rule.exists_reason_iff_of_known`: where a reason is found.
-/

namespace BuildMatrix

theorem Clause.firstMatch_append_eq_none_iff {ctx : Context} {cs ds : List Clause} :
    firstMatch ctx (cs ++ ds) = .ok none ↔
      firstMatch ctx cs = .ok none ∧ firstMatch ctx ds = .ok none := by
  induction cs with
  | nil => simp [firstMatch]
  | cons c cs ih =>
    rw [List.cons_append, firstMatch, firstMatch]
    cases c.holds ctx with
    | error e => simp
    | ok holds =>
      cases holds with
      | true => simp
      | false => exact ih

namespace Rule

variable {r : Rule} {ctx : Context} {env : Environment} {configName t : String}
  {ts tested : List String}

/-! ## Targets and reasons -/

/-- No reason stands against a test exactly where the rule builds and no clause disables the
test. -/
theorem testDisableReason_eq_none_iff : r.testDisableReason ctx = .ok none ↔
    r.builds ctx = .ok true ∧ Clause.firstMatch ctx r.disableTest = .ok none := by
  rw [← buildDisableReason_eq_none_iff, testDisableReason]
  cases r.buildDisableReason ctx with
  | error e => simp
  | ok reason =>
    cases reason with
    | some text => simp
    | none => simp [map_eq_ok_iff]

/-- Where the selected targets are in order already, they are the ones that a rule builds for. -/
theorem buildTargets_of_pairwise (h : selectTargets (fun t => r.builds ⟨env, t, configName⟩)
    env.allTargets = .ok ts) (hts : ts.Pairwise fun a b => decide (a ≤ b) = true) :
    r.buildTargets env none configName = .ok ts := by
  rw [buildTargets, h]
  exact congrArg Except.ok (List.mergeSort_of_pairwise hts)

/-- A pinned target is the only one, or there is none. -/
theorem buildTargets_pinned (h : r.buildTargets env none configName = .ok ts) (p : String) :
    r.buildTargets env (some p) configName = .ok (if p ∈ ts then [p] else []) := by
  rw [buildTargets] at h ⊢
  split at h
  · exact absurd h (by simp)
  · next selected hselected =>
    have hmem : p ∈ ts ↔ p ∈ selected := by
      rw [← Except.ok.inj h, (List.mergeSort_perm selected _).mem_iff]
    simp only [List.contains_iff_mem, hmem]

/-- A known target is built for exactly where no reason stands against it. -/
theorem mem_buildTargets_iff_no_reason (h : r.buildTargets env none configName = .ok ts)
    (ht : t ∈ env.allTargets) :
    t ∈ ts ↔ r.buildDisableReason ⟨env, t, configName⟩ = .ok none := by
  rw [mem_buildTargets_iff h, buildDisableReason_eq_none_iff]
  simp [ht]

theorem exists_buildTargets_of_testTargets (h : r.testTargets env none configName = .ok tested) :
    ∃ ts, r.buildTargets env none configName = .ok ts ∧
      selectTargets (fun t => (Clause.firstMatch ⟨env, t, configName⟩
        (r.disable ++ r.disableTest)).map Option.isNone) ts = .ok tested := by
  rw [testTargets] at h
  split at h
  · exact absurd h (by simp)
  · next ts hts => exact ⟨ts, hts, h⟩

/-- The targets tested on are those built for that no clause on tests disables. -/
theorem mem_testTargets_iff (h : r.testTargets env none configName = .ok tested) :
    t ∈ tested ↔ t ∈ env.allTargets ∧ r.builds ⟨env, t, configName⟩ = .ok true ∧
      Clause.firstMatch ⟨env, t, configName⟩ r.disableTest = .ok none := by
  obtain ⟨ts, hts, hselected⟩ := exists_buildTargets_of_testTargets h
  have hnone : ∀ found : Except EvalError (Option Clause),
      found.map Option.isNone = .ok true ↔ found = .ok none := by
    intro found
    simp [map_eq_ok_iff]
  rw [mem_selectTargets_iff hselected, mem_buildTargets_iff hts, hnone,
    Clause.firstMatch_append_eq_none_iff]
  constructor
  · rintro ⟨⟨-, ht, hbuilds⟩, -, htest⟩
    exact ⟨ht, hbuilds, htest⟩
  · rintro ⟨ht, hbuilds, htest⟩
    exact ⟨⟨nofun, ht, hbuilds⟩, (builds_eq_true_iff.mp hbuilds).2, htest⟩

/-- **Decisions and reasons agree.** Where a rule decides for which targets it builds, a known
target is among them exactly if no reason stands against it, and to pin a target leaves it alone or
nothing. Where it decides on which targets it tests, the same holds of tests, and it builds for all
of these targets. -/
theorem targets_iff_no_reason (r : Rule) (env : Environment) (configName : String) :
    (∀ ts, r.buildTargets env none configName = .ok ts →
      (∀ t ∈ env.allTargets,
        t ∈ ts ↔ r.buildDisableReason ⟨env, t, configName⟩ = .ok none) ∧
      ∀ p, r.buildTargets env (some p) configName = .ok (if p ∈ ts then [p] else [])) ∧
    ∀ tested, r.testTargets env none configName = .ok tested →
      (∀ t ∈ env.allTargets,
        t ∈ tested ↔ r.testDisableReason ⟨env, t, configName⟩ = .ok none) ∧
      ∃ ts, r.buildTargets env none configName = .ok ts ∧ ∀ t ∈ tested, t ∈ ts := by
  refine ⟨fun ts hts => ⟨fun t ht => mem_buildTargets_iff_no_reason hts ht,
    buildTargets_pinned hts⟩, fun tested htested => ⟨fun t ht => ?_, ?_⟩⟩
  · rw [mem_testTargets_iff htested, testDisableReason_eq_none_iff]
    exact and_iff_right ht
  · obtain ⟨ts, hts, hselected⟩ := exists_buildTargets_of_testTargets htested
    exact ⟨ts, hts, fun t ht => ((mem_selectTargets_iff hselected).mp ht).1⟩

/-- A clause that compares the target with a name. -/
def targetClause (op : CompareOp) (name : String) : Clause where
  stmt := "IDF_TARGET " ++ op.render ++ " \"" ++ name ++ "\""
  expr := .compare (.attr "IDF_TARGET") op (.literal (.str name))

/-- A rule with a clause of each kind. -/
def sampleRule : Rule where
  folder := ⟨"/w/app"⟩
  enable := [targetClause .ne "linux"]
  disable := [targetClause .eq "esp32c3"]
  disableTest := [targetClause .eq "esp32s2"]

def sampleEnv : Environment :=
  .ofTargets ⟨["esp32", "esp32c3", "esp32s2"], ["linux"]⟩

/-- In the sample one target is built for and tested on, one is built for only, and two are left
out. -/
theorem targets_iff_no_reason_sample :
    sampleRule.buildTargets sampleEnv none "" = .ok ["esp32", "esp32s2"] ∧
      sampleRule.testTargets sampleEnv none "" = .ok ["esp32"] ∧
      sampleRule.testDisableReason ⟨sampleEnv, "esp32", ""⟩ = .ok none ∧
      sampleRule.buildDisableReason ⟨sampleEnv, "esp32s2", ""⟩ = .ok none ∧
      sampleRule.testDisableReason ⟨sampleEnv, "esp32s2", ""⟩ ≠ .ok none ∧
      sampleRule.buildDisableReason ⟨sampleEnv, "linux", ""⟩ ≠ .ok none ∧
      sampleRule.buildTargets sampleEnv (some "esp32s2") "" = .ok ["esp32s2"] ∧
      sampleRule.buildTargets sampleEnv (some "esp32c3") "" = .ok [] := by
  have hts : sampleRule.buildTargets sampleEnv none "" = .ok ["esp32", "esp32s2"] :=
    buildTargets_of_pairwise (eq_ok_of_toOption (by decide +kernel)) (by decide +kernel)
  have htested : sampleRule.testTargets sampleEnv none "" = .ok ["esp32"] := by
    rw [testTargets, hts]
    exact eq_ok_of_toOption (by decide +kernel)
  obtain ⟨hbuild, htest⟩ := targets_iff_no_reason sampleRule sampleEnv ""
  obtain ⟨hreason, hpinned⟩ := hbuild _ hts
  obtain ⟨htestReason, -⟩ := htest _ htested
  exact ⟨hts, htested, (htestReason "esp32" (by decide)).mp (by decide),
    (hreason "esp32s2" (by decide)).mp (by decide),
    fun h => absurd ((htestReason "esp32s2" (by decide)).mpr h) (by decide),
    fun h => absurd ((hreason "linux" (by decide)).mpr h) (by decide),
    hpinned "esp32s2", hpinned "esp32c3"⟩

/-! ## Targets that are left out -/

/-- Whether the search for a reason ends at a clause without a value: a disabling one, or an
enabling one where no disabling one holds. -/
def Stalls (r : Rule) (ctx : Context) : Prop :=
  (∃ e, Clause.firstMatch ctx r.disable = .error e) ∨
    (Clause.firstMatch ctx r.disable = .ok none ∧ ∃ e, r.isEnabled ctx = .error e)

/-- The search for a reason stalls, or there is none since the rule builds, or there is one. -/
theorem buildDisableReason_cases_of_builds (r : Rule) (ctx : Context) :
    (r.Stalls ctx ∧ ∃ e, r.buildDisableReason ctx = .error e) ∨
      (¬ r.Stalls ctx ∧ r.builds ctx = .ok true ∧ r.buildDisableReason ctx = .ok none) ∨
        (¬ r.Stalls ctx ∧ r.builds ctx ≠ .ok true ∧
          ∃ reason, r.buildDisableReason ctx = .ok (some reason)) := by
  rw [Stalls, ne_eq, ← buildDisableReason_eq_none_iff]
  cases hdisable : Clause.firstMatch ctx r.disable with
  | error e => simp [buildDisableReason, hdisable]
  | ok found =>
    cases found with
    | some c => simp [buildDisableReason, hdisable]
    | none =>
      obtain ⟨reason, hreason⟩ := exists_buildDisableReason_eq hdisable
      rw [hreason]
      cases r.isEnabled ctx with
      | error e => simp [Except.map]
      | ok enabled => cases enabled <;> simp [Except.map]

/-- A reason is found where the search for it does not stall and the rule does not build. -/
theorem exists_reason_iff : (∃ reason, r.buildDisableReason ctx = .ok (some reason)) ↔
    ¬ r.Stalls ctx ∧ r.builds ctx ≠ .ok true := by
  rcases r.buildDisableReason_cases_of_builds ctx with
    ⟨hstalls, e, he⟩ | ⟨-, hbuilds, hnone⟩ | ⟨hstalls, hbuilds, hreason⟩
  · rw [he]
    exact iff_of_false nofun fun h => h.1 hstalls
  · rw [hnone]
    exact iff_of_false (by simp) fun h => h.2 hbuilds
  · exact iff_of_true hreason ⟨hstalls, hbuilds⟩

/-- The search for a reason has an end where it does not stall. -/
theorem exists_buildDisableReason_iff :
    (∃ found, r.buildDisableReason ctx = .ok found) ↔ ¬ r.Stalls ctx := by
  rcases r.buildDisableReason_cases_of_builds ctx with
    ⟨hstalls, e, he⟩ | ⟨hstalls, -, hnone⟩ | ⟨hstalls, -, reason, hreason⟩
  · rw [he]
    exact iff_of_false nofun (not_not_intro hstalls)
  · exact iff_of_true ⟨_, hnone⟩ hstalls
  · exact iff_of_true ⟨_, hreason⟩ hstalls

/-- For a known target that is left out, only a disabling clause can stall the search for the
reason. -/
theorem stalls_iff_of_known (h : r.buildTargets env none configName = .ok ts)
    (ht : t ∈ env.allTargets) : r.Stalls ⟨env, t, configName⟩ ↔
      ∃ e, Clause.firstMatch ⟨env, t, configName⟩ r.disable = .error e := by
  obtain ⟨b, hb⟩ := exists_buildTargets_iff.mp ⟨ts, h⟩ t ht
  refine or_iff_left ?_
  rintro ⟨-, e, he⟩
  rw [builds, he] at hb
  exact absurd hb (by simp)

/-- A known target that is left out has a reason exactly if the disabling clauses have values as
far as they are looked at. -/
theorem exists_reason_iff_of_known (h : r.buildTargets env none configName = .ok ts)
    (ht : t ∈ env.allTargets) (hleft : t ∉ ts) :
    (∃ reason, r.buildDisableReason ⟨env, t, configName⟩ = .ok (some reason)) ↔
      ∃ found, Clause.firstMatch ⟨env, t, configName⟩ r.disable = .ok found := by
  have hbuilds : r.builds ⟨env, t, configName⟩ ≠ .ok true := fun hb =>
    hleft ((mem_buildTargets_iff h).mpr ⟨nofun, ht, hb⟩)
  rw [exists_reason_iff, and_iff_left hbuilds, stalls_iff_of_known h ht]
  cases Clause.firstMatch ⟨env, t, configName⟩ r.disable <;> simp

end Rule

end BuildMatrix
