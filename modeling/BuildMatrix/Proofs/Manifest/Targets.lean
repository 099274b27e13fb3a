import BuildMatrix.Gate
import BuildMatrix.Proofs.Outcome

/-!
# What rules make of the lists of targets

Rules and the gate ask whether a target is known and whether it is built by default. They do not
look at the order of targets or at repeats, with one exception: the reason that an app is disabled
for quotes the default targets as they are listed.

* `Environment.Agrees`: environments that differ at most in the order and the repeats of targets.
* `Rule.builds_eq`, `Clause.firstMatch_eq`, `Gate.decide_eq`: the answers that are the same.
* `Rule.buildDisableReason_cases`: the reason that may quote another list.
* `Rule.buildDisableReason_eq_none_iff`: exactly a rule that builds has no such reason.
* `Rule.mem_buildTargets_iff`, `Rule.buildTargets_of_agrees`: the targets that a rule builds for.
-/

namespace BuildMatrix

/-! ## Lists with the same members -/

section

variable {ts us : List String} (h : ∀ t, t ∈ ts ↔ t ∈ us)
include h

theorem contains_eq_of_mem_iff (t : String) : ts.contains t = us.contains t := by
  rw [Bool.eq_iff_iff, List.contains_iff_mem, List.contains_iff_mem]
  exact h t

theorem isEmpty_eq_of_mem_iff : ts.isEmpty = us.isEmpty := by
  rw [Bool.eq_iff_iff, List.isEmpty_iff, List.isEmpty_iff, List.eq_nil_iff_forall_not_mem,
    List.eq_nil_iff_forall_not_mem]
  exact forall_congr' fun t => not_congr (h t)

end

/-! ## Environments with the same targets -/

/-- Environments differ at most in the order and the repeats of their targets. -/
structure Environment.Agrees (e f : Environment) : Prop where
  known (t : String) : t ∈ e.allTargets ↔ t ∈ f.allTargets
  defaults (t : String) : t ∈ e.defaults ↔ t ∈ f.defaults
  capabilities : e.capabilities = f.capabilities
  version : e.version = f.version
  vars : e.vars = f.vars

theorem Environment.Agrees.symm {e f : Environment} (h : e.Agrees f) : f.Agrees e where
  known t := (h.known t).symm
  defaults t := (h.defaults t).symm
  capabilities := h.capabilities.symm
  version := h.version.symm
  vars := h.vars.symm

section

variable {e f : Environment} (h : e.Agrees f) (t configName : String)
include h

/-! ## Conditions -/

theorem Environment.isDefault_eq : e.isDefault t = f.isDefault t :=
  contains_eq_of_mem_iff h.defaults t

theorem Context.lookup_eq (name : String) :
    lookup ⟨e, t, configName⟩ name = lookup ⟨f, t, configName⟩ name := by
  have hversion : e.sdkVersion = f.sdkVersion := by
    rw [Environment.sdkVersion, Environment.sdkVersion, h.version]
  have hreserved : reserved ⟨e, t, configName⟩ name = reserved ⟨f, t, configName⟩ name := by
    simp only [reserved, Environment.isDefault_eq h, hversion]
  rw [lookup, lookup, hreserved, h.capabilities, h.vars]

theorem Operand.value_eq (x : Operand) :
    x.value ⟨e, t, configName⟩ = x.value ⟨f, t, configName⟩ := by
  cases x with
  | attr name => exact Context.lookup_eq h t configName name
  | literal | list => rfl

theorem Expr.evaluate_eq (x : Expr) :
    x.evaluate ⟨e, t, configName⟩ = x.evaluate ⟨f, t, configName⟩ := by
  induction x with
  | compare left op right =>
    rw [evaluate, evaluate, Operand.value_eq h, Operand.value_eq h]
  | combine left op right ihleft ihright =>
    rw [evaluate, evaluate, ihleft, ihright]

theorem Clause.holds_eq (c : Clause) :
    c.holds ⟨e, t, configName⟩ = c.holds ⟨f, t, configName⟩ := by
  rw [holds, holds, Expr.holds, Expr.holds, Expr.evaluate_eq h]

theorem Clause.firstMatch_eq (cs : List Clause) :
    firstMatch ⟨e, t, configName⟩ cs = firstMatch ⟨f, t, configName⟩ cs := by
  induction cs with
  | nil => rfl
  | cons c cs ih => rw [firstMatch, firstMatch, Clause.holds_eq h, ih]

theorem Dependency.resolveCases_eq (default : List String) (cases : List SwitchCase) :
    resolveCases ⟨e, t, configName⟩ default cases =
      resolveCases ⟨f, t, configName⟩ default cases := by
  induction cases with
  | nil => rfl
  | cons c cases ih => rw [resolveCases, resolveCases, Clause.holds_eq h, ih]

theorem Dependency.resolve_eq (x : Dependency) :
    x.resolve ⟨e, t, configName⟩ = x.resolve ⟨f, t, configName⟩ := by
  cases x with
  | flat => rfl
  | switch cases default => exact Dependency.resolveCases_eq h t configName default cases

theorem Gate.decide_eq (g : Gate) (r : Rule) (app : Path) :
    g.decide r app ⟨e, t, configName⟩ = g.decide r app ⟨f, t, configName⟩ := by
  rw [decide, decide, Dependency.resolve_eq h, Dependency.resolve_eq h]

/-! ## Targets of a rule -/

namespace Rule

theorem builds_eq (r : Rule) : r.builds ⟨e, t, configName⟩ = r.builds ⟨f, t, configName⟩ := by
  rw [builds, builds, isEnabled, isEnabled, Environment.isDefault_eq h, Clause.firstMatch_eq h,
    Clause.firstMatch_eq h]

/-- The reason that an app is disabled for when its target is not built by default. -/
def notDefaultReason (t : String) (defaults : List String) : String :=
  "Target " ++ t ++ " not in default build targets " ++ Text.joinWith "," defaults

/-- The reason that an app is disabled for is the same, or it quotes the default targets. -/
theorem buildDisableReason_cases (r : Rule) :
    r.buildDisableReason ⟨e, t, configName⟩ = r.buildDisableReason ⟨f, t, configName⟩ ∨
      r.buildDisableReason ⟨e, t, configName⟩ = .ok (some (notDefaultReason t e.defaults)) ∧
        r.buildDisableReason ⟨f, t, configName⟩ = .ok (some (notDefaultReason t f.defaults)) := by
  rw [buildDisableReason, buildDisableReason, Environment.isDefault_eq h, Clause.firstMatch_eq h,
    Clause.firstMatch_eq h]
  split
  · exact .inl rfl
  · exact .inl rfl
  · split
    · split
      · exact .inl rfl
      · exact .inr ⟨rfl, rfl⟩
    · exact .inl rfl

end Rule

end

namespace Rule

variable {r : Rule} {ctx : Context}

theorem builds_eq_true_iff : r.builds ctx = .ok true ↔
    r.isEnabled ctx = .ok true ∧ Clause.firstMatch ctx r.disable = .ok none := by
  rw [builds]
  cases r.isEnabled ctx with
  | error e => simp
  | ok enabled =>
    cases enabled with
    | false => simp
    | true => simp [map_eq_ok_iff]

/-- Where no disabling clause holds, the enabling side says whether there is a reason. -/
theorem exists_buildDisableReason_eq (h : Clause.firstMatch ctx r.disable = .ok none) :
    ∃ reason, r.buildDisableReason ctx =
      (r.isEnabled ctx).map fun enabled => if enabled then none else some reason := by
  rw [buildDisableReason, h, isEnabled]
  dsimp only
  split
  · refine ⟨notDefaultReason ctx.target ctx.env.defaults, ?_⟩
    cases ctx.env.isDefault ctx.target <;> rfl
  · refine ⟨"Not enabled by manifest rules:\n" ++
      Text.joinWith "\n" (r.enable.map fun c => "- " ++ c.stmt), ?_⟩
    cases Clause.firstMatch ctx r.enable with
    | error e => rfl
    | ok found => cases found <;> rfl

/-- There is no reason exactly where the rule builds. -/
theorem buildDisableReason_eq_none_iff :
    r.buildDisableReason ctx = .ok none ↔ r.builds ctx = .ok true := by
  rw [builds_eq_true_iff]
  cases hdisable : Clause.firstMatch ctx r.disable with
  | error e =>
    rw [buildDisableReason, hdisable]
    simp
  | ok found =>
    cases found with
    | some c =>
      rw [buildDisableReason, hdisable]
      simp
    | none =>
      obtain ⟨reason, hreason⟩ := exists_buildDisableReason_eq hdisable
      rw [hreason, and_iff_left rfl, map_eq_ok_iff]
      constructor
      · rintro ⟨enabled, henabled, hnone⟩
        cases enabled with
        | true => exact henabled
        | false => exact absurd hnone nofun
      · exact fun henabled => ⟨true, henabled, rfl⟩

theorem testDisableReason_of_builds (h : r.builds ctx = .ok true) :
    r.testDisableReason ctx =
      (Clause.firstMatch ctx r.disableTest).map fun c => c.map disabledBy := by
  rw [testDisableReason, buildDisableReason_eq_none_iff.mpr h]

/-- The rule that says nothing builds for the default targets. -/
theorem builds_default (folder : Path) (ctx : Context) :
    (default folder).builds ctx = .ok (ctx.env.isDefault ctx.target) := by
  rw [builds, isEnabled]
  cases ctx.env.isDefault ctx.target <;> rfl

theorem buildDisableReason_default (folder : Path) (ctx : Context) :
    (default folder).buildDisableReason ctx =
      .ok (if ctx.env.isDefault ctx.target then none
        else some (notDefaultReason ctx.target ctx.env.defaults)) := by
  rw [buildDisableReason]
  cases ctx.env.isDefault ctx.target <;> rfl

/-! ## The targets that a rule builds for -/

variable {test : String → Except EvalError Bool} {ts selected : List String} {t : String}

/-- The targets are selected if each of them can be tested. -/
theorem exists_selectTargets_iff :
    (∃ selected, selectTargets test ts = .ok selected) ↔ ∀ t ∈ ts, ∃ b, test t = .ok b := by
  induction ts with
  | nil => exact ⟨fun _ => nofun, fun _ => ⟨[], rfl⟩⟩
  | cons t ts ih =>
    rw [List.forall_mem_cons, ← ih, selectTargets]
    cases test t with
    | error e => exact ⟨fun h => absurd h.choose_spec nofun, fun h => absurd h.1.choose_spec nofun⟩
    | ok keep =>
      cases selectTargets test ts with
      | error e =>
        exact ⟨fun h => absurd h.choose_spec nofun, fun h => absurd h.2.choose_spec nofun⟩
      | ok rest => exact ⟨fun _ => ⟨⟨keep, rfl⟩, rest, rfl⟩, fun _ => ⟨_, rfl⟩⟩

/-- The targets that are selected are those for which the test holds. -/
theorem mem_selectTargets_iff (h : selectTargets test ts = .ok selected) :
    t ∈ selected ↔ t ∈ ts ∧ test t = .ok true := by
  induction ts generalizing selected with
  | nil =>
    rw [← Except.ok.inj h]
    exact ⟨nofun, fun h => absurd h.1 nofun⟩
  | cons u ts ih =>
    rw [selectTargets] at h
    split at h
    · exact absurd h nofun
    · next keep hkeep =>
      split at h
      · exact absurd h nofun
      · next rest hrest =>
        rw [← Except.ok.inj h]
        cases keep with
        | true =>
          have hself : t = u → test t = .ok true := fun htu => htu ▸ hkeep
          rw [if_pos rfl, List.mem_cons, List.mem_cons, ih hrest, or_and_right,
            and_iff_left_of_imp hself]
        | false =>
          have hself : ¬(t = u ∧ test t = .ok true) := by
            rintro ⟨rfl, htest⟩
            rw [hkeep] at htest
            exact absurd (Except.ok.inj htest) nofun
          rw [if_neg nofun, List.mem_cons, ih hrest, or_and_right, or_iff_right hself]

variable {env : Environment} {pinned : Option String} {configName : String}

theorem exists_buildTargets_iff :
    (∃ ts, r.buildTargets env pinned configName = .ok ts) ↔
      ∀ t ∈ env.allTargets, ∃ b, r.builds ⟨env, t, configName⟩ = .ok b := by
  rw [← exists_selectTargets_iff, buildTargets]
  cases selectTargets (fun t => r.builds ⟨env, t, configName⟩) env.allTargets with
  | error e => exact ⟨fun h => absurd h.choose_spec nofun, fun h => absurd h.choose_spec nofun⟩
  | ok selected =>
    cases pinned with
    | none => exact ⟨fun _ => ⟨_, rfl⟩, fun _ => ⟨_, rfl⟩⟩
    | some t => exact ⟨fun _ => ⟨_, rfl⟩, fun _ => ⟨_, rfl⟩⟩

/-- A rule builds for a known target for which it builds, unless another one is pinned. -/
theorem mem_buildTargets_iff (h : r.buildTargets env pinned configName = .ok ts) :
    t ∈ ts ↔ (∀ p ∈ pinned, p = t) ∧ t ∈ env.allTargets ∧
      r.builds ⟨env, t, configName⟩ = .ok true := by
  rw [buildTargets] at h
  split at h
  · exact absurd h nofun
  · next selected hselected =>
    rw [← mem_selectTargets_iff hselected]
    cases pinned with
    | none =>
      rw [← Except.ok.inj h, (List.mergeSort_perm selected _).mem_iff]
      simp
    | some p =>
      have hpin : (∀ q ∈ some p, q = t) ↔ p = t := by simp
      rw [← Except.ok.inj h, hpin]
      split
      · next hp =>
        rw [List.mem_singleton]
        refine ⟨?_, fun hpt => hpt.1.symm⟩
        rintro rfl
        exact ⟨rfl, List.contains_iff_mem.mp hp⟩
      · next hp =>
        refine ⟨nofun, fun hpt => absurd ?_ hp⟩
        rw [hpt.1]
        exact List.contains_iff_mem.mpr hpt.2

/-- In another order of targets a rule builds for the same ones. -/
theorem buildTargets_of_agrees {e f : Environment} (h : e.Agrees f)
    (hts : r.buildTargets e pinned configName = .ok ts) :
    ∃ ts', r.buildTargets f pinned configName = .ok ts' ∧ ∀ t, t ∈ ts ↔ t ∈ ts' := by
  obtain ⟨ts', hts'⟩ : ∃ ts', r.buildTargets f pinned configName = .ok ts' := by
    rw [exists_buildTargets_iff]
    intro t ht
    rw [← builds_eq h]
    exact exists_buildTargets_iff.mp ⟨ts, hts⟩ t ((h.known t).mpr ht)
  refine ⟨ts', hts', fun t => ?_⟩
  rw [mem_buildTargets_iff hts, mem_buildTargets_iff hts', h.known t, builds_eq h]

end Rule

end BuildMatrix
