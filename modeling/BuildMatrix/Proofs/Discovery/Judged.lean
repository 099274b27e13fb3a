import BuildMatrix.Discovery.Basic
import BuildMatrix.Proofs.App.Order
import BuildMatrix.Proofs.Manifest.Loaded
import BuildMatrix.Proofs.Manifest.Targets

/-!
# What decides about an app

Everything that a search says about an app follows from its folder, target and config name, however
the folder is written. In an environment that lists its targets in another order the search says the
same, but for the default targets that the comment of a disabled app may quote.

* `Discovery.withoutPaths_eq_of_appFor`, `Discovery.same_of_appFor`: found apps of one folder
  agree in everything but their paths, and those of equal rank are the same.
* `Discovery.Requotes`: apps that are the same but for the targets that their comments quote.
* `Discovery.judge_of_agrees`, `Discovery.appFor_of_agrees`: what is found in another order of
  targets.
-/

namespace BuildMatrix.Discovery

variable {q : Query} {rule : Rule} {folder folder' : Path} {target : String}
  {config config' : Config} {a b : App} {enabled : Bool}

/-! ## Found apps -/

theorem appFor_eq (q : Query) (rule : Rule) (folder : Path) (target : String) (config : Config) :
    appFor q rule folder target config =
      if (pinnedTarget q.disk folder config.1).any (· ≠ target) then .ok none
      else
        rule.buildTargets q.env (pinnedTarget q.disk folder config.1) config.2 >>= fun ts =>
          if (pinnedTarget q.disk folder config.1).isSome && ts.isEmpty then .ok none
          else judge q rule (plainApp q.settings folder target config) (ts.contains target) >>=
            fun a => .ok (some a) :=
  rfl

/-- A target that no other pinned one stands against is among those that a rule builds for if it is
known and the rule builds for it. -/
theorem contains_buildTargets {pinned : Option String} {ts : List String}
    (hpinned : ¬pinned.any (· ≠ target) = true)
    (h : rule.buildTargets q.env pinned config.2 = .ok ts) :
    ts.contains target = true ↔ target ∈ q.env.allTargets ∧
      rule.builds ⟨q.env, target, config.2⟩ = .ok true := by
  have hall : ∀ p ∈ pinned, p = target := by
    rintro p rfl
    simpa using hpinned
  rw [List.contains_iff_mem, Rule.mem_buildTargets_iff h]
  exact and_iff_right hall

/-- A found app is judged as one that its rule builds for exactly if its target is known and the
rule builds for it, whether the target is pinned or not. -/
theorem exists_judge_of_appFor (h : appFor q rule folder target config = .ok (some a)) :
    ∃ enabled, (enabled = true ↔ target ∈ q.env.allTargets ∧
        rule.builds ⟨q.env, target, config.2⟩ = .ok true) ∧
      judge q rule (plainApp q.settings folder target config) enabled = .ok a := by
  rw [appFor_eq] at h
  split at h
  · exact absurd (Except.ok.inj h) nofun
  · next hpinned =>
    obtain ⟨ts, hts, h⟩ := bind_eq_ok_iff.mp h
    split at h
    · exact absurd (Except.ok.inj h) nofun
    · obtain ⟨b, hb, h⟩ := bind_eq_ok_iff.mp h
      rw [← Option.some_inj.mp (Except.ok.inj h)]
      exact ⟨ts.contains target, contains_buildTargets hpinned hts, hb⟩

/-- An app that nothing pins to a target is found, judged in this way. -/
theorem appFor_of_unpinned (hpinned : pinnedTarget q.disk folder config.1 = none)
    (hbuilds : ∀ t ∈ q.env.allTargets, ∃ b, rule.builds ⟨q.env, t, config.2⟩ = .ok b)
    (henabled : enabled = true ↔ target ∈ q.env.allTargets ∧
      rule.builds ⟨q.env, target, config.2⟩ = .ok true)
    (hjudge : judge q rule (plainApp q.settings folder target config) enabled = .ok a) :
    appFor q rule folder target config = .ok (some a) := by
  obtain ⟨ts, hts⟩ : ∃ ts, rule.buildTargets q.env none config.2 = .ok ts :=
    Rule.exists_buildTargets_iff.mpr hbuilds
  have hcontains : ts.contains target = enabled := by
    rw [Bool.eq_iff_iff, henabled]
    exact contains_buildTargets (by simp) hts
  rw [appFor_eq, hpinned, if_neg (by simp), hts]
  refine bind_eq_ok_iff.mpr ⟨ts, rfl, ?_⟩
  rw [if_neg (by simp), hcontains]
  exact bind_eq_ok_iff.mpr ⟨a, hjudge, rfl⟩

theorem judge_eq (q : Query) (rule : Rule) (a : App) (enabled : Bool) :
    judge q rule a enabled =
      if enabled then
        rule.testDisableReason ⟨q.env, a.target, a.configName⟩ >>= fun testComment =>
          q.gate.decide rule (q.disk.absolute a.folder) ⟨q.env, a.target, a.configName⟩ >>=
            fun decision => .ok (withDecision { a with testComment } decision)
      else
        rule.buildDisableReason ⟨q.env, a.target, a.configName⟩ >>= fun buildComment =>
          .ok { a with status := .disabled, buildComment } :=
  rfl

/-- What judging does with an app that its rule builds for: the rule explains whether it is tested,
and the gate decides. -/
theorem judge_true_eq_ok_iff :
    judge q rule a true = .ok b ↔
      ∃ testComment, rule.testDisableReason ⟨q.env, a.target, a.configName⟩ = .ok testComment ∧
        ∃ decision, q.gate.decide rule (q.disk.absolute a.folder)
          ⟨q.env, a.target, a.configName⟩ = .ok decision ∧
            withDecision { a with testComment } decision = b := by
  simp only [judge_eq, if_pos, bind_eq_ok_iff, Except.ok.injEq]

/-- What judging does with any other app: the rule explains why it is not built. -/
theorem judge_false_eq_ok_iff :
    judge q rule a false = .ok b ↔
      ∃ buildComment, rule.buildDisableReason ⟨q.env, a.target, a.configName⟩ = .ok buildComment ∧
        { a with status := .disabled, buildComment } = b := by
  simp only [judge_eq, Bool.false_eq_true, if_false, bind_eq_ok_iff, Except.ok.injEq]

theorem withDecision_relocated (a : App) (decision : Decision) (sdkconfig : Option Path) :
    withDecision { a with folder, sdkconfig } decision =
      { withDecision a decision with folder, sdkconfig } := by
  cases decision <;> rfl

/-- Judging an app does not depend on how its folder is written, nor on the file of its
configuration. -/
theorem judge_relocated (hfolder : q.disk.absolute folder = q.disk.absolute a.folder)
    (sdkconfig : Option Path) (h : judge q rule a enabled = .ok b) :
    judge q rule { a with folder, sdkconfig } enabled = .ok { b with folder, sdkconfig } := by
  cases enabled with
  | true =>
    obtain ⟨testComment, htest, decision, hdecision, rfl⟩ := judge_true_eq_ok_iff.mp h
    refine judge_true_eq_ok_iff.mpr ⟨testComment, htest, decision, hfolder ▸ hdecision, ?_⟩
    rw [← withDecision_relocated]
  | false =>
    obtain ⟨buildComment, hbuild, rfl⟩ := judge_false_eq_ok_iff.mp h
    exact judge_false_eq_ok_iff.mpr ⟨buildComment, hbuild, rfl⟩

/-- Judging an app leaves what it is ordered by as it is. -/
theorem order_of_judge (h : judge q rule a enabled = .ok b) :
    b.folder = a.folder ∧ b.target = a.target ∧ b.configName = a.configName ∧
      b.sdkconfig = a.sdkconfig := by
  cases enabled with
  | true =>
    obtain ⟨testComment, -, decision, -, rfl⟩ := judge_true_eq_ok_iff.mp h
    cases decision <;> exact ⟨rfl, rfl, rfl, rfl⟩
  | false =>
    obtain ⟨buildComment, -, rfl⟩ := judge_false_eq_ok_iff.mp h
    exact ⟨rfl, rfl, rfl, rfl⟩

/-- Found apps of one folder, however it is written, with one target and config name agree in
everything but their paths. -/
theorem withoutPaths_eq_of_appFor {target' : String}
    (ha : appFor q (q.manifest.governingRule (q.disk.absolute folder)) folder target config =
      .ok (some a))
    (hb : appFor q (q.manifest.governingRule (q.disk.absolute folder')) folder' target' config' =
      .ok (some b))
    (hfolder : q.disk.absolute a.folder = q.disk.absolute b.folder) (htarget : a.target = b.target)
    (hname : a.configName = b.configName) : a.withoutPaths = b.withoutPaths := by
  obtain ⟨enabled, henabled, ha⟩ := exists_judge_of_appFor ha
  obtain ⟨enabled', henabled', hb⟩ := exists_judge_of_appFor hb
  obtain ⟨hafolder, hatarget, haname, -⟩ := order_of_judge ha
  obtain ⟨hbfolder, hbtarget, hbname, -⟩ := order_of_judge hb
  have habsolute : q.disk.absolute folder' = q.disk.absolute folder := by
    rw [hafolder, hbfolder] at hfolder
    exact hfolder.symm
  obtain rfl : target = target' := hatarget.symm.trans (htarget.trans hbtarget)
  obtain ⟨sdkconfig, name⟩ := config
  obtain ⟨sdkconfig', name'⟩ := config'
  obtain rfl : name = name' := haname.symm.trans (hname.trans hbname)
  rw [habsolute] at hb henabled'
  obtain rfl : enabled = enabled' := Bool.eq_iff_iff.mpr (henabled.trans henabled'.symm)
  have hplain : { plainApp q.settings folder target (sdkconfig, name) with
      folder := folder', sdkconfig := sdkconfig' } =
        plainApp q.settings folder' target (sdkconfig', name) := rfl
  have hmoved := judge_relocated (a := plainApp q.settings folder target (sdkconfig, name))
    habsolute sdkconfig' ha
  rw [hplain, hb] at hmoved
  have hab : b = { a with folder := folder', sdkconfig := sdkconfig' } := Except.ok.inj hmoved
  rw [hab]
  rfl

/-- **Equal rank means to be the same.** Found apps that agree in folder, target, config name and
file of the configuration agree in everything. -/
theorem same_of_appFor {target' : String}
    (ha : appFor q (q.manifest.governingRule (q.disk.absolute folder)) folder target config =
      .ok (some a))
    (hb : appFor q (q.manifest.governingRule (q.disk.absolute folder')) folder' target' config' =
      .ok (some b))
    (h : a.order b = .eq) : a.same b = true := by
  obtain ⟨hfolder, htarget, hname, hsdkconfig⟩ := App.order_eq_iff.mp h
  have habsolute := q.disk.absolute_eq_of_components_eq hfolder
  exact App.same_iff.mpr
    ⟨hfolder, hsdkconfig, withoutPaths_eq_of_appFor ha hb habsolute htarget hname⟩

/-! ## Another order of targets -/

/-- The comment of a disabled app quotes the default targets. -/
def Quotes (defaults : List String) (a : App) : Prop :=
  a.status = .disabled ∧ a.buildComment = some (Rule.notDefaultReason a.target defaults)

/-- An app without its comment on the build. -/
def withoutComment (a : App) : App :=
  { a with buildComment := none }

/-- Apps are the same, or each of them quotes its own default targets and they are the same in
everything else. -/
def Requotes (old new : List String) (a b : App) : Prop :=
  a.same b = true ∨
    Quotes old a ∧ Quotes new b ∧ (withoutComment a).same (withoutComment b) = true

section

variable {old new : List String} {c : App}

theorem same_withoutComment (h : a.same b = true) :
    (withoutComment a).same (withoutComment b) = true := by
  obtain ⟨hfolder, hsdkconfig, hrest⟩ := App.same_iff.mp h
  refine App.same_iff.mpr ⟨hfolder, hsdkconfig, ?_⟩
  have hplain : withoutComment a.withoutPaths = withoutComment b.withoutPaths :=
    congrArg withoutComment hrest
  exact hplain

theorem Quotes.of_same (h : Quotes old a) (hab : a.same b = true) : Quotes old b := by
  obtain ⟨-, -, hrest⟩ := App.same_iff.mp hab
  have hplain : Quotes old a.withoutPaths := h
  rw [hrest] at hplain
  exact hplain

theorem Requotes.same_withoutComment (h : Requotes old new a b) :
    (withoutComment a).same (withoutComment b) = true := by
  rcases h with h | ⟨-, -, h⟩
  · exact Discovery.same_withoutComment h
  · exact h

theorem Requotes.order_eq (h : Requotes old new a b) : a.order b = .eq :=
  App.order_eq_of_same (a := withoutComment a) (b := withoutComment b) h.same_withoutComment

theorem Requotes.symm (h : Requotes old new a b) : Requotes new old b a := by
  rcases h with h | ⟨ha, hb, h⟩
  · exact .inl (App.same_symm h)
  · exact .inr ⟨hb, ha, App.same_symm h⟩

theorem Requotes.trans_same (h : Requotes old new a b) (hbc : b.same c = true) :
    Requotes old new a c := by
  rcases h with h | ⟨ha, hb, h⟩
  · exact .inl (App.same_trans h hbc)
  · exact .inr ⟨ha, hb.of_same hbc, App.same_trans h (Discovery.same_withoutComment hbc)⟩

theorem Requotes.status_eq (h : Requotes old new a b) : a.status = b.status := by
  obtain ⟨-, -, hrest⟩ := App.same_iff.mp h.same_withoutComment
  have hstatus : (withoutComment a).withoutPaths.status =
      (withoutComment b).withoutPaths.status := congrArg App.status hrest
  exact hstatus

/-- Apps that quote the same default targets are the same. -/
theorem requotes_self_iff : Requotes old old a b ↔ a.same b = true := by
  refine ⟨fun h => ?_, .inl⟩
  rcases h with h | ⟨ha, hb, h⟩
  · exact h
  · obtain ⟨hfolder, hsdkconfig, hrest⟩ := App.same_iff.mp h
    have htarget : (withoutComment a).withoutPaths.target =
        (withoutComment b).withoutPaths.target := congrArg App.target hrest
    have hcomment : a.buildComment = b.buildComment := by
      rw [ha.2, hb.2]
      exact congrArg (fun t => some (Rule.notDefaultReason t old)) htarget
    have hplain : a.withoutPaths =
        { (withoutComment a).withoutPaths with buildComment := a.buildComment } := rfl
    refine App.same_iff.mpr ⟨hfolder, hsdkconfig, ?_⟩
    rw [hplain, hrest, hcomment]
    rfl

end

/-! ## What is found in another order -/

section

variable {f : Environment} {apps : List App}

/-- Another order of targets changes at most what the comment of an app quotes. -/
theorem judge_of_agrees (h : q.env.Agrees f)
    (hbuilds : enabled = true → rule.builds ⟨q.env, a.target, a.configName⟩ = .ok true)
    (hjudge : judge q rule a enabled = .ok b) :
    ∃ c, judge { q with env := f } rule a enabled = .ok c ∧
      Requotes q.env.defaults f.defaults b c := by
  cases enabled with
  | true =>
    obtain ⟨testComment, htest, decision, hdecision, rfl⟩ := judge_true_eq_ok_iff.mp hjudge
    have hbuilds' : rule.builds ⟨f, a.target, a.configName⟩ = .ok true :=
      Rule.builds_eq h _ _ rule ▸ hbuilds rfl
    rw [Rule.testDisableReason_of_builds (hbuilds rfl), Clause.firstMatch_eq h,
      ← Rule.testDisableReason_of_builds hbuilds'] at htest
    rw [Gate.decide_eq h] at hdecision
    exact ⟨_, judge_true_eq_ok_iff.mpr ⟨testComment, htest, decision, hdecision, rfl⟩,
      .inl (App.same_self _)⟩
  | false =>
    obtain ⟨buildComment, hreason, rfl⟩ := judge_false_eq_ok_iff.mp hjudge
    rcases Rule.buildDisableReason_cases h a.target a.configName rule with heq | ⟨hold, hnew⟩
    · exact ⟨_, judge_false_eq_ok_iff.mpr ⟨buildComment, heq ▸ hreason, rfl⟩,
        .inl (App.same_self _)⟩
    · obtain rfl := Except.ok.inj (hold.symm.trans hreason)
      exact ⟨_, judge_false_eq_ok_iff.mpr ⟨_, hnew, rfl⟩,
        .inr ⟨⟨rfl, rfl⟩, ⟨rfl, rfl⟩, App.same_self _⟩⟩

/-- An app that is found in one order of targets is found in another. -/
theorem appFor_of_agrees {r : Option App} (h : q.env.Agrees f)
    (hfor : appFor q rule folder target config = .ok r) :
    ∃ r', appFor { q with env := f } rule folder target config = .ok r' ∧
      ∀ a, r = some a → ∃ b, r' = some b ∧ Requotes q.env.defaults f.defaults a b := by
  rw [appFor_eq] at hfor ⊢
  split at hfor
  · next hpinned =>
    refine ⟨none, if_pos hpinned, fun a ha => ?_⟩
    rw [← Except.ok.inj hfor] at ha
    exact absurd ha nofun
  · next hpinned =>
    rw [if_neg hpinned]
    obtain ⟨ts, hts, hfor⟩ := bind_eq_ok_iff.mp hfor
    obtain ⟨ts', hts', hmem⟩ := Rule.buildTargets_of_agrees h hts
    rw [isEmpty_eq_of_mem_iff hmem] at hfor
    split at hfor
    · next hnone =>
      refine ⟨none, bind_eq_ok_iff.mpr ⟨ts', hts', if_pos hnone⟩, fun a ha => ?_⟩
      rw [← Except.ok.inj hfor] at ha
      exact absurd ha nofun
    · next hsome =>
      obtain ⟨a, hjudge, hfor⟩ := bind_eq_ok_iff.mp hfor
      have hbuilds : ts.contains target = true →
          rule.builds ⟨q.env, target, config.2⟩ = .ok true :=
        fun hc => ((contains_buildTargets hpinned hts).mp hc).2
      obtain ⟨b, hb, hab⟩ := judge_of_agrees h hbuilds hjudge
      rw [contains_eq_of_mem_iff hmem] at hb
      refine ⟨some b, bind_eq_ok_iff.mpr ⟨ts', hts', ?_⟩, fun x hx => ⟨b, rfl, ?_⟩⟩
      · rw [if_neg hsome]
        exact bind_eq_ok_iff.mpr ⟨b, hb, rfl⟩
      · rw [← Except.ok.inj hfor] at hx
        exact Option.some_inj.mp hx ▸ hab

end

end BuildMatrix.Discovery
