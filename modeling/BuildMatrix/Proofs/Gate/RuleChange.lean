import BuildMatrix.Gate
import BuildMatrix.Proofs.Manifest.Governing
import BuildMatrix.Proofs.Manifest.Snapshot

/-!
# Rule changes at the gate

The gate is told the folders whose rules changed since a snapshot, and forces the build of an app
when the folder of its governing rule is among them. An app whose governing rule was changed is built
this way, wherever the rule lies. The exception is a rule that was removed and whose place was taken
by a rule further up that is as before: the folder of the removed rule is among the changed ones, but
the gate looks at the folder of the other rule only.

* `Manifest.IsMasked`: the exception.
* `Manifest.mem_changedFolders_governingRule_iff`: apart from it, the folder of the governing rule
  is among the changed ones whenever the digest of the governing rule changed.
* `Manifest.builds_iff_not_isMasked`: so the app is built, apart from the exception.
-/

namespace BuildMatrix

/-! ## The gate -/

namespace Gate

variable {g : Gate}

theorem changesRuleOf_withManifestFolders_iff (g : Gate) (folders : List Path) (folder : Path) :
    (g.withManifestFolders folders).changesRuleOf folder = true ↔
      ∃ f ∈ folders, f.same folder = true :=
  List.any_eq_true

theorem decide_of_touches (hg : g.isEnabled = true) {p : Path}
    (hp : g.touches (p.absolutize g.root) = true) (rule : Rule) (ctx : Context) :
    g.decide rule p ctx = .ok (.build "current build modifies the app itself") := by
  rw [decide, hg, hp]
  rfl

theorem decide_of_changesRuleOf (hg : g.isEnabled = true) {p : Path}
    (hp : g.touches (p.absolutize g.root) = false) {rule : Rule}
    (hrule : g.changesRuleOf rule.folder = true) (ctx : Context) :
    g.decide rule p ctx = .ok (.build "current build modifies the related manifest rules") := by
  rw [decide, hg, hp, hrule]
  rfl

/-- Changed folders make no difference for a rule that is not in one of them. -/
theorem decide_withManifestFolders_of_not {folders : List Path} {rule : Rule}
    (h : (g.withManifestFolders folders).changesRuleOf rule.folder = false) (p : Path)
    (ctx : Context) :
    (g.withManifestFolders folders).decide rule p ctx =
      (g.withManifestFolders []).decide rule p ctx := by
  rw [decide, h]
  rfl

/-- The gate builds when the folder of the rule is among the changed ones, or when it would build
without any change of rules. -/
theorem builds_withManifestFolders_iff (hg : g.isEnabled = true) (folders : List Path)
    (rule : Rule) (p : Path) (ctx : Context) :
    (∃ reason, (g.withManifestFolders folders).decide rule p ctx = .ok (.build reason)) ↔
      (∃ f ∈ folders, f.same rule.folder = true) ∨
        ∃ reason, (g.withManifestFolders []).decide rule p ctx = .ok (.build reason) := by
  have hon : ∀ fs, (g.withManifestFolders fs).isEnabled = true := fun _ => hg
  rw [← changesRuleOf_withManifestFolders_iff]
  cases h : (g.withManifestFolders folders).changesRuleOf rule.folder with
  | false =>
    rw [decide_withManifestFolders_of_not h]
    simp
  | true =>
    refine iff_of_true ?_ (Or.inl rfl)
    cases hp : g.touches (p.absolutize g.root) with
    | true => exact ⟨_, decide_of_touches (hon folders) hp rule ctx⟩
    | false => exact ⟨_, decide_of_changesRuleOf (hon folders) hp h ctx⟩

end Gate

namespace Manifest

variable {m old : Manifest}

/-! ## Removed rules -/

/-- Whether the rule that governed a path was removed, and the rule that governs it now is not a
changed one. -/
structure IsMasked (old m : Manifest) (p : Path) : Prop where
  had_rule : old.shaAt? (old.governingRule p).folder ≠ none
  has_no_rule : m.shaAt? (old.governingRule p).folder = none
  is_unchanged : old.shaAt? (m.governingRule p).folder = m.shaAt? (m.governingRule p).folder

/-- When the governing rule of a path has another digest than before, and the rule in its folder
does not, then the rule that governed the path before was removed. -/
theorem isMasked_of_shaAt?_eq (hroot : old.root = m.root) {p : Path}
    (hne : (old.governingRule p).sha ≠ (m.governingRule p).sha)
    (heq : old.shaAt? (m.governingRule p).folder = m.shaAt? (m.governingRule p).folder) :
    IsMasked old m p := by
  -- It is enough that the old rule lies on the way to the new one.
  have hmasked : ∀ folder, old.ruleAt? folder = some (old.governingRule p) →
      m.ruleAt? folder = none → IsMasked old m p := by
    intro folder hold hnone
    obtain rfl := components_of_ruleAt? hold
    exact ⟨by simp [shaAt?, hold], by simp [shaAt?, hnone], heq⟩
  rcases governingRule_cases m p with ⟨before, after, hsearched, hr, hbefore⟩ | ⟨hr, hnone⟩
  · rw [shaAt?, shaAt?, hr, Option.map_some, Option.map_eq_some_iff] at heq
    obtain ⟨r, hold, hsha⟩ := heq
    rcases governingRule_of_searched (hroot ▸ hsearched) hold with hgov | ⟨folder, hmem, hgov⟩
    · exact absurd (hgov ▸ hsha) hne
    · exact hmasked folder hgov (hbefore folder hmem)
  · rcases governingRule_cases old p with ⟨before, after, hsearched, hgov, -⟩ | ⟨hgov, -⟩
    · refine hmasked _ hgov (hnone _ ?_)
      rw [← hroot, hsearched]
      exact List.mem_append_right _ List.mem_cons_self
    · exact absurd (by rw [hgov, hr, hroot]) hne

theorem exists_same_iff (hold : old.IsSound) (hm : m.IsSound) {q : Path} (hq : q.IsNormal) :
    (∃ f ∈ m.changedFolders old.digests, f.same q = true) ↔ q ∈ m.changedFolders old.digests := by
  constructor
  · rintro ⟨f, hf, hfq⟩
    have hnormal := ((mem_changedFolders_iff hm hold).mp hf).1
    rwa [← (hnormal.same_iff hq).mp hfq]
  · exact fun h => ⟨q, h, (hq.same_iff hq).mpr rfl⟩

/-- The folder of the governing rule is among the changed ones when the rule in it changed. -/
theorem mem_changedFolders_governingRule_iff (hold : old.IsSound) (hm : m.IsSound)
    (hroot : old.root = m.root) {p : Path}
    (hne : (old.governingRule p).sha ≠ (m.governingRule p).sha) :
    (m.governingRule p).folder ∈ m.changedFolders old.digests ↔ ¬ IsMasked old m p := by
  rw [mem_changedFolders_iff hm hold]
  constructor
  · exact fun h hmasked => h.2 hmasked.is_unchanged
  · exact fun h => ⟨isNormal_folder_governingRule hm p,
      fun heq => h (isMasked_of_shaAt?_eq hroot hne heq)⟩

/-- A gate that knows that no component changed. -/
def sampleGate : Gate where
  root := ⟨"/w"⟩
  components := some []

def sampleContext : Context where
  env := Environment.ofTargets Targets.builtin
  target := "esp32"
  configName := ""

/-- In the sample the rule of a folder above the app is removed, and the one at the root takes its
place. -/
theorem isMasked_sample : IsMasked sampleOld sampleNew ⟨"apps/foo"⟩ where
  had_rule := by decide +kernel
  has_no_rule := by decide +kernel
  is_unchanged := by
    have hnew : (sampleNew.governingRule ⟨"apps/foo"⟩).folder = ⟨"/w"⟩ := by decide +kernel
    have hruleOld : sampleOld.ruleAt? (Path.components ⟨"/w"⟩) =
      some (sampleRule "old.yml" "/w" []) := by decide +kernel
    have hruleNew : sampleNew.ruleAt? (Path.components ⟨"/w"⟩) =
      some (sampleRule "new.yml" "/w" []) := by decide +kernel
    rw [hnew, shaAt?, shaAt?, hruleOld, hruleNew]
    rfl

theorem sha_governingRule_sample_ne {p : Path} {folder folder' : String}
    (hold : sampleOld.governingRule p = sampleRule "old.yml" folder ["soc"])
    (hnew : sampleNew.governingRule p = sampleRule "new.yml" folder' []) :
    (sampleOld.governingRule p).sha ≠ (sampleNew.governingRule p).sha := by
  rw [hold, hnew]
  exact sha_sampleRule_ne _ _ _ _

/-- **Changes of rules at the gate.** Where the governing rule of an app has another digest than the
one that governed it when the snapshot was written, the app is built, unless the old rule was
removed, the new one is not a changed one, and nothing else makes the gate build. -/
theorem builds_iff_not_isMasked {d₁ d₂ d d' : Disk} {files₁ files₂ : List Path}
    {root₁ root₂ file : Path} {strict₁ strict₂ : Bool}
    (hold : load d₁ files₁ root₁ strict₁ = .ok old) (hm : load d₂ files₂ root₂ strict₂ = .ok m)
    (hroot : old.root = m.root) (hplain : old.HasPlainLines)
    (hw : old.writeSnapshot d file = .ok d') :
    ∃ changed, m.compareSnapshot d' file true = .ok changed ∧
      ∀ (g : Gate) (p : Path) (ctx : Context), g.isEnabled = true →
        (old.governingRule p).sha ≠ (m.governingRule p).sha →
        ((∃ reason, (g.withManifestFolders changed).decide (m.governingRule p) p ctx =
            .ok (.build reason)) ↔
          ¬ IsMasked old m p ∨
            ∃ reason, (g.withManifestFolders []).decide (m.governingRule p) p ctx =
              .ok (.build reason)) := by
  have hold' := isSound_of_load hold
  have hm' := isSound_of_load hm
  refine ⟨_, compareSnapshot_of_writeSnapshot hold' hroot hplain hw, fun g p ctx hg hne => ?_⟩
  rw [Gate.builds_withManifestFolders_iff hg,
    exists_same_iff hold' hm' (isNormal_folder_governingRule hm' p),
    mem_changedFolders_governingRule_iff hold' hm' hroot hne]

theorem builds_of_edited_rule_sample :
    ∃ d', sampleOld.writeSnapshot sampleDisk ⟨"shas"⟩ = .ok d' ∧
      ∃ changed, sampleNew.compareSnapshot d' ⟨"shas"⟩ true = .ok changed ∧
        ∃ reason, (sampleGate.withManifestFolders changed).decide
          (sampleNew.governingRule ⟨"a:b/app"⟩) ⟨"a:b/app"⟩ sampleContext =
            .ok (.build reason) := by
  obtain ⟨d', hw⟩ := writeSnapshot_sampleOld
  obtain ⟨changed, hchanged, hbuilds⟩ :=
    builds_iff_not_isMasked load_sampleOld load_sampleNew rfl hasPlainLines_sampleOld hw
  have hold : sampleOld.governingRule ⟨"a:b/app"⟩ = sampleRule "old.yml" "/w/a:b" ["soc"] := by
    decide +kernel
  have hnew : sampleNew.governingRule ⟨"a:b/app"⟩ = sampleRule "new.yml" "/w/a:b" [] := by
    decide +kernel
  have hne := sha_governingRule_sample_ne hold hnew
  have hrule : sampleNew.shaAt? (sampleOld.governingRule ⟨"a:b/app"⟩).folder ≠ none := by
    decide +kernel
  exact ⟨d', hw, changed, hchanged,
    (hbuilds sampleGate _ _ rfl hne).mpr (Or.inl fun hmasked => hrule hmasked.has_no_rule)⟩

/-- An app is skipped although the rule that governed it was removed. -/
theorem skips_removed_rule_sample :
    load sampleDisk [⟨"old.yml"⟩] ⟨"."⟩ false = .ok sampleOld ∧
      load sampleDisk [⟨"new.yml"⟩] ⟨"."⟩ false = .ok sampleNew ∧
      sampleGate.isEnabled = true ∧
      (sampleOld.governingRule ⟨"apps/foo"⟩).sha ≠
        (sampleNew.governingRule ⟨"apps/foo"⟩).sha ∧
      ∃ d' changed, sampleOld.writeSnapshot sampleDisk ⟨"shas"⟩ = .ok d' ∧
        sampleNew.compareSnapshot d' ⟨"shas"⟩ true = .ok changed ∧
        (sampleGate.withManifestFolders changed).decide (sampleNew.governingRule ⟨"apps/foo"⟩)
          ⟨"apps/foo"⟩ sampleContext =
            .ok (.skip "current build does not modify any components") := by
  have hold : sampleOld.governingRule ⟨"apps/foo"⟩ = sampleRule "old.yml" "/w/apps" ["soc"] := by
    decide +kernel
  have hnew : sampleNew.governingRule ⟨"apps/foo"⟩ = sampleRule "new.yml" "/w" [] := by
    decide +kernel
  have hne := sha_governingRule_sample_ne hold hnew
  have holdSound := isSound_of_load load_sampleOld
  have hnewSound := isSound_of_load load_sampleNew
  obtain ⟨d', hw⟩ := writeSnapshot_sampleOld
  refine ⟨load_sampleOld, load_sampleNew, rfl, hne, d', _, hw,
    compareSnapshot_of_writeSnapshot (m := sampleNew) holdSound rfl hasPlainLines_sampleOld hw, ?_⟩
  have hsame : (sampleGate.withManifestFolders
      (sampleNew.changedFolders sampleOld.digests)).changesRuleOf
        (sampleNew.governingRule ⟨"apps/foo"⟩).folder = false := by
    rw [← Bool.not_eq_true, Gate.changesRuleOf_withManifestFolders_iff,
      exists_same_iff holdSound hnewSound (isNormal_folder_governingRule hnewSound _),
      mem_changedFolders_governingRule_iff holdSound hnewSound rfl hne]
    exact fun h => h isMasked_sample
  rw [Gate.decide_withManifestFolders_of_not hsame]
  exact eq_ok_of_toOption (by decide +kernel)

end Manifest

end BuildMatrix
