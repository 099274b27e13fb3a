import BuildMatrix.Proofs.Discovery.Search

/-!
# A search is the union of its single searches

The search in some folders for some targets finds what the searches in one folder for one target
find. So it does not depend on the order of folders and targets or on repeats, except that the
comment of a disabled app quotes the default targets as they are listed.

* `Discovery.single`: the settings of a search in one folder for one target.
* `Discovery.exists_findApps_reordered`, `Discovery.exists_findApps_of_paths`: a search in another
  order.
* `Discovery.findApps_union`: the whole search and its single searches.
* `Discovery.search_without_folders_sample`: a search that fails before it looks at any folder, and
  one whose comment shows the order of targets.
-/

namespace BuildMatrix.Discovery

/-! ## Single searches -/

/-- The settings of a search in one folder for one target. -/
def single (s : Settings) (p : Path) (t : String) : Settings :=
  { s with paths := [p], target := t }

section

variable {d : Disk} {s : Settings} {m : Manifest} {env : Environment} {t : String}

/-- A search for one of the targets looks for this target, and for no other than those. -/
theorem targets_single (ht : t ∈ targets s env) (p : Path) :
    t ∈ targets (single s p t) env ∧
      ∀ u ∈ targets (single s p t) env, u ∈ targets s env := by
  have hsingle : targets (single s p t) env = if t = "all" then env.allTargets else [t] := rfl
  by_cases hall : t = "all"
  · have hs : s.target = "all" := by
      rw [targets, hall] at ht
      split at ht
      · next hs => exact hs
      · exact (List.mem_singleton.mp ht).symm
    have heq : targets (single s p t) env = targets s env := by
      rw [hsingle, if_pos hall, targets, if_pos hs]
    rw [heq]
    exact ⟨ht, fun u hu => hu⟩
  · rw [hsingle, if_neg hall]
    exact ⟨List.mem_singleton_self t, fun u hu => List.mem_singleton.mp hu ▸ ht⟩

/-- If each single search has an answer, the whole one has one as long as there is a single one. -/
theorem exists_findApps_of_single (hpaths : s.paths ≠ []) (htargets : targets s env ≠ [])
    (h : ∀ p ∈ s.paths, ∀ t ∈ targets s env,
      ∃ found, findApps d (single s p t) m env = .ok found) :
    ∃ apps, findApps d s m env = .ok apps := by
  have hsingle : ∀ p ∈ s.paths, ∀ t ∈ targets s env, ∃ gate, gateOf d s m = .ok gate ∧
      Searches (queryOf d s m env gate) p [t] := by
    intro p hp t ht
    obtain ⟨gate, hgate, hsearches⟩ := exists_findApps_iff.mp (h p hp t ht)
    have hsearch := (searches_with_iff [p] t).mp (hsearches p (List.mem_singleton_self p))
    refine ⟨gate, hgate, hsearch.mono fun u hu => ?_⟩
    exact List.mem_singleton.mp hu ▸ (targets_single ht p).1
  obtain ⟨p, hp⟩ := List.exists_mem_of_ne_nil _ hpaths
  obtain ⟨t, ht⟩ := List.exists_mem_of_ne_nil _ htargets
  obtain ⟨gate, hgate, -⟩ := hsingle p hp t ht
  refine exists_findApps_iff.mpr ⟨gate, hgate, fun p hp => searches_of_forall htargets ?_⟩
  intro t ht
  obtain ⟨gate', hgate', hsearches⟩ := hsingle p hp t ht
  rw [Except.ok.inj (hgate.symm.trans hgate')]
  exact hsearches

end

/-! ## Another order of folders and targets -/

/-- Two lists of known targets differ at most in order and repeats. -/
structure SameTargets (ts us : Targets) : Prop where
  supported (t : String) : t ∈ ts.supported ↔ t ∈ us.supported
  preview (t : String) : t ∈ ts.preview ↔ t ∈ us.preview

section

variable {env : Environment} {ts : Targets} (h : SameTargets env.targets ts)
include h

theorem mem_allTargets_iff (t : String) :
    t ∈ env.allTargets ↔ t ∈ { env with targets := ts }.allTargets := by
  have hsplit : t ∈ env.targets.supported ++ env.targets.preview ↔
      t ∈ ts.supported ++ ts.preview := by
    rw [List.mem_append, List.mem_append, h.supported, h.preview]
  exact hsplit

theorem mem_targets_iff (s : Settings) (t : String) :
    t ∈ targets s env ↔ t ∈ targets s { env with targets := ts } := by
  rw [targets, targets]
  split
  · exact mem_allTargets_iff h t
  · exact Iff.rfl

theorem mem_defaultTargets_iff (s : Settings) (t : String) :
    t ∈ defaultTargets s env ↔ t ∈ defaultTargets s { env with targets := ts } := by
  rw [defaultTargets, defaultTargets]
  cases s.defaultTargets with
  | some listed =>
    have hknown : env.isKnown = { env with targets := ts }.isKnown :=
      funext (contains_eq_of_mem_iff (mem_allTargets_iff h))
    rw [hknown]
  | none =>
    rw [List.mem_append, List.mem_append, h.supported]
    split
    · rw [h.preview]
    · exact Iff.rfl

theorem agrees_of_sameTargets (d : Disk) (s : Settings) (m : Manifest) (gate : Gate) :
    (queryOf d s m env gate).env.Agrees (queryOf d s m { env with targets := ts } gate).env where
  known := mem_allTargets_iff h
  defaults := mem_defaultTargets_iff h s
  capabilities := rfl
  version := rfl
  vars := rfl

end

section

variable {d : Disk} {s : Settings} {m : Manifest} {env : Environment} {paths : List Path}
  {ts : Targets} {apps : List App}

/-- Neither the order of folders and targets nor repeats change what is found, except for the
targets that comments quote. -/
theorem exists_findApps_reordered (happs : findApps d s m env = .ok apps)
    (hpaths : ∀ p, p ∈ s.paths ↔ p ∈ paths) (hts : SameTargets env.targets ts) :
    ∃ apps', findApps d { s with paths } m { env with targets := ts } = .ok apps' ∧
      List.Forall₂ (Requotes (defaultTargets s env)
        (defaultTargets s { env with targets := ts })) apps apps' := by
  obtain ⟨gate, hgate, hsearches⟩ := exists_findApps_iff.mp ⟨apps, happs⟩
  have hagrees := agrees_of_sameTargets hts d s m gate
  have hsearches' : ∀ p ∈ paths, Searches
      (queryOf d { s with paths } m { env with targets := ts } gate) p
        (targets { s with paths } { env with targets := ts }) :=
    fun p hp => (searches_with_iff paths s.target).mpr ((searches_of_agrees hagrees
      (hsearches p ((hpaths p).mpr hp))).mono fun t ht => (mem_targets_iff hts s t).mpr ht)
  obtain ⟨apps', happs'⟩ :=
    (exists_findApps_iff (s := { s with paths })).mpr ⟨gate, hgate, hsearches'⟩
  have hunion := isUnion_of_findApps hgate happs
  have hunion' := isUnion_of_findApps (s := { s with paths }) hgate happs'
  -- Both lists rise, so it is enough that each app of one has a counterpart in the other.
  refine ⟨apps', happs', App.forall₂_of_isRising (fun _ _ h => h.order_eq) hunion.isRising
    hunion'.isRising (fun a ha => ?_) fun b hb => ?_⟩
  · obtain ⟨p, hp, t, ht, hfinds⟩ := hunion.sound a ha
    obtain ⟨b, hb, hab⟩ := finds_of_agrees hagrees hfinds
    obtain ⟨c, hc, hbc⟩ := hunion'.complete p ((hpaths p).mp hp) t
      ((mem_targets_iff hts s t).mp ht) b ((finds_with_iff paths s.target).mpr hb)
    exact ⟨c, hc, hab.trans_same hbc⟩
  · obtain ⟨p, hp, t, ht, hfinds⟩ := hunion'.sound b hb
    obtain ⟨a, ha, hba⟩ := finds_of_agrees hagrees.symm ((finds_with_iff paths s.target).mp hfinds)
    obtain ⟨c, hc, hac⟩ := hunion.complete p ((hpaths p).mpr hp) t
      ((mem_targets_iff hts s t).mpr ht) a ha
    exact ⟨c, hc, (hba.trans_same hac).symm⟩

/-- The order of folders and repeats among them change nothing. -/
theorem exists_findApps_of_paths (happs : findApps d s m env = .ok apps)
    (hpaths : ∀ p, p ∈ s.paths ↔ p ∈ paths) :
    ∃ apps', findApps d { s with paths } m env = .ok apps' ∧
      List.Forall₂ (fun a b => a.same b = true) apps apps' := by
  have hts : SameTargets env.targets env.targets := ⟨fun _ => Iff.rfl, fun _ => Iff.rfl⟩
  obtain ⟨apps', happs', hrel⟩ := exists_findApps_reordered happs hpaths hts
  exact ⟨apps', happs', hrel.imp fun _ _ => requotes_self_iff.mp⟩

end

/-! ## The union of the single searches -/

section

variable {d : Disk} {s : Settings} {m : Manifest} {env : Environment}

/-- **A search is the union of its single searches.** -/
theorem findApps_union (hsingle : ∀ p ∈ s.paths, ∀ t ∈ targets s env,
      ∃ found, findApps d (single s p t) m env = .ok found) :
    (s.paths ≠ [] → targets s env ≠ [] → ∃ apps, findApps d s m env = .ok apps) ∧
    ∀ apps, findApps d s m env = .ok apps →
      App.IsRising apps ∧
      (∀ a ∈ apps, ∃ p ∈ s.paths, ∃ t ∈ targets s env, ∃ found,
        findApps d (single s p t) m env = .ok found ∧ ∃ b ∈ found, a.same b = true) ∧
      (∀ p ∈ s.paths, ∀ t ∈ targets s env, ∀ found,
        findApps d (single s p t) m env = .ok found →
          ∀ b ∈ found, ∃ a ∈ apps, b.same a = true) ∧
      (∀ paths, (∀ p, p ∈ s.paths ↔ p ∈ paths) →
        ∃ apps', findApps d { s with paths } m env = .ok apps' ∧
          List.Forall₂ (fun a b => a.same b = true) apps apps') ∧
      ∀ paths ts, (∀ p, p ∈ s.paths ↔ p ∈ paths) → SameTargets env.targets ts →
        ∃ apps', findApps d { s with paths } m { env with targets := ts } = .ok apps' ∧
          List.Forall₂ (Requotes (defaultTargets s env)
            (defaultTargets s { env with targets := ts })) apps apps' := by
  refine ⟨fun hpaths htargets => exists_findApps_of_single hpaths htargets hsingle,
    fun apps happs => ?_⟩
  obtain ⟨gate, hgate, -⟩ := exists_findApps_iff.mp ⟨apps, happs⟩
  have hunion := isUnion_of_findApps hgate happs
  refine ⟨hunion.isRising, fun a ha => ?_, fun p hp t ht found hfound b hb => ?_,
    fun paths hpaths => exists_findApps_of_paths happs hpaths,
    fun paths ts hpaths hts => exists_findApps_reordered happs hpaths hts⟩
  · obtain ⟨p, hp, t, ht, hfinds⟩ := hunion.sound a ha
    obtain ⟨found, hfound⟩ := hsingle p hp t ht
    have hpart := isUnion_of_findApps (s := single s p t) hgate hfound
    refine ⟨p, hp, t, ht, found, hfound, ?_⟩
    exact hpart.complete p (List.mem_singleton_self p) t (targets_single ht p).1 a
      ((finds_with_iff [p] t).mpr hfinds)
  · have hpart := isUnion_of_findApps (s := single s p t) hgate hfound
    obtain ⟨p', hp', u, hu, hfinds⟩ := hpart.sound b hb
    obtain rfl : p' = p := List.mem_singleton.mp hp'
    exact hunion.complete p' hp u ((targets_single ht p').2 u hu) b
      ((finds_with_iff [p'] t).mp hfinds)

end

/-! ## A search for a target that is not built by default -/

/-- A disk with an app. -/
def sampleDisk : Disk where
  tree := .folder [("app", .folder [
    ("CMakeLists.txt", .file (.text "include($ENV\x7bIDF_PATH\x7d/tools/cmake/project.cmake)"))])]
  cwd := []

/-- A manifest without rules. -/
def sampleManifest : Manifest := ⟨[], ⟨"/"⟩⟩

/-- An environment with some supported targets and the preview target `c`. -/
def sampleEnv (ts : List String) : Environment :=
  { Environment.ofTargets ⟨["b", "a"], ["c"]⟩ with targets := ⟨ts, ["c"]⟩ }

/-- The settings of a search for `c` in a folder that is given twice, written in two ways. -/
def sampleSettings : Settings where
  paths := [⟨"app"⟩, ⟨"app/"⟩]
  target := "c"
  includeDisabled := true

/-- What is found: a disabled app that quotes the supported targets. -/
def sampleApp (p : Path) (ts : List String) : App where
  folder := p
  target := "c"
  status := .disabled
  buildComment := some (Rule.notDefaultReason "c" ts)

section

variable {p : Path} {ts : List String}

theorem judge_sample {q : Query} (hsettings : q.settings = single sampleSettings p "c")
    (hdefaults : q.env.defaults = ts) (hts : "c" ∉ ts) (folder : Path) :
    (Rule.default folder).builds ⟨q.env, "c", ""⟩ = .ok false ∧
      judge q (Rule.default folder) (plainApp q.settings p "c" (none, "")) false =
        .ok (sampleApp p ts) := by
  have hdefault : q.env.isDefault "c" = false := by
    rw [Environment.isDefault, hdefaults, Bool.eq_false_iff]
    exact fun h => hts (List.contains_iff_mem.mp h)
  have hreason : (Rule.default folder).buildDisableReason ⟨q.env, "c", ""⟩ =
      .ok (some (Rule.notDefaultReason "c" ts)) := by
    rw [Rule.buildDisableReason_default, if_neg (Bool.eq_false_iff.mp hdefault), hdefaults]
  refine ⟨by rw [Rule.builds_default, hdefault], ?_⟩
  rw [hsettings]
  exact bind_eq_ok_iff.mpr ⟨_, hreason, rfl⟩

/-- What a search for `c` finds in a folder that is an app without a rule of its own. -/
theorem findApps_of_isApp_sample (happ : isApp sampleDisk p = true)
    (hpinned : pinnedTarget sampleDisk p none = none)
    (hrule : sampleManifest.governingRule (sampleDisk.absolute p) = Rule.default ⟨"/app"⟩)
    (hts : "c" ∉ ts) :
    findApps sampleDisk (single sampleSettings p "c") sampleManifest (sampleEnv ts) =
      .ok [sampleApp p ts] := by
  obtain ⟨gate, hgate⟩ : ∃ gate,
      gateOf sampleDisk (single sampleSettings p "c") sampleManifest = .ok gate := ⟨_, rfl⟩
  have hdefaults : (queryOf sampleDisk (single sampleSettings p "c") sampleManifest
      (sampleEnv ts) gate).env.defaults = ts := List.append_nil ts
  obtain ⟨hbuilds, hjudge⟩ := judge_sample rfl hdefaults hts ⟨"/app"⟩
  have hfor : appFor (queryOf sampleDisk (single sampleSettings p "c") sampleManifest
      (sampleEnv ts) gate) (Rule.default ⟨"/app"⟩) p "c" (none, "") =
        .ok (some (sampleApp p ts)) := by
    refine appFor_of_unpinned hpinned (fun t _ => ⟨_, Rule.builds_default _ _⟩) ?_ hjudge
    rw [hbuilds]
    exact ⟨nofun, fun h => absurd (Except.ok.inj h.2) nofun⟩
  have hfolders : appFolders sampleDisk (single sampleSettings p "c") p = .ok [p] := by
    rw [appFolders, happ]
    rfl
  exact findApps_of_appFor hgate rfl rfl hfolders rfl (hrule ▸ hfor) rfl

/-- What a search for `c` in the folder of the sample finds. -/
theorem findApps_sample (hp : p ∈ sampleSettings.paths) (hts : "c" ∉ ts) :
    findApps sampleDisk (single sampleSettings p "c") sampleManifest (sampleEnv ts) =
      .ok [sampleApp p ts] := by
  obtain ⟨happ, hpinned, hrule⟩ : isApp sampleDisk p = true ∧
      pinnedTarget sampleDisk p none = none ∧
        sampleManifest.governingRule (sampleDisk.absolute p) = Rule.default ⟨"/app"⟩ := by
    revert p
    decide +kernel
  exact findApps_of_isApp_sample happ hpinned hrule hts

end

theorem findApps_union_sample :
    ∃ apps, findApps sampleDisk sampleSettings sampleManifest (sampleEnv ["b", "a"]) = .ok apps ∧
      App.IsRising apps ∧ (∃ a ∈ apps, (sampleApp ⟨"app"⟩ ["b", "a"]).same a = true) ∧
      ∃ apps', findApps sampleDisk { sampleSettings with paths := [⟨"app/"⟩, ⟨"app/"⟩, ⟨"app"⟩] }
          sampleManifest (sampleEnv ["a", "b", "a"]) = .ok apps' ∧
        List.Forall₂ (Requotes ["b", "a"] ["a", "b", "a"]) apps apps' := by
  have hpaths : ∀ p, p ∈ sampleSettings.paths ↔ p ∈ [⟨"app/"⟩, ⟨"app/"⟩, ⟨"app"⟩] := by
    intro p
    constructor <;> revert p <;> decide
  have htargets : SameTargets (sampleEnv ["b", "a"]).targets ⟨["a", "b", "a"], ["c"]⟩ := by
    constructor <;> simp [sampleEnv, or_comm]
  have hc : "c" ∈ targets sampleSettings (sampleEnv ["b", "a"]) := by decide
  have hsingle : ∀ p ∈ sampleSettings.paths, ∀ t ∈ targets sampleSettings (sampleEnv ["b", "a"]),
      ∃ found, findApps sampleDisk (single sampleSettings p t) sampleManifest
        (sampleEnv ["b", "a"]) = .ok found := by
    intro p hp t ht
    obtain rfl : t = "c" := List.mem_singleton.mp ht
    exact ⟨_, findApps_sample hp (by decide)⟩
  obtain ⟨hok, hunion⟩ := findApps_union hsingle
  obtain ⟨apps, happs⟩ := hok (by decide) (by decide)
  obtain ⟨hrising, -, hcomplete, -, hreordered⟩ := hunion apps happs
  refine ⟨apps, happs, hrising, ?_, hreordered _ _ hpaths htargets⟩
  exact hcomplete ⟨"app"⟩ (by decide) "c" hc _ (findApps_sample (by decide) (by decide)) _
    (List.mem_singleton_self _)

/-- The settings of a search in no folder, with an option that another one is missing for. -/
def idleSettings : Settings where
  paths := []
  deactivatingComponents := some ["soc"]

/-- Where no folder is searched, every single search has an answer, but the whole one has none if
its options do not go together. And in another order of targets a search finds an app that is not
the same. -/
theorem search_without_folders_sample :
    ((∀ p ∈ idleSettings.paths, ∀ t ∈ targets idleSettings (sampleEnv ["b", "a"]), ∃ found,
        findApps sampleDisk (single idleSettings p t) sampleManifest (sampleEnv ["b", "a"]) =
          .ok found) ∧
      findApps sampleDisk idleSettings sampleManifest (sampleEnv ["b", "a"]) =
        .error (.option .componentsMissing)) ∧
    SameTargets (sampleEnv ["b", "a"]).targets (sampleEnv ["a", "b"]).targets ∧
    ∃ x y,
      findApps sampleDisk (single sampleSettings ⟨"app"⟩ "c") sampleManifest
        (sampleEnv ["b", "a"]) = .ok [x] ∧
      findApps sampleDisk (single sampleSettings ⟨"app"⟩ "c") sampleManifest
        (sampleEnv ["a", "b"]) = .ok [y] ∧ x.same y = false := by
  refine ⟨⟨nofun, rfl⟩, ?_, _, _, findApps_sample (by decide) (by decide),
    findApps_sample (by decide) (by decide), ?_⟩
  · constructor <;> simp [sampleEnv, or_comm]
  · decide +kernel

end BuildMatrix.Discovery
