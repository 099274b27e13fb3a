import BuildMatrix.Proofs.Discovery.Union
import BuildMatrix.Proofs.Disk.Names
import BuildMatrix.Proofs.Manifest.Loaded
import Mathlib.Data.List.Pairwise

/-!
# Repeats among found apps

Repeats are dropped from what a search finds, but apps are compared as their folders and their
files of configurations are written. So one build is found twice when two folders that are
searched, or two rules for configurations, write one place in two ways. Apart from this, no build
is found twice.

* `App.IsSameBuild`, `App.IsWrittenAlike`: apps that are one build, and apps with the same paths.
* `Disk.exists_components_absolute`: below one folder, the names tell the place.
* `Discovery.exists_names_of_mem_appFolders`: a search goes on by names.
* `Discovery.repeats_written_apart`: when a search finds a build twice.
-/

namespace BuildMatrix

/-! ## One build -/

namespace App

variable {d : Disk} {a b a' b' : App}

/-- Whether two apps are one build: one folder, target, config name and file of the
configuration. -/
structure IsSameBuild (d : Disk) (a b : App) : Prop where
  folder : d.absolute a.folder = d.absolute b.folder
  target : a.target = b.target
  configName : a.configName = b.configName
  sdkconfig : (a.sdkconfig.map fun p => p.absolutize (d.absolute a.folder)) =
    b.sdkconfig.map fun p => p.absolutize (d.absolute b.folder)

/-- Whether the paths of two apps have the same components. -/
structure IsWrittenAlike (a b : App) : Prop where
  folder : a.folder.components = b.folder.components
  sdkconfig : a.sdkconfig.map Path.components = b.sdkconfig.map Path.components

theorem IsSameBuild.symm (h : IsSameBuild d a b) : IsSameBuild d b a :=
  ⟨h.folder.symm, h.target.symm, h.configName.symm, h.sdkconfig.symm⟩

theorem IsSameBuild.trans {c : App} (h : IsSameBuild d a b) (h' : IsSameBuild d b c) :
    IsSameBuild d a c :=
  ⟨h.folder.trans h'.folder, h.target.trans h'.target, h.configName.trans h'.configName,
    h.sdkconfig.trans h'.sdkconfig⟩

/-- Apps have equal rank exactly if they are one build and written alike. -/
theorem order_eq_iff_isSameBuild (d : Disk) :
    a.order b = .eq ↔ IsSameBuild d a b ∧ a.IsWrittenAlike b := by
  rw [order_eq_iff]
  constructor
  · rintro ⟨hfolder, htarget, hconfig, hsdkconfig⟩
    have habsolute := d.absolute_eq_of_components_eq hfolder
    refine ⟨⟨habsolute, htarget, hconfig, ?_⟩, hfolder, hsdkconfig⟩
    rw [habsolute]
    cases ha : a.sdkconfig with
    | none =>
      rw [ha] at hsdkconfig
      rw [Option.map_eq_none_iff.mp hsdkconfig.symm]
    | some p =>
      rw [ha] at hsdkconfig
      obtain ⟨q, hq, hcomponents⟩ := Option.map_eq_some_iff.mp hsdkconfig.symm
      rw [hq]
      exact congrArg some (Path.absolutize_congr rfl hcomponents.symm)
  · rintro ⟨hbuild, hwritten⟩
    exact ⟨hwritten.folder, hbuild.target, hbuild.configName, hwritten.sdkconfig⟩

end App

/-! ## Names below a folder -/

theorem Path.normalComponents_append_named (cs : List Component) (names : List String) :
    normalComponents (cs ++ named names) = normalComponents cs ++ named names := by
  induction names generalizing cs with
  | nil => rw [named, List.map_nil, List.append_nil, List.append_nil]
  | cons s names ih =>
    have hcons : cs ++ named (s :: names) = (cs ++ [.name s]) ++ named names := by
      rw [named, named, List.map_cons, List.append_assoc]
      rfl
    have hname : normalComponents (cs ++ [.name s]) = normalComponents cs ++ [.name s] := by
      rw [normalComponents, normalComponents, List.foldl_append]
      exact List.reverse_cons
    rw [hcons, ih, hname, List.append_assoc]
    rfl

/-- The names that lead to a place from a folder are seen in the absolute form of its path, behind
components that depend on the folder only. -/
theorem Disk.exists_components_absolute (d : Disk) (base : List Component) :
    ∃ before, ∀ (p : Path) (names : List String), p.components = base ++ Path.named names →
      (d.absolute p).components = before ++ Path.named names := by
  -- Whether such a path is absolute is decided by the beginning that all of them share.
  by_cases hroot : .root ∈ base
  · refine ⟨Path.normalComponents base, fun p names hp => ?_⟩
    have habsolute : p.isAbsolute = true := by
      rw [← Path.root_mem_components_iff, hp]
      exact List.mem_append_left _ hroot
    rw [absolute, Path.absolutize, if_pos habsolute, Path.components_normalize habsolute, hp,
      Path.normalComponents_append_named]
  · refine ⟨Path.normalComponents (d.cwdPath.components ++
      base.filter fun c => c ≠ .root ∧ c ≠ .current), fun p names hp => ?_⟩
    have hrelative : p.isAbsolute = false := by
      rw [Bool.eq_false_iff, Ne, ← Path.root_mem_components_iff, hp, Path.named]
      simpa using hroot
    have hsteps : p.steps =
        (base.filter fun c => c ≠ .root ∧ c ≠ .current) ++ Path.named names := by
      rw [Path.steps_eq_filter, hp, List.filter_append]
      congr 1
      refine List.filter_eq_self.mpr fun c hc => ?_
      obtain ⟨s, -, rfl⟩ := List.mem_map.mp hc
      rfl
    have hcwd := Path.text_ne_empty_of_isAbsolute d.isAbsolute_cwdPath
    rw [absolute, Path.absolutize, hrelative, if_neg (by decide),
      Path.components_normalize (Path.isAbsolute_join d.isAbsolute_cwdPath hrelative),
      Path.components_join hcwd hrelative, hsteps, ← List.append_assoc,
      Path.normalComponents_append_named]

/-- Places that are reached from one folder by names are the same only if the names are. -/
theorem Disk.components_eq_of_absolute_eq (d : Disk) {base : List Component} {p q : Path}
    (hp : ∃ names, p.components = base ++ Path.named names)
    (hq : ∃ names, q.components = base ++ Path.named names)
    (h : d.absolute p = d.absolute q) : p.components = q.components := by
  obtain ⟨names, hnames⟩ := hp
  obtain ⟨names', hnames'⟩ := hq
  obtain ⟨before, hbefore⟩ := d.exists_components_absolute base
  have heq : before ++ Path.named names = before ++ Path.named names' := by
    rw [← hbefore p names hnames, ← hbefore q names' hnames', h]
  rw [hnames, hnames', List.append_cancel_left heq]

/-! ## A search goes on by names -/

namespace Discovery

mutual

/-- A search through a tree goes on by names. -/
theorem exists_names_of_mem_appsAt {d : Disk} {s : Settings} {f : Path} :
    ∀ {folder : Path} {t : FileTree}, folder.text ≠ "" → t.IsNamed → f ∈ appsAt d s folder t →
      ∃ names, f.components = folder.components ++ Path.named names
  | _, .file _, _, _, hf => absurd hf nofun
  | folder, .folder children, hfolder, .folder hname htree, hf => by
    rw [appsAt] at hf
    split at hf
    · exact absurd hf nofun
    split at hf
    · exact absurd hf nofun
    split at hf
    · obtain rfl := List.mem_singleton.mp hf
      exact ⟨[], (List.append_nil _).symm⟩
    · exact exists_names_of_mem_appsBelow hfolder hname htree hf

theorem exists_names_of_mem_appsBelow {d : Disk} {s : Settings} {f : Path} :
    ∀ {folder : Path} {children : List (String × FileTree)}, folder.text ≠ "" →
      (∀ c ∈ children, (Component.name c.1).IsStep) → (∀ c ∈ children, c.2.IsNamed) →
        f ∈ appsBelow d s folder children →
          ∃ names, f.components = folder.components ++ Path.named names
  | _, [], _, _, _, hf => absurd hf nofun
  | folder, (name, t) :: rest, hfolder, hname, htree, hf => by
    rw [appsBelow, List.mem_append] at hf
    have hstep : (Component.name name).IsStep := hname (name, t) List.mem_cons_self
    rcases hf with hf | hf
    · obtain ⟨names, hnames⟩ := exists_names_of_mem_appsAt
        (Path.text_child_ne_empty hfolder hstep) (htree (name, t) List.mem_cons_self) hf
      refine ⟨name :: names, ?_⟩
      rw [hnames, Path.components_child hfolder hstep, List.append_assoc]
      rfl
    · exact exists_names_of_mem_appsBelow hfolder
        (fun c hc => hname c (List.mem_cons_of_mem _ hc))
        (fun c hc => htree c (List.mem_cons_of_mem _ hc)) hf

end

/-- The folders of apps that a search in a folder finds are reached from it by names. -/
theorem exists_names_of_mem_appFolders {d : Disk} {s : Settings} (hd : d.tree.IsNamed)
    {p f : Path} {folders : List Path} (hfolders : appFolders d s p = .ok folders)
    (hf : f ∈ folders) : ∃ names, f.components = p.components ++ Path.named names := by
  rw [appFolders] at hfolders
  split at hfolders
  · obtain rfl := Except.ok.inj hfolders
    split at hf
    · obtain rfl := List.mem_singleton.mp hf
      exact ⟨[], (List.append_nil _).symm⟩
    · cases hf
  · split at hfolders
    · cases hfolders
    · next t ht =>
      obtain rfl := Except.ok.inj hfolders
      exact exists_names_of_mem_appsAt (Disk.text_ne_empty_of_find ht) (Disk.isNamed_of_find hd ht)
        hf

/-! ## Repeats -/

section

variable {d : Disk} {s : Settings} {m : Manifest} {env : Environment} {gate : Gate}
  {apps : List App} {a b : App}

/-- Whether an app is found in one of the folders for one of the targets. -/
def IsFound (d : Disk) (s : Settings) (m : Manifest) (env : Environment) (gate : Gate)
    (a : App) : Prop :=
  ∃ p ∈ s.paths, ∃ t ∈ targets s env, Finds (queryOf d s m env gate) p t a

theorem exists_appFor_of_finds {q : Query} {p : Path} {t : String} (h : Finds q p t a) :
    ∃ folders, appFolders q.disk q.settings p = .ok folders ∧ a.folder ∈ folders ∧
      ∃ config, appFor q (q.manifest.governingRule (q.disk.absolute a.folder)) a.folder t config =
        .ok (some a) := by
  obtain ⟨folders, hfolders, folder, hfolder, apps, happs, ha⟩ := h
  obtain ⟨-, _, -, config, -, hfor⟩ := (mem_appsFor happs a).mp ha
  obtain ⟨_, -, hjudge⟩ := exists_judge_of_appFor hfor
  obtain rfl : a.folder = folder := (order_of_judge hjudge).1
  exact ⟨folders, hfolders, hfolder, config, hfor⟩

/-- Found apps that are one build agree in everything but their paths. -/
theorem IsFound.withoutPaths_eq (ha : IsFound d s m env gate a) (hb : IsFound d s m env gate b)
    (h : App.IsSameBuild d a b) : a.withoutPaths = b.withoutPaths := by
  obtain ⟨_, -, _, -, ha⟩ := ha
  obtain ⟨_, -, _, -, hb⟩ := hb
  obtain ⟨_, -, -, _, ha⟩ := exists_appFor_of_finds ha
  obtain ⟨_, -, -, _, hb⟩ := exists_appFor_of_finds hb
  exact withoutPaths_eq_of_appFor ha hb h.folder h.target h.configName

/-- Where all folders that are searched are reached from one folder by names, found apps of one
folder write it alike. -/
theorem IsFound.folder_eq (hd : d.tree.IsNamed) {base : List Component}
    (hpaths : ∀ p ∈ s.paths, ∃ names, p.components = base ++ Path.named names)
    (ha : IsFound d s m env gate a) (hb : IsFound d s m env gate b)
    (h : d.absolute a.folder = d.absolute b.folder) :
    a.folder.components = b.folder.components := by
  have hreached : ∀ {c : App}, IsFound d s m env gate c →
      ∃ names, c.folder.components = base ++ Path.named names := by
    rintro c ⟨p, hp, _, -, hc⟩
    obtain ⟨folders, hfolders, hmem, -⟩ := exists_appFor_of_finds hc
    obtain ⟨names, hnames⟩ := hpaths p hp
    obtain ⟨more, hmore⟩ := exists_names_of_mem_appFolders hd hfolders hmem
    refine ⟨names ++ more, ?_⟩
    rw [hmore, hnames, List.append_assoc, Path.named, Path.named, Path.named, List.map_append]
  exact d.components_eq_of_absolute_eq (hreached ha) (hreached hb) h

theorem isFound_of_mem (hgate : gateOf d s m = .ok gate) (happs : findApps d s m env = .ok apps)
    (ha : a ∈ apps) : IsFound d s m env gate a :=
  (isUnion_of_findApps hgate happs).sound a ha

/-- No build is found twice exactly if all found apps that are one build are written alike. -/
theorem pairwise_not_isSameBuild_iff (hgate : gateOf d s m = .ok gate)
    (happs : findApps d s m env = .ok apps) :
    apps.Pairwise (fun a b => ¬ App.IsSameBuild d a b) ↔
      ∀ a b, IsFound d s m env gate a → IsFound d s m env gate b → App.IsSameBuild d a b →
        a.IsWrittenAlike b := by
  have hunion := isUnion_of_findApps hgate happs
  constructor
  · rintro hpairwise a b ⟨p, hp, t, ht, ha⟩ ⟨p', hp', t', ht', hb⟩ hbuild
    obtain ⟨a', ha', haa'⟩ := hunion.complete p hp t ht a ha
    obtain ⟨b', hb', hbb'⟩ := hunion.complete p' hp' t' ht' b hb
    obtain ⟨habuild, -⟩ := (App.order_eq_iff_isSameBuild d).mp (App.order_eq_of_same haa')
    obtain ⟨hbbuild, -⟩ := (App.order_eq_iff_isSameBuild d).mp (App.order_eq_of_same hbb')
    have hbuild' : App.IsSameBuild d a' b' := (habuild.symm.trans hbuild).trans hbbuild
    -- both are kept as one app: otherwise two apps of the result would be one build
    have heq : a' = b' := by
      by_contra hne
      have hsymm : Std.Symm fun a b => ¬ App.IsSameBuild d a b :=
        ⟨fun _ _ hab hba => hab hba.symm⟩
      exact hpairwise.forall ha' hb' hne hbuild'
    subst heq
    have hab : a.same b = true := App.same_trans haa' (App.same_symm hbb')
    exact ((App.order_eq_iff_isSameBuild d).mp (App.order_eq_of_same hab)).2
  · intro hwritten
    refine hunion.isRising.imp_of_mem fun {a b} ha hb hlt hbuild => ?_
    have halike := hwritten a b (isFound_of_mem hgate happs ha) (isFound_of_mem hgate happs hb)
      hbuild
    rw [(App.order_eq_iff_isSameBuild d).mpr ⟨hbuild, halike⟩] at hlt
    exact absurd hlt nofun

/-- **A build is repeated where it is written apart.** Apps of a result that are one build agree in
everything but their paths, and the paths are written in two ways. No build is found twice exactly
if all found apps that are one build are written alike. This is so for the folders of the apps, and
only rules for configurations can write one file in two ways, when all folders that are searched are
reached from one folder by names. -/
theorem repeats_written_apart (hgate : gateOf d s m = .ok gate)
    (happs : findApps d s m env = .ok apps) :
    apps.Pairwise (fun a b => App.IsSameBuild d a b →
      a.withoutPaths = b.withoutPaths ∧ ¬ a.IsWrittenAlike b) ∧
    (apps.Pairwise (fun a b => ¬ App.IsSameBuild d a b) ↔
      ∀ a b, IsFound d s m env gate a → IsFound d s m env gate b → App.IsSameBuild d a b →
        a.IsWrittenAlike b) ∧
    (d.tree.IsNamed →
      (∃ base, ∀ p ∈ s.paths, ∃ names, p.components = base ++ Path.named names) →
        apps.Pairwise fun a b => App.IsSameBuild d a b →
          a.sdkconfig.map Path.components ≠ b.sdkconfig.map Path.components) := by
  have hrising := (isUnion_of_findApps hgate happs).isRising
  have happart : apps.Pairwise fun a b => App.IsSameBuild d a b → ¬ a.IsWrittenAlike b := by
    refine hrising.imp fun {a b} hlt hbuild halike => ?_
    rw [(App.order_eq_iff_isSameBuild d).mpr ⟨hbuild, halike⟩] at hlt
    exact absurd hlt nofun
  refine ⟨?_, pairwise_not_isSameBuild_iff hgate happs, fun hd ⟨base, hpaths⟩ => ?_⟩
  · refine happart.imp_of_mem fun {a b} ha hb hab hbuild => ⟨?_, hab hbuild⟩
    exact (isFound_of_mem hgate happs ha).withoutPaths_eq (isFound_of_mem hgate happs hb) hbuild
  · refine happart.imp_of_mem fun {a b} ha hb hab hbuild hsdkconfig => hab hbuild ⟨?_, hsdkconfig⟩
    exact (isFound_of_mem hgate happs ha).folder_eq hd hpaths (isFound_of_mem hgate happs hb)
      hbuild.folder

end

/-! ## One folder written in two ways -/

/-- The settings of the sample, with other folders. -/
def sampleSettingsIn (paths : List Path) : Settings :=
  { sampleSettings with paths }

theorem isNamed_sampleDisk : sampleDisk.tree.IsNamed := by
  have hnamed : ∀ s ∈ ["app", "CMakeLists.txt"], (Component.name s).IsStep := by
    intro s hs
    constructor <;> revert s <;> decide
  refine .folder (fun c hc => ?_) fun c hc => ?_
  · obtain rfl := List.mem_singleton.mp hc
    exact hnamed _ (by decide)
  obtain rfl := List.mem_singleton.mp hc
  refine .folder (fun c hc => ?_) fun c hc => ?_
  · obtain rfl := List.mem_singleton.mp hc
    exact hnamed _ (by decide)
  · obtain rfl := List.mem_singleton.mp hc
    exact .file _

/-- A search in folders that are the app of the sample has an answer, and finds the app in each of
them. -/
theorem exists_findApps_sampleIn (paths : List Path) (hne : paths ≠ [])
    (hpaths : ∀ p ∈ paths, isApp sampleDisk p = true ∧ pinnedTarget sampleDisk p none = none ∧
      sampleManifest.governingRule (sampleDisk.absolute p) = Rule.default ⟨"/app"⟩) :
    ∃ gate apps, gateOf sampleDisk (sampleSettingsIn paths) sampleManifest = .ok gate ∧
      findApps sampleDisk (sampleSettingsIn paths) sampleManifest (sampleEnv ["b", "a"]) =
        .ok apps ∧
      ∀ p ∈ paths, IsFound sampleDisk (sampleSettingsIn paths) sampleManifest
        (sampleEnv ["b", "a"]) gate (sampleApp p ["b", "a"]) := by
  have hone : ∀ p ∈ paths, findApps sampleDisk (single sampleSettings p "c") sampleManifest
      (sampleEnv ["b", "a"]) = .ok [sampleApp p ["b", "a"]] := by
    intro p hp
    obtain ⟨happ, hpinned, hrule⟩ := hpaths p hp
    exact findApps_of_isApp_sample happ hpinned hrule (by decide)
  have htargets : targets (sampleSettingsIn paths) (sampleEnv ["b", "a"]) = ["c"] := rfl
  obtain ⟨apps, happs⟩ : ∃ apps, findApps sampleDisk (sampleSettingsIn paths) sampleManifest
      (sampleEnv ["b", "a"]) = .ok apps := by
    refine exists_findApps_of_single hne (by rw [htargets]; decide) fun p hp t ht => ?_
    obtain rfl : t = "c" := List.mem_singleton.mp (htargets ▸ ht)
    exact ⟨_, hone p hp⟩
  obtain ⟨gate, hgate, -⟩ := exists_findApps_iff.mp ⟨apps, happs⟩
  refine ⟨gate, apps, hgate, happs, fun p hp =>
    ⟨p, hp, "c", htargets ▸ List.mem_singleton_self _, ?_⟩⟩
  have hunion := isUnion_of_findApps (s := single sampleSettings p "c") hgate (hone p hp)
  obtain ⟨p', hp', t, ht, hfinds⟩ := hunion.sound _ (List.mem_singleton_self _)
  obtain rfl : p' = p := List.mem_singleton.mp hp'
  obtain rfl : t = "c" := List.mem_singleton.mp ht
  exact (finds_with_iff (s := sampleSettingsIn paths) [p'] "c").mp hfinds

/-- A folder that is given twice, with a slash at its end and without one, gives no build twice. -/
theorem repeats_written_apart_sample :
    ∃ apps, findApps sampleDisk sampleSettings sampleManifest (sampleEnv ["b", "a"]) = .ok apps ∧
      apps ≠ [] ∧ apps.Pairwise fun a b => App.IsSameBuild sampleDisk a b →
        a.sdkconfig.map Path.components ≠ b.sdkconfig.map Path.components := by
  obtain ⟨gate, apps, hgate, happs, hfound⟩ :=
    exists_findApps_sampleIn [⟨"app"⟩, ⟨"app/"⟩] (by decide) (by decide +kernel)
  obtain ⟨p, hp, t, ht, hfinds⟩ := hfound ⟨"app"⟩ (by decide)
  obtain ⟨a, ha, -⟩ := (isUnion_of_findApps hgate happs).complete p hp t ht _ hfinds
  refine ⟨apps, happs, List.ne_nil_of_mem ha, ?_⟩
  refine (repeats_written_apart hgate happs).2.2 isNamed_sampleDisk ⟨[], fun p hp => ⟨["app"], ?_⟩⟩
  revert p
  decide +kernel

/-- A folder that is given with a dot in front of it and without one gives each build twice. -/
theorem repeated_build_sample :
    ∃ apps, findApps sampleDisk (sampleSettingsIn [⟨"app"⟩, ⟨"./app"⟩]) sampleManifest
        (sampleEnv ["b", "a"]) = .ok apps ∧
      ¬ apps.Pairwise fun a b => ¬ App.IsSameBuild sampleDisk a b := by
  obtain ⟨gate, apps, hgate, happs, hfound⟩ :=
    exists_findApps_sampleIn [⟨"app"⟩, ⟨"./app"⟩] (by decide) (by decide +kernel)
  refine ⟨apps, happs, fun hpairwise => ?_⟩
  have hbuild : App.IsSameBuild sampleDisk (sampleApp ⟨"app"⟩ ["b", "a"])
      (sampleApp ⟨"./app"⟩ ["b", "a"]) := ⟨by decide +kernel, rfl, rfl, rfl⟩
  have halike := (pairwise_not_isSameBuild_iff hgate happs).mp hpairwise _ _
    (hfound _ (by decide)) (hfound _ (by decide)) hbuild
  exact absurd halike.folder (by decide +kernel)

end Discovery

end BuildMatrix
