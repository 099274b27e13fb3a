import BuildMatrix.Proofs.Discovery.Judged

/-!
# What a search finds

A search looks at each of its folders for each of its targets. It has an answer if each of these
looks has one, and what it finds is what they find, in order and without repeats.

* `Discovery.Searches`, `Discovery.Finds`: the search in one folder for one target.
* `Discovery.same_of_finds`: found apps of equal rank are the same.
* `Discovery.searches_of_agrees`, `Discovery.finds_of_agrees`: another order of targets.
* `Discovery.exists_findApps_iff`, `Discovery.isUnion_of_findApps`: the whole search.
* `Discovery.Visits`, `Discovery.exists_appFor_of_findApps`: the apps that a search comes to.
* `Discovery.findApps_of_appFor`: a search that comes to one app.
-/

namespace BuildMatrix.Discovery

/-! ## Apps of a folder -/

section

variable {q : Query} {folder : Path} {target : String} {apps : List App} {a : App}

theorem appsFor_eq (q : Query) (folder : Path) (target : String) :
    appsFor q folder target =
      configs q.disk (q.settings.configRules.map ConfigRule.read) folder target >>= fun found =>
        (found.mapM (appFor q (q.manifest.governingRule (q.disk.absolute folder)) folder
          target)).mapError FindError.eval >>= fun apps =>
            .ok ((apps.filterMap id).filter (keeps q.settings)) :=
  rfl

/-- The apps of a folder that are found are those of its configurations that are kept. -/
theorem mem_appsFor (h : appsFor q folder target = .ok apps) (a : App) :
    a ∈ apps ↔ keeps q.settings a = true ∧ ∃ found,
      configs q.disk (q.settings.configRules.map ConfigRule.read) folder target = .ok found ∧
        ∃ config ∈ found, appFor q (q.manifest.governingRule (q.disk.absolute folder)) folder
          target config = .ok (some a) := by
  rw [appsFor_eq] at h
  obtain ⟨found, hfound, h⟩ := bind_eq_ok_iff.mp h
  obtain ⟨results, hresults, h⟩ := bind_eq_ok_iff.mp h
  rw [mapError_eq_ok_iff] at hresults
  rw [← Except.ok.inj h, List.mem_filter, and_comm, List.mem_filterMap]
  refine and_congr_right fun _ => ⟨?_, ?_⟩
  · rintro ⟨r, hr, rfl⟩
    exact ⟨found, hfound, (mem_of_mapM_eq_ok hresults).mp hr⟩
  · rintro ⟨found', hfound', hconfig⟩
    obtain rfl : found = found' := Except.ok.inj (hfound.symm.trans hfound')
    exact ⟨some a, (mem_of_mapM_eq_ok hresults).mpr hconfig, rfl⟩

end

/-! ## Folders of apps -/

mutual

/-- Of the settings, only the folders that are left out matter to a search through a folder. -/
theorem appsAt_eq {d : Disk} {s s' : Settings} (h : s.exclude = s'.exclude) :
    ∀ (folder : Path) (t : FileTree), appsAt d s folder t = appsAt d s' folder t
  | _, .file _ => rfl
  | folder, .folder children => by
    rw [appsAt, appsAt, isExcluded, isExcluded, h, appsBelow_eq h folder children]

theorem appsBelow_eq {d : Disk} {s s' : Settings} (h : s.exclude = s'.exclude) :
    ∀ (folder : Path) (children : List (String × FileTree)),
      appsBelow d s folder children = appsBelow d s' folder children
  | _, [] => rfl
  | folder, (name, t) :: rest => by
    rw [appsBelow, appsBelow, appsAt_eq h (folder.child name) t, appsBelow_eq h folder rest]

end

theorem appFolders_eq {d : Disk} {s s' : Settings} (hrecursive : s.recursive = s'.recursive)
    (hexclude : s.exclude = s'.exclude) (folder : Path) :
    appFolders d s folder = appFolders d s' folder := by
  simp only [appFolders, hrecursive, appsAt_eq hexclude]

/-! ## One folder -/

/-- The search in a folder for some targets has an answer: the folder can be searched, and each app
in it can be looked at for each of the targets. -/
def Searches (q : Query) (p : Path) (ts : List String) : Prop :=
  ∃ folders, appFolders q.disk q.settings p = .ok folders ∧
    ∀ folder ∈ folders, ∀ t ∈ ts, ∃ apps, appsFor q folder t = .ok apps

/-- The search in a folder for a target finds an app. -/
def Finds (q : Query) (p : Path) (t : String) (a : App) : Prop :=
  ∃ folders, appFolders q.disk q.settings p = .ok folders ∧
    ∃ folder ∈ folders, ∃ apps, appsFor q folder t = .ok apps ∧ a ∈ apps

section

variable {q q' : Query} {p p' : Path} {t t' : String} {ts us : List String} {a b : App}

theorem searches_congr
    (hfolders : appFolders q'.disk q'.settings = appFolders q.disk q.settings)
    (happs : appsFor q' = appsFor q) : Searches q' p ts ↔ Searches q p ts := by
  rw [Searches, Searches, hfolders, happs]

theorem Searches.mono (h : Searches q p ts) (hts : ∀ t ∈ us, t ∈ ts) : Searches q p us := by
  obtain ⟨folders, hfolders, happs⟩ := h
  exact ⟨folders, hfolders, fun folder hfolder t ht => happs folder hfolder t (hts t ht)⟩

/-- A search for some targets has an answer if there is a target and each of them is looked for in
a search that has one. -/
theorem searches_of_forall (hts : ts ≠ []) (h : ∀ t ∈ ts, Searches q p [t]) :
    Searches q p ts := by
  obtain ⟨u, hu⟩ := List.exists_mem_of_ne_nil _ hts
  obtain ⟨folders, hfolders, -⟩ := h u hu
  refine ⟨folders, hfolders, fun folder hfolder t ht => ?_⟩
  obtain ⟨folders', hfolders', happs⟩ := h t ht
  obtain rfl : folders = folders' := Except.ok.inj (hfolders.symm.trans hfolders')
  exact happs folder hfolder t (List.mem_singleton_self t)

theorem finds_congr
    (hfolders : appFolders q'.disk q'.settings = appFolders q.disk q.settings)
    (happs : appsFor q' = appsFor q) : Finds q' p t a ↔ Finds q p t a := by
  rw [Finds, Finds, hfolders, happs]

/-- Found apps of equal rank are the same, wherever they are found. -/
theorem same_of_finds (ha : Finds q p t a) (hb : Finds q p' t' b) (h : a.order b = .eq) :
    a.same b = true := by
  obtain ⟨_, -, folder, -, apps, happs, ha⟩ := ha
  obtain ⟨_, -, folder', -, apps', happs', hb⟩ := hb
  obtain ⟨-, _, -, config, -, ha⟩ := (mem_appsFor happs a).mp ha
  obtain ⟨-, _, -, config', -, hb⟩ := (mem_appsFor happs' b).mp hb
  exact same_of_appFor ha hb h

/-- Apps that are found in one order of targets are found in another. -/
theorem appsFor_of_agrees {f : Environment} {folder : Path} {apps : List App}
    (h : q.env.Agrees f) (happs : appsFor q folder t = .ok apps) :
    ∃ apps', appsFor { q with env := f } folder t = .ok apps' ∧
      ∀ a ∈ apps, ∃ b ∈ apps', Requotes q.env.defaults f.defaults a b := by
  obtain ⟨found, hfound, hrest⟩ := bind_eq_ok_iff.mp (appsFor_eq q folder t ▸ happs)
  obtain ⟨results, hresults, -⟩ := bind_eq_ok_iff.mp hrest
  rw [mapError_eq_ok_iff] at hresults
  obtain ⟨results', hresults'⟩ : ∃ results', found.mapM (appFor { q with env := f }
      (q.manifest.governingRule (q.disk.absolute folder)) folder t) = .ok results' := by
    rw [exists_mapM_eq_ok_iff]
    intro config hconfig
    obtain ⟨r, hr⟩ := exists_mapM_eq_ok_iff.mp ⟨results, hresults⟩ config hconfig
    obtain ⟨r', hr', -⟩ := appFor_of_agrees h hr
    exact ⟨r', hr'⟩
  have happs' : appsFor { q with env := f } folder t =
      .ok ((results'.filterMap id).filter (keeps q.settings)) := by
    rw [appsFor_eq]
    exact bind_eq_ok_iff.mpr
      ⟨found, hfound, bind_eq_ok_iff.mpr ⟨results', mapError_eq_ok_iff.mpr hresults', rfl⟩⟩
  refine ⟨_, happs', fun a ha => ?_⟩
  obtain ⟨hkeeps, found', hfound', config, hconfig, ha⟩ := (mem_appsFor happs a).mp ha
  obtain ⟨r', hr', hrel⟩ := appFor_of_agrees h ha
  obtain ⟨b, rfl, hab⟩ := hrel a rfl
  refine ⟨b, (mem_appsFor happs' b).mpr ⟨?_, found', hfound', config, hconfig, hr'⟩, hab⟩
  rw [keeps, ← hab.status_eq]
  exact hkeeps

theorem searches_of_agrees {f : Environment} (h : q.env.Agrees f) (hsearch : Searches q p ts) :
    Searches { q with env := f } p ts := by
  obtain ⟨folders, hfolders, hfound⟩ := hsearch
  refine ⟨folders, hfolders, fun folder hfolder t ht => ?_⟩
  obtain ⟨apps, happs⟩ := hfound folder hfolder t ht
  obtain ⟨apps', happs', -⟩ := appsFor_of_agrees h happs
  exact ⟨apps', happs'⟩

theorem finds_of_agrees {f : Environment} (h : q.env.Agrees f) (hfinds : Finds q p t a) :
    ∃ b, Finds { q with env := f } p t b ∧ Requotes q.env.defaults f.defaults a b := by
  obtain ⟨folders, hfolders, folder, hfolder, apps, happs, ha⟩ := hfinds
  obtain ⟨apps', happs', hrel⟩ := appsFor_of_agrees h happs
  obtain ⟨b, hb, hab⟩ := hrel a ha
  exact ⟨b, ⟨folders, hfolders, folder, hfolder, apps', happs', hb⟩, hab⟩

end

/-! ## All folders and targets -/

/-- Puts together what is found for the members of a list. -/
def collect {ε α β : Type} (f : α → Except ε (List β)) (as : List α) : Except ε (List β) :=
  as.mapM f >>= fun found => .ok found.flatten

section

variable {ε α β : Type} {f : α → Except ε (List β)} {as : List α} {bs : List β}

theorem exists_collect_iff : (∃ bs, collect f as = .ok bs) ↔ ∀ a ∈ as, ∃ b, f a = .ok b := by
  rw [← exists_mapM_eq_ok_iff]
  constructor
  · rintro ⟨bs, h⟩
    obtain ⟨found, hfound, -⟩ := bind_eq_ok_iff.mp h
    exact ⟨found, hfound⟩
  · rintro ⟨found, hfound⟩
    exact ⟨found.flatten, bind_eq_ok_iff.mpr ⟨found, hfound, rfl⟩⟩

/-- An error for a list is one for a member. -/
theorem exists_of_collect_eq_error {e : ε} (h : collect f as = .error e) :
    ∃ a ∈ as, f a = .error e := by
  obtain h | ⟨parts, -, h⟩ := bind_eq_error_iff.mp h
  · exact exists_of_mapM_eq_error h
  · exact absurd h nofun

theorem collect_singleton {a : α} (h : f a = .ok bs) : collect f [a] = .ok bs := by
  refine bind_eq_ok_iff.mpr ⟨[bs], mapM_cons_eq_ok_iff.mpr ⟨bs, [], h, rfl, rfl⟩, ?_⟩
  rw [List.flatten_singleton]

/-- What is left out of each part may be left out at the end. -/
theorem collect_filter {g : α → Except ε (List β)} {keep : β → Bool}
    (h : ∀ a, g a = (f a).map (List.filter keep)) (as : List α) :
    collect g as = (collect f as).map (List.filter keep) := by
  rw [collect, collect, funext h, mapM_map]
  cases as.mapM f with
  | error e => rfl
  | ok found => exact congrArg Except.ok List.filter_flatten.symm

theorem mem_collect (h : collect f as = .ok bs) (b : β) :
    b ∈ bs ↔ ∃ a ∈ as, ∃ found, f a = .ok found ∧ b ∈ found := by
  obtain ⟨found, hfound, h⟩ := bind_eq_ok_iff.mp h
  rw [← Except.ok.inj h, List.mem_flatten]
  constructor
  · rintro ⟨part, hpart, hb⟩
    obtain ⟨a, ha, hf⟩ := (mem_of_mapM_eq_ok hfound).mp hpart
    exact ⟨a, ha, part, hf, hb⟩
  · rintro ⟨a, ha, part, hf, hb⟩
    exact ⟨part, (mem_of_mapM_eq_ok hfound).mpr ⟨a, ha, hf⟩, hb⟩

end

section

variable {q : Query} {p : Path} {apps : List App}

theorem appsIn_eq (q : Query) (p : Path) :
    appsIn q p = appFolders q.disk q.settings p >>=
      collect fun folder => collect (appsFor q folder) (targets q.settings q.env) :=
  rfl

theorem exists_appsIn_iff :
    (∃ apps, appsIn q p = .ok apps) ↔ Searches q p (targets q.settings q.env) := by
  rw [appsIn_eq]
  constructor
  · rintro ⟨apps, h⟩
    obtain ⟨folders, hfolders, h⟩ := bind_eq_ok_iff.mp h
    refine ⟨folders, hfolders, fun folder hfolder => ?_⟩
    exact exists_collect_iff.mp (exists_collect_iff.mp ⟨apps, h⟩ folder hfolder)
  · rintro ⟨folders, hfolders, h⟩
    obtain ⟨apps, happs⟩ := exists_collect_iff.mpr fun folder hfolder =>
      exists_collect_iff.mpr (h folder hfolder)
    exact ⟨apps, bind_eq_ok_iff.mpr ⟨folders, hfolders, happs⟩⟩

theorem mem_appsIn (h : appsIn q p = .ok apps) (a : App) :
    a ∈ apps ↔ ∃ t ∈ targets q.settings q.env, Finds q p t a := by
  rw [appsIn_eq] at h
  obtain ⟨folders, hfolders, h⟩ := bind_eq_ok_iff.mp h
  rw [mem_collect h]
  constructor
  · rintro ⟨folder, hfolder, found, hfound, ha⟩
    obtain ⟨t, ht, apps, happs, ha⟩ := (mem_collect hfound a).mp ha
    exact ⟨t, ht, folders, hfolders, folder, hfolder, apps, happs, ha⟩
  · rintro ⟨t, ht, folders', hfolders', folder, hfolder, apps', happs', ha⟩
    obtain rfl : folders = folders' := Except.ok.inj (hfolders.symm.trans hfolders')
    obtain ⟨found, hfound⟩ := exists_collect_iff.mp ⟨apps, h⟩ folder hfolder
    exact ⟨folder, hfolder, found, hfound, (mem_collect hfound a).mpr ⟨t, ht, apps', happs', ha⟩⟩

/-- Apps of equal rank that are found in some folders are the same. -/
theorem same_of_mem_collect {paths : List Path} {found : List App} {a b : App}
    (hfound : collect (appsIn q) paths = .ok found) (ha : a ∈ found) (hb : b ∈ found)
    (h : a.order b = .eq) : a.same b = true := by
  obtain ⟨p, -, apps, happs, ha⟩ := (mem_collect hfound a).mp ha
  obtain ⟨p', -, apps', happs', hb⟩ := (mem_collect hfound b).mp hb
  obtain ⟨t, -, ha⟩ := (mem_appsIn happs a).mp ha
  obtain ⟨t', -, hb⟩ := (mem_appsIn happs' b).mp hb
  exact same_of_finds ha hb h

end

section

variable {d : Disk} {s : Settings} {m : Manifest} {env : Environment} {gate : Gate}
  {apps : List App}

/-- What a search goes by, given its gate. -/
def queryOf (d : Disk) (s : Settings) (m : Manifest) (env : Environment) (gate : Gate) : Query :=
  ⟨d, s, m, gate, env.overrideDefaults (defaultTargets s env)⟩

/-- The search in a folder depends neither on the other folders nor on the target of the
settings. -/
theorem searches_with_iff {p : Path} {ts : List String} (paths : List Path) (target : String) :
    Searches (queryOf d { s with paths, target } m env gate) p ts ↔
      Searches (queryOf d s m env gate) p ts :=
  searches_congr (funext (appFolders_eq rfl rfl)) rfl

theorem finds_with_iff {p : Path} {t : String} {a : App} (paths : List Path) (target : String) :
    Finds (queryOf d { s with paths, target } m env gate) p t a ↔
      Finds (queryOf d s m env gate) p t a :=
  finds_congr (funext (appFolders_eq rfl rfl)) rfl

theorem findApps_eq (d : Disk) (s : Settings) (m : Manifest) (env : Environment) :
    findApps d s m env = gateOf d s m >>= fun gate =>
      (collect (appsIn (queryOf d s m env gate)) s.paths).map fun found =>
        App.dropRepeats (App.sorted found) := by
  simp only [collect, map_bind]
  rfl

theorem findApps_eq_ok_iff : findApps d s m env = .ok apps ↔
    ∃ gate found, gateOf d s m = .ok gate ∧
      collect (appsIn (queryOf d s m env gate)) s.paths = .ok found ∧
      App.dropRepeats (App.sorted found) = apps := by
  constructor
  · intro h
    obtain ⟨gate, hgate, h⟩ := bind_eq_ok_iff.mp h
    obtain ⟨parts, hparts, h⟩ := bind_eq_ok_iff.mp h
    exact ⟨gate, parts.flatten, hgate, bind_eq_ok_iff.mpr ⟨parts, hparts, rfl⟩, Except.ok.inj h⟩
  · rintro ⟨gate, found, hgate, hfound, rfl⟩
    obtain ⟨parts, hparts, hfound⟩ := bind_eq_ok_iff.mp hfound
    rw [← Except.ok.inj hfound]
    exact bind_eq_ok_iff.mpr ⟨gate, hgate, bind_eq_ok_iff.mpr ⟨parts, hparts, rfl⟩⟩

/-- A search has an answer if its options go together and the search in each folder has one. -/
theorem exists_findApps_iff : (∃ apps, findApps d s m env = .ok apps) ↔
    ∃ gate, gateOf d s m = .ok gate ∧
      ∀ p ∈ s.paths, Searches (queryOf d s m env gate) p (targets s env) := by
  constructor
  · rintro ⟨apps, h⟩
    obtain ⟨gate, found, hgate, hfound, -⟩ := findApps_eq_ok_iff.mp h
    exact ⟨gate, hgate, fun p hp =>
      exists_appsIn_iff.mp (exists_collect_iff.mp ⟨found, hfound⟩ p hp)⟩
  · rintro ⟨gate, hgate, hsearches⟩
    obtain ⟨found, hfound⟩ := exists_collect_iff.mpr fun p hp =>
      exists_appsIn_iff.mpr (hsearches p hp)
    exact ⟨_, findApps_eq_ok_iff.mpr ⟨gate, found, hgate, hfound, rfl⟩⟩

/-- Whether a search in a folder comes to an app with a target and a configuration. -/
structure Visits (q : Query) (p folder : Path) (t : String) (config : Config) : Prop where
  exists_folder : ∃ folders, appFolders q.disk q.settings p = .ok folders ∧ folder ∈ folders
  exists_config : ∃ found,
    configs q.disk (q.settings.configRules.map ConfigRule.read) folder t = .ok found ∧
      config ∈ found

/-- A search that has an answer has one for each app that it comes to. -/
theorem exists_appFor_of_findApps {p folder : Path} {t : String} {config : Config}
    (h : findApps d s m env = .ok apps) (hgate : gateOf d s m = .ok gate) (hp : p ∈ s.paths)
    (ht : t ∈ targets s env) (hvisits : Visits (queryOf d s m env gate) p folder t config) :
    ∃ a, appFor (queryOf d s m env gate) (m.governingRule (d.absolute folder)) folder t config =
      .ok a := by
  obtain ⟨gate', hgate', hsearches⟩ := exists_findApps_iff.mp ⟨apps, h⟩
  obtain rfl : gate = gate' := Except.ok.inj (hgate.symm.trans hgate')
  obtain ⟨⟨folders, hfolders, hfolder⟩, found, hfound, hconfig⟩ := hvisits
  obtain ⟨folders', hfolders', happs⟩ := hsearches p hp
  obtain rfl : folders = folders' := Except.ok.inj (hfolders.symm.trans hfolders')
  obtain ⟨apps', happs'⟩ := happs folder hfolder t ht
  rw [appsFor_eq] at happs'
  obtain ⟨found', hfound', happs'⟩ := bind_eq_ok_iff.mp happs'
  obtain rfl : found = found' := Except.ok.inj (hfound.symm.trans hfound')
  obtain ⟨results, hresults, -⟩ := bind_eq_ok_iff.mp happs'
  exact exists_mapM_eq_ok_iff.mp ⟨results, mapError_eq_ok_iff.mp hresults⟩ config hconfig

/-- A search in one folder that is an app, for one target and in one configuration, finds what there
is to say about this app. -/
theorem findApps_of_appFor {p : Path} {t : String} {config : Config} {a : App}
    (hgate : gateOf d s m = .ok gate) (hpaths : s.paths = [p]) (htargets : targets s env = [t])
    (hfolders : appFolders d s p = .ok [p])
    (hconfigs : configs d (s.configRules.map ConfigRule.read) p t = .ok [config])
    (hfor : appFor (queryOf d s m env gate) (m.governingRule (d.absolute p)) p t config =
      .ok (some a)) (hkeeps : keeps s a = true) : findApps d s m env = .ok [a] := by
  have hfound : appsFor (queryOf d s m env gate) p t = .ok [a] := by
    rw [appsFor_eq]
    refine bind_eq_ok_iff.mpr ⟨[config], hconfigs, bind_eq_ok_iff.mpr
      ⟨[some a], mapError_eq_ok_iff.mpr (mapM_cons_eq_ok_iff.mpr ⟨_, [], hfor, rfl, rfl⟩), ?_⟩⟩
    exact congrArg Except.ok (List.filter_cons_of_pos hkeeps)
  have hin : appsIn (queryOf d s m env gate) p = .ok [a] := by
    have htargets' : targets (queryOf d s m env gate).settings (queryOf d s m env gate).env =
      [t] := htargets
    rw [appsIn_eq, htargets']
    exact bind_eq_ok_iff.mpr ⟨[p], hfolders, collect_singleton (collect_singleton hfound)⟩
  refine findApps_eq_ok_iff.mpr ⟨gate, [a], hgate, hpaths ▸ collect_singleton hin, ?_⟩
  rw [App.sorted, List.mergeSort_singleton]
  rfl

/-- Apps in strict order that are, up to the writing of paths, what is found in some folders for
some targets. -/
structure IsUnion (q : Query) (paths : List Path) (ts : List String) (apps : List App) : Prop where
  isRising : App.IsRising apps
  sound : ∀ a ∈ apps, ∃ p ∈ paths, ∃ t ∈ ts, Finds q p t a
  complete : ∀ p ∈ paths, ∀ t ∈ ts, ∀ a, Finds q p t a → ∃ b ∈ apps, a.same b = true

theorem isUnion_of_findApps (hgate : gateOf d s m = .ok gate)
    (h : findApps d s m env = .ok apps) :
    IsUnion (queryOf d s m env gate) s.paths (targets s env) apps := by
  obtain ⟨gate', found, hgate', hfound, rfl⟩ := findApps_eq_ok_iff.mp h
  obtain rfl : gate = gate' := Except.ok.inj (hgate.symm.trans hgate')
  have hmem : ∀ a, a ∈ found ↔ ∃ p ∈ s.paths, ∃ t ∈ targets s env,
      Finds (queryOf d s m env gate) p t a := by
    intro a
    rw [mem_collect hfound]
    constructor
    · rintro ⟨p, hp, apps, happs, ha⟩
      exact ⟨p, hp, (mem_appsIn happs a).mp ha⟩
    · rintro ⟨p, hp, hfinds⟩
      obtain ⟨apps, happs⟩ := exists_collect_iff.mp ⟨found, hfound⟩ p hp
      exact ⟨p, hp, apps, happs, (mem_appsIn happs a).mpr hfinds⟩
  refine ⟨App.isRising_dropRepeats_sorted fun a ha b hb => ?_, fun a ha => ?_,
    fun p hp t ht a ha => ?_⟩
  · exact same_of_mem_collect hfound ha hb
  · exact (hmem a).mp (App.mem_sorted_iff.mp (App.mem_of_mem_dropRepeats ha))
  · exact App.exists_same_mem_dropRepeats
      (App.mem_sorted_iff.mpr ((hmem a).mpr ⟨p, hp, t, ht, ha⟩))

end

end BuildMatrix.Discovery
