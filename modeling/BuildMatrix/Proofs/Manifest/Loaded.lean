import BuildMatrix.Manifest.Basic
import BuildMatrix.Proofs.Outcome
import BuildMatrix.Proofs.Path.Order

/-!
# What holds of a manifest that is read from files

The root and the folders of such a manifest are normal paths, and its rules rise strictly in the
order of their folders.

* `Manifest.IsSound`: the three facts.
* `Manifest.isSound_of_load`: they hold of every manifest that is read, strictly or not.
* `Manifest.ruleAt?_eq_some_iff`: in such a manifest the rule of a folder is the one member with
  this folder.
-/

namespace BuildMatrix

theorem Disk.isAbsolute_cwdPath (d : Disk) : d.cwdPath.isAbsolute = true := by
  simp [Path.isAbsolute, cwdPath, pathOf]

theorem Disk.isNormal_absolute (d : Disk) (p : Path) : (d.absolute p).IsNormal :=
  Path.isNormal_absolutize p d.isAbsolute_cwdPath

theorem Disk.absolute_eq_of_components_eq (d : Disk) {p q : Path}
    (h : p.components = q.components) : d.absolute p = d.absolute q :=
  Path.absolutize_congr rfl h

theorem Rule.folder_of_readEntries {folder file : Path} {es : Entries} {r : Rule}
    (h : readEntries folder file es = .ok r) : r.folder = folder := by
  unfold readEntries at h
  split at h
  · exact absurd h nofun
  · obtain ⟨enable, -, h⟩ := bind_eq_ok_iff.mp h
    obtain ⟨disable, -, h⟩ := bind_eq_ok_iff.mp h
    obtain ⟨disableTest, -, h⟩ := bind_eq_ok_iff.mp h
    obtain ⟨components, -, h⟩ := bind_eq_ok_iff.mp h
    obtain ⟨filePatterns, -, h⟩ := bind_eq_ok_iff.mp h
    rw [← Except.ok.inj h]

theorem Rule.folder_of_ofYaml {folder file : Path} {es : Option Entries} {r : Rule}
    (h : ofYaml folder es file = .ok r) : r.folder = folder :=
  folder_of_readEntries (mapError_eq_ok_iff.mp h)

namespace Manifest

/-- What holds of every manifest that is read from files. -/
structure IsSound (m : Manifest) : Prop where
  isNormal_root : m.root.IsNormal
  isNormal_folder : ∀ r ∈ m.rules, r.folder.IsNormal
  isRising : Path.IsRising Rule.folder m.rules

/-! ## Reading -/

theorem IsSound.insertNew {r : Rule} {rules : List Rule} {root : Path}
    (h : IsSound ⟨rules, root⟩) (hr : r.folder.IsNormal) :
    IsSound ⟨Path.insertNew Rule.folder r rules, root⟩ where
  isNormal_root := h.isNormal_root
  isNormal_folder s hs := by
    rcases Path.mem_insertNew hs with rfl | hs
    · exact hr
    · exact h.isNormal_folder s hs
  isRising := Path.isRising_insertNew r h.isRising

theorem isNormal_of_readFolders {d : Disk} {file root : Path} (hroot : root.isAbsolute = true)
    {strict : Bool} {es : Entries} {rules rs : List Rule}
    (hrules : ∀ r ∈ rules, r.folder.IsNormal)
    (h : readFolders d file root strict rules es = .ok rs) : ∀ r ∈ rs, r.folder.IsNormal := by
  induction es generalizing rules with
  | nil =>
    rw [readFolders, Except.ok.injEq] at h
    exact h ▸ hrules
  | cons e es ih =>
    obtain ⟨key, value⟩ := e
    rw [readFolders] at h
    split at h
    · exact ih hrules h
    · next name _ =>
      have hfolder := Path.isNormal_absolutize ⟨name⟩ hroot
      dsimp only at h
      split at h
      · exact absurd h (by simp)
      · split at h
        · split at h
          · exact absurd h (by simp)
          · exact ih hrules h
        · split at h
          · exact absurd h (by simp)
          · next r hr =>
            refine ih (fun s hs => ?_) h
            rcases List.mem_append.mp hs with hs | hs
            · exact hrules s hs
            · rw [List.mem_singleton.mp hs, Rule.folder_of_ofYaml hr]
              exact hfolder

theorem isNormal_of_readFile {d : Disk} {file root : Path} (hroot : root.isAbsolute = true)
    {strict : Bool} {rs : List Rule} (h : readFile d file root strict = .ok rs) :
    ∀ r ∈ rs, r.folder.IsNormal := by
  rw [readFile] at h
  split at h
  · exact absurd h (by simp)
  · split at h
    · exact absurd h (by simp)
    · exact isNormal_of_readFolders hroot (by simp) h

/-- Adding the rules of a file keeps the folders normal and the rules in order. -/
theorem isSound_of_addRules {root file : Path} {strict : Bool} {rs rules new : List Rule}
    (hnew : ∀ r ∈ new, r.folder.IsNormal) (hrules : IsSound ⟨rules, root⟩)
    (h : addRules file strict rules new = .ok rs) : IsSound ⟨rs, root⟩ := by
  induction new generalizing rules with
  | nil =>
    rw [addRules, Except.ok.injEq] at h
    exact h ▸ hrules
  | cons r new ih =>
    have htail : ∀ s ∈ new, s.folder.IsNormal := fun s hs => hnew s (List.mem_cons_of_mem _ hs)
    rw [addRules] at h
    split at h
    · split at h
      · exact absurd h (by simp)
      · exact ih htail hrules h
    · exact ih htail (hrules.insertNew (hnew r List.mem_cons_self)) h

theorem isSound_of_readFiles {d : Disk} {root : Path} {strict : Bool} {files : List Path}
    {rs rules : List Rule} (hrules : IsSound ⟨rules, root⟩)
    (h : readFiles d root strict rules files = .ok rs) : IsSound ⟨rs, root⟩ := by
  induction files generalizing rules with
  | nil =>
    rw [readFiles, Except.ok.injEq] at h
    exact h ▸ hrules
  | cons file files ih =>
    rw [readFiles] at h
    split at h
    · exact absurd h (by simp)
    · next new hnew =>
      split at h
      · exact absurd h (by simp)
      · next hadd =>
        have habs := hrules.isNormal_root.isAbsolute
        exact ih (isSound_of_addRules (isNormal_of_readFile habs hnew) hrules hadd) h

/-- **Sound manifests.** A manifest that is read from files has a normal root and normal folders,
and its rules are in order, one for each folder. -/
theorem isSound_of_load {d : Disk} {files : List Path} {root : Path} {strict : Bool}
    {m : Manifest} (h : load d files root strict = .ok m) : m.IsSound := by
  rw [load, map_eq_ok_iff] at h
  obtain ⟨rules, hread, rfl⟩ := h
  refine isSound_of_readFiles ⟨d.isNormal_absolute root, ?_, List.Pairwise.nil⟩ hread
  exact fun r hr => absurd hr (by simp)

/-! ## Looking up -/

variable {m : Manifest} {r : Rule}

theorem components_of_ruleAt? {folder : List Component} (h : m.ruleAt? folder = some r) :
    r.folder.components = folder := by
  simpa using List.find?_some h

theorem mem_of_ruleAt? {folder : List Component} (h : m.ruleAt? folder = some r) :
    r ∈ m.rules :=
  List.mem_of_find?_eq_some h

/-- The rule of a folder is the member with this folder. -/
theorem ruleAt?_eq_some_iff (hm : m.IsSound) {folder : List Component} :
    m.ruleAt? folder = some r ↔ r ∈ m.rules ∧ r.folder.components = folder := by
  constructor
  · exact fun h => ⟨mem_of_ruleAt? h, components_of_ruleAt? h⟩
  · rintro ⟨hr, rfl⟩
    cases hs : m.ruleAt? r.folder.components with
    | none => exact absurd (List.find?_eq_none.mp hs r hr) (by simp)
    | some s =>
      rw [hm.isRising.eq_of_components_eq (mem_of_ruleAt? hs) hr (components_of_ruleAt? hs)]

theorem ruleAt?_eq_none_iff {folder : List Component} :
    m.ruleAt? folder = none ↔ ∀ r ∈ m.rules, r.folder.components ≠ folder := by
  simp [ruleAt?, List.find?_eq_none]

end Manifest

end BuildMatrix
