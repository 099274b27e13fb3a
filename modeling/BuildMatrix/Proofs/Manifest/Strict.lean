import BuildMatrix.Proofs.Manifest.Declared
import Mathlib.Data.List.Find

/-!
# Strict and lenient reading

A strict reader stops at a folder that does not exist and at the second declaration of a folder, in
other respects it does what a lenient one does. So it reads the same manifest, or none.

* `Manifest.IsFresh`: the folders of a list are different from each other and from those before.
* `Manifest.reads_strict_iff`, `Manifest.addRules_strict_iff`: what a strict reader asks of the
  declarations of one file, and of its rules after those of the files before.
* `Manifest.readFiles_strict_iff`: what it asks of all files.
* `Manifest.load_strict_iff`: which manifests a strict reader reads, and which rules a lenient one
  reads.
-/

namespace BuildMatrix

namespace Manifest

variable {α : Type} {d : Disk} {file root : Path} {r : Rule} {rules new rs : List Rule}
  {ds es : List Declaration} {x : Declaration}

/-! ## Fresh folders -/

/-- Whether the paths of entries are different, and none of them is taken. -/
structure IsFresh (taken : Path → Prop) (key : α → Path) (l : List α) : Prop where
  distinct : Distinct key l
  not_taken : ∀ a ∈ l, ¬ taken (key a)

theorem isFresh_cons_iff {taken : Path → Prop} {key : α → Path} {a : α} {l : List α} :
    IsFresh taken key (a :: l) ↔ ¬ taken (key a) ∧
      IsFresh (fun p => (key a).components = p.components ∨ taken p) key l := by
  constructor
  · rintro ⟨hdistinct, hfresh⟩
    obtain ⟨ha, hl⟩ := List.pairwise_cons.mp hdistinct
    obtain ⟨hfirst, hrest⟩ := List.forall_mem_cons.mp hfresh
    exact ⟨hfirst, hl, fun b hb hor => hor.elim (ha b hb) (hrest b hb)⟩
  · rintro ⟨hfirst, hl, hrest⟩
    refine ⟨List.pairwise_cons.mpr ⟨fun b hb h => hrest b hb (Or.inl h), hl⟩, ?_⟩
    exact List.forall_mem_cons.mpr ⟨hfirst, fun b hb h => hrest b hb (Or.inr h)⟩

theorem isFresh_nil {taken : Path → Prop} {key : α → Path} : IsFresh taken key [] :=
  ⟨List.Pairwise.nil, nofun⟩

theorem isFresh_append_iff {taken : Path → Prop} {key : α → Path} {l m : List α} :
    IsFresh taken key (l ++ m) ↔ IsFresh taken key l ∧
      IsFresh (fun p => Occurs key l p ∨ taken p) key m := by
  induction l generalizing taken with
  | nil => simp [Occurs, isFresh_nil]
  | cons a l ih =>
    rw [List.cons_append, isFresh_cons_iff, isFresh_cons_iff, ih, and_assoc]
    simp only [occurs_cons, or_left_comm, or_assoc]

/-! ## Reading strictly -/

/-- What a strict reader reads of a file after some rules. -/
theorem reads_strict_iff : Reads d true rules es rs ↔ Reads d false rules es rs ∧
    (∀ x ∈ es, d.pathExists x.folder = true) ∧
      IsFresh (Occurs Rule.folder rules) Declaration.folder es := by
  induction es generalizing rules with
  | nil =>
    refine ⟨fun h => ⟨?_, by simp, isFresh_nil⟩, fun h => ?_⟩
    · cases h
      exact .done
    · cases h.1
      exact .done
  | cons x es ih =>
    -- For the declarations behind it a rule that is read takes its folder.
    have htaken : ∀ {r}, x.rule = .ok r → Occurs Rule.folder (rules ++ [r]) =
        fun p => x.folder.components = p.components ∨ Occurs Rule.folder rules p := by
      intro r hrule
      funext p
      rw [← Declaration.folder_of_rule hrule, occurs_append, or_comm]
      simp [Occurs]
    rw [reads_cons_iff, reads_cons_iff, isFresh_cons_iff, List.forall_mem_cons]
    constructor
    · rintro (⟨hstrict, -⟩ | ⟨hexists, hnew, r, hrule, hreads⟩)
      · exact absurd hstrict (by simp)
      · obtain ⟨hreads, hrest, hfresh⟩ := ih.mp hreads
        exact ⟨Or.inr ⟨by simp, hnew, r, hrule, hreads⟩, ⟨hexists rfl, hrest⟩, hnew,
          htaken hrule ▸ hfresh⟩
    · rintro ⟨⟨-, hoccurs, -⟩ | ⟨-, -, r, hrule, hreads⟩, ⟨hexists, hrest⟩, hnew, hfresh⟩
      · exact absurd hoccurs hnew
      · exact Or.inr ⟨fun _ => hexists, hnew, r, hrule,
          ih.mpr ⟨hreads, hrest, (htaken hrule).symm ▸ hfresh⟩⟩

/-- What a strict reader adds to some rules. -/
theorem addRules_strict_iff : addRules file true rules new = .ok rs ↔
    addRules file false rules new = .ok rs ∧
      IsFresh (Occurs Rule.folder rules) Rule.folder new := by
  induction new generalizing rules with
  | nil => exact (and_iff_left isFresh_nil).symm
  | cons r new ih =>
    rw [addRules_cons_eq_ok_iff, addRules_cons_eq_ok_iff, isFresh_cons_iff]
    by_cases hoccurs : Occurs Rule.folder rules r.folder
    · simp [hoccurs]
    · have htaken : Occurs Rule.folder (Path.insertNew Rule.folder r rules) =
          fun p => r.folder.components = p.components ∨ Occurs Rule.folder rules p :=
        funext fun p => propext (occurs_insertNew_iff hoccurs)
      simp [hoccurs, ih, htaken]

/-- The rules of a file are fresh after those of the files before exactly if its declarations are
after the declarations of the files before. -/
theorem isFresh_declared_iff (hrules : Carries ds rules) (hreads : Reads d strict [] es new) :
    IsFresh (Occurs Declaration.folder ds) Declaration.folder es ↔
      Distinct Declaration.folder es ∧ IsFresh (Occurs Rule.folder rules) Rule.folder new := by
  have hnew : Carries es new := hreads.carries carries_nil
  have htaken : Occurs Rule.folder rules = Occurs Declaration.folder ds :=
    funext fun p => propext hrules.occurs_iff
  rw [htaken]
  constructor
  · rintro ⟨hdistinct, hfresh⟩
    refine ⟨hdistinct, hreads.distinct List.Pairwise.nil, fun r hr => ?_⟩
    obtain ⟨x, hx, hrule⟩ := hnew.exists_first r hr
    rw [Declaration.folder_of_rule hrule]
    exact hfresh x hx.mem
  · rintro ⟨hdistinct, -, hfresh⟩
    refine ⟨hdistinct, fun x hx hoccurs => ?_⟩
    obtain ⟨y, hy, hyx⟩ := exists_isFirst hx
    obtain ⟨r, hr, hrule⟩ := hnew.exists_rule y hy
    refine hfresh r hr ?_
    rw [Declaration.folder_of_rule hrule, Occurs, hyx]
    exact hoccurs

/-- A strict reader reads files exactly if another one does, all declared folders exist, and none is
declared twice. -/
theorem readFiles_strict_iff {files : List Path} (hrules : Carries ds rules) :
    readFiles d root true rules files = .ok rs ↔ readFiles d root false rules files = .ok rs ∧
      ∃ rest, declarations d root files = .ok rest ∧
        (∀ x ∈ rest, d.pathExists x.folder = true) ∧
        IsFresh (Occurs Declaration.folder ds) Declaration.folder rest := by
  -- Along the files the rules so far carry the declarations so far, so that a folder is taken by a
  -- rule exactly if it is declared before.
  induction files generalizing ds rules with
  | nil => exact (and_iff_left ⟨[], rfl, nofun, isFresh_nil⟩).symm
  | cons file files ih =>
    have htaken : ∀ es : List Declaration, Occurs Declaration.folder (ds ++ es) =
        fun p => Occurs Declaration.folder es p ∨ Occurs Declaration.folder ds p :=
      fun es => funext fun p => propext (occurs_append.trans or_comm)
    rw [readFiles_cons_eq_ok_iff, readFiles_cons_eq_ok_iff]
    constructor
    · rintro ⟨es, new, merged, hdoc, hreads, hadd, h⟩
      obtain ⟨hreads, hexists, hdistinct, -⟩ := reads_strict_iff.mp hreads
      obtain ⟨hadd, hfresh⟩ := addRules_strict_iff.mp hadd
      obtain ⟨h, rest, hrest, hexists', hfresh'⟩ :=
        (ih (carries_of_addRules hrules hreads hadd)).mp h
      refine ⟨⟨es, new, merged, hdoc, hreads, hadd, h⟩, _,
        declarations_cons_eq_ok_iff.mpr ⟨es, rest, hdoc, hrest, rfl⟩,
        List.forall_mem_append.mpr ⟨hexists, hexists'⟩, isFresh_append_iff.mpr ⟨?_, ?_⟩⟩
      · exact (isFresh_declared_iff hrules hreads).mpr ⟨hdistinct, hfresh⟩
      · exact htaken _ ▸ hfresh'
    · rintro ⟨⟨es, new, merged, hdoc, hreads, hadd, h⟩, _, hdeclarations, hexists, hfresh⟩
      obtain ⟨es', rest, hdoc', hrest, rfl⟩ := declarations_cons_eq_ok_iff.mp hdeclarations
      obtain rfl := Except.ok.inj (hdoc.symm.trans hdoc')
      obtain ⟨hexists, hexists'⟩ := List.forall_mem_append.mp hexists
      obtain ⟨hfresh, hfresh'⟩ := isFresh_append_iff.mp hfresh
      obtain ⟨hdistinct, hfresh⟩ := (isFresh_declared_iff hrules hreads).mp hfresh
      refine ⟨es, new, merged, hdoc, reads_strict_iff.mpr ⟨hreads, hexists, hdistinct, ?_⟩,
        addRules_strict_iff.mpr ⟨hadd, hfresh⟩,
        (ih (carries_of_addRules hrules hreads hadd)).mpr ⟨h, rest, hrest, hexists', ?_⟩⟩
      · exact fun x _ h => absurd h.choose_spec.1 nofun
      · exact (htaken _).symm ▸ hfresh'

/-! ## Manifests -/

variable {m : Manifest}

theorem isNormal_of_mem_declared (hroot : root.isAbsolute = true) {es : Entries}
    (h : x ∈ declared file root es) : x.folder.IsNormal := by
  obtain ⟨e, -, he⟩ := List.mem_filterMap.mp h
  obtain ⟨name, -, rfl⟩ := Option.map_eq_some_iff.mp he
  exact Path.isNormal_absolutize ⟨name⟩ hroot

theorem isNormal_of_mem_declarations (hroot : root.isAbsolute = true) {files : List Path}
    (h : declarations d root files = .ok ds) (hx : x ∈ ds) : x.folder.IsNormal := by
  induction files generalizing ds with
  | nil =>
    rw [← Except.ok.inj h] at hx
    exact absurd hx nofun
  | cons file files ih =>
    obtain ⟨es, rest, -, hrest, rfl⟩ := declarations_cons_eq_ok_iff.mp h
    rcases List.mem_append.mp hx with hx | hx
    · exact isNormal_of_mem_declared hroot hx
    · exact ih hrest hx

/-- Normal folders are different exactly if their components are. -/
theorem distinct_iff_nodup (h : ∀ x ∈ ds, x.folder.IsNormal) :
    Distinct Declaration.folder ds ↔ (ds.map Declaration.folder).Nodup := by
  rw [Distinct, List.nodup_iff_pairwise_ne, List.pairwise_map]
  refine List.Pairwise.iff_of_mem fun {x y} hx hy => not_congr ?_
  exact ⟨fun hxy => (h x hx).ext (h y hy) hxy, fun hxy => by rw [hxy]⟩

theorem find?_folder_eq (h : ∀ x ∈ ds, x.folder.IsNormal) (hx : x ∈ ds) :
    ds.find? (fun y => y.folder == x.folder) = ds.find? fun y => y.folder.same x.folder := by
  refine List.find?_congr fun y hy => ?_
  rw [Bool.eq_iff_iff, beq_iff_eq, (h y hy).same_iff (h x hx)]

/-- A folder with a rule has no other one. -/
theorem filter_folder_eq (hm : m.IsSound) (hr : r ∈ m.rules) :
    m.rules.filter (fun s => s.folder == r.folder) = [r] := by
  obtain ⟨before, after, hsplit⟩ := List.append_of_mem hr
  have hrising := hm.isRising
  rw [hsplit] at hrising ⊢
  obtain ⟨-, hafter, hbefore⟩ := List.pairwise_append.mp hrising
  have hother : ∀ {s : Rule}, s.folder.components ≠ r.folder.components →
      ¬ (s.folder == r.folder) = true := fun hne heq => hne (by rw [beq_iff_eq.mp heq])
  have hnone : before.filter (fun s => s.folder == r.folder) = [] :=
    List.filter_eq_nil_iff.mpr fun s hs =>
      hother (Path.components_ne_of_order_lt (hbefore s hs r List.mem_cons_self))
  have hnone' : after.filter (fun s => s.folder == r.folder) = [] :=
    List.filter_eq_nil_iff.mpr fun s hs =>
      hother (Path.components_ne_of_order_lt ((List.pairwise_cons.mp hafter).1 s hs)).symm
  rw [List.filter_append, hnone, List.nil_append, List.filter_cons, hnone',
    if_pos (beq_self_eq_true r.folder)]

/-- **Strict and lenient reading.** A strict reader reads a manifest exactly if a lenient one reads
the same, all declared folders exist, and no folder is declared twice. A lenient one reads one rule
for each declared folder, that of its first declaration, and no others. -/
theorem load_strict_iff (d : Disk) (files : List Path) (root : Path) (m : Manifest) :
    (load d files root true = .ok m ↔ load d files root false = .ok m ∧
      ∃ ds, declarations d (d.absolute root) files = .ok ds ∧
        (∀ x ∈ ds, d.pathExists x.folder = true) ∧ (ds.map Declaration.folder).Nodup) ∧
    (load d files root false = .ok m →
      ∃ ds, declarations d (d.absolute root) files = .ok ds ∧
        (∀ x ∈ ds, ∃ first r, ds.find? (fun y => y.folder == x.folder) = some first ∧
          first.rule = .ok r ∧ m.rules.filter (fun s => s.folder == x.folder) = [r]) ∧
        ∀ r ∈ m.rules, ∃ x ∈ ds, x.folder = r.folder) := by
  have hroot := (d.isNormal_absolute root).isAbsolute
  constructor
  · have hfresh : ∀ ds, declarations d (d.absolute root) files = .ok ds →
        (IsFresh (Occurs Declaration.folder []) Declaration.folder ds ↔
          (ds.map Declaration.folder).Nodup) := by
      intro ds hds
      rw [← distinct_iff_nodup fun x hx => isNormal_of_mem_declarations hroot hds hx]
      exact ⟨IsFresh.distinct, fun h => ⟨h, fun x _ hx => absurd hx.choose_spec.1 nofun⟩⟩
    simp only [load, map_eq_ok_iff, readFiles_strict_iff carries_nil]
    constructor
    · rintro ⟨rules, ⟨hread, ds, hds, hexists, h⟩, rfl⟩
      exact ⟨⟨rules, hread, rfl⟩, ds, hds, hexists, (hfresh ds hds).mp h⟩
    · rintro ⟨⟨rules, hread, rfl⟩, ds, hds, hexists, h⟩
      exact ⟨rules, ⟨hread, ds, hds, hexists, (hfresh ds hds).mpr h⟩, rfl⟩
  · intro h
    have hm := isSound_of_load h
    obtain ⟨rules, hread, rfl⟩ := map_eq_ok_iff.mp h
    obtain ⟨ds, hds, hcarries⟩ := carries_of_readFiles carries_nil hread
    rw [List.nil_append] at hcarries
    have hnormal : ∀ x ∈ ds, x.folder.IsNormal := fun x => isNormal_of_mem_declarations hroot hds
    refine ⟨ds, hds, fun x hx => ?_, fun r hr => ?_⟩
    · obtain ⟨first, hfirst, hfolder⟩ := exists_isFirst hx
      obtain ⟨r, hr, hrule⟩ := hcarries.exists_rule first hfirst
      have hfolder : first.folder = x.folder :=
        (hnormal _ hfirst.mem).ext (hnormal x hx) hfolder
      refine ⟨first, r, ?_, hrule, ?_⟩
      · rw [find?_folder_eq hnormal hx, ← hfolder]
        exact hfirst
      · rw [← hfolder, ← Declaration.folder_of_rule hrule]
        exact filter_folder_eq hm hr
    · obtain ⟨x, hx, hrule⟩ := hcarries.exists_first r hr
      exact ⟨x, hx.mem, (Declaration.folder_of_rule hrule).symm⟩

/-- Manifest files that declare one folder several times, in different spellings, and another one
that does not exist. -/
def declaredDisk : Disk where
  tree := .folder [("w", .folder [
    ("apps", .folder []),
    ("one.yml", .file (.text "apps:\n")),
    ("first.yml", .file (.text "apps:\n  depends_components: [soc]\napps/:\n")),
    ("second.yml", .file (.text "lib/../apps:\n  depends_components: [bt]\nlib:\n"))])]
  cwd := ["w"]

/-- A rule of a sample file. -/
def declaredRule (file folder : String) (components : List String) : Rule where
  folder := ⟨folder⟩
  components := .flat components
  filePatterns := .flat []
  file := some ⟨file⟩

/-- The first rules of the folders. -/
def declaredManifest : Manifest where
  rules := [declaredRule "first.yml" "/w/apps" ["soc"], declaredRule "second.yml" "/w/lib" []]
  root := ⟨"/w"⟩

/-- The folders that sample files declare. -/
def declaredFolders (files : List Path) : Except ManifestError (List Path) :=
  (declarations declaredDisk (declaredDisk.absolute ⟨"."⟩) files).map (List.map Declaration.folder)

/-- In the sample the first declaration of a folder counts, and a strict reader refuses the files.
It reads one in which there is nothing to refuse. -/
theorem load_strict_iff_sample :
    load declaredDisk [⟨"first.yml"⟩, ⟨"second.yml"⟩] ⟨"."⟩ false = .ok declaredManifest ∧
      load declaredDisk [⟨"first.yml"⟩, ⟨"second.yml"⟩] ⟨"."⟩ true ≠ .ok declaredManifest ∧
      declaredManifest.rules.filter (fun s => s.folder == ⟨"/w/apps"⟩) =
        [declaredRule "first.yml" "/w/apps" ["soc"]] ∧
      load declaredDisk [⟨"one.yml"⟩] ⟨"."⟩ true =
        .ok ⟨[declaredRule "one.yml" "/w/apps" []], ⟨"/w"⟩⟩ := by
  have hload : load declaredDisk [⟨"first.yml"⟩, ⟨"second.yml"⟩] ⟨"."⟩ false =
      .ok declaredManifest := eq_ok_of_toOption (by decide +kernel)
  have hfolders : declaredFolders [⟨"first.yml"⟩, ⟨"second.yml"⟩] =
      .ok [⟨"/w/apps"⟩, ⟨"/w/apps"⟩, ⟨"/w/apps"⟩, ⟨"/w/lib"⟩] :=
    eq_ok_of_toOption (by decide +kernel)
  have hone : declaredFolders [⟨"one.yml"⟩] = .ok [⟨"/w/apps"⟩] :=
    eq_ok_of_toOption (by decide +kernel)
  obtain ⟨hstrict, hlenient⟩ :=
    load_strict_iff declaredDisk [⟨"first.yml"⟩, ⟨"second.yml"⟩] ⟨"."⟩ declaredManifest
  refine ⟨hload, fun h => ?_, ?_, (load_strict_iff _ _ _ _).1.mpr ⟨?_, ?_⟩⟩
  · obtain ⟨-, ds, hds, -, hnodup⟩ := hstrict.mp h
    rw [declaredFolders, hds] at hfolders
    rw [Except.ok.inj hfolders] at hnodup
    exact absurd hnodup (by decide)
  · obtain ⟨ds, hds, hfirst, hall⟩ := hlenient hload
    obtain ⟨x, hx, hfolder⟩ := hall _ List.mem_cons_self
    obtain ⟨-, r, -, -, hr⟩ := hfirst x hx
    have hrule : declaredRule "first.yml" "/w/apps" ["soc"] ∈
        declaredManifest.rules.filter fun s => s.folder == x.folder :=
      List.mem_filter.mpr ⟨List.mem_cons_self, beq_iff_eq.mpr hfolder.symm⟩
    rw [hr, List.mem_singleton] at hrule
    rw [hrule, ← hr, hfolder]
    rfl
  · exact eq_ok_of_toOption (by decide +kernel)
  · obtain ⟨ds, hds, hmap⟩ := map_eq_ok_iff.mp hone
    refine ⟨ds, hds, fun x hx => ?_, by rw [hmap]; decide⟩
    have hfolder := List.mem_map_of_mem (f := Declaration.folder) hx
    rw [hmap, List.mem_singleton] at hfolder
    rw [hfolder]
    decide +kernel

end Manifest

end BuildMatrix
