import BuildMatrix.Proofs.Manifest.Governing
import Mathlib.Data.List.Induction

/-!
# The nearest rule governs

The folders in which the rule of a path is looked for are the ones that the path lies in, each
before the folders that it lies in itself. Where the path lies in the root, the folders above the
root are left out. So the rule that is found is the one of the deepest of these folders, and a
folder with which the path has only the beginning of a name in common is not among them.

* `Path.mem_ancestors_iff`, `Path.pairwise_ancestors`: the folders from a path up to the root of
  all.
* `Manifest.mem_searched_iff`, `Manifest.pairwise_searched`: the folders that are searched.
* `Manifest.Reaches`, `Manifest.IsNearest`: which rules come into question for a path, and which of
  them is the nearest.
* `Manifest.nearest_governs`: the nearest rule governs, or there is none and the rule that says
  nothing governs.
-/

namespace BuildMatrix

namespace Path

variable {steps f : List Component}

/-! ## Ancestors -/

theorem ancestors_concat (steps : List Component) (c : Component) :
    ancestors (.root :: (steps ++ [c])) =
      (.root :: (steps ++ [c])) :: ancestors (.root :: steps) := by
  rw [ancestors, ← List.cons_append, List.dropLast_concat]
  exact fun _ h => absurd h (by simp)

/-- The ancestors of an absolute path are what it begins with, apart from nothing at all. -/
theorem mem_ancestors_iff : f ∈ ancestors (.root :: steps) ↔ f ≠ [] ∧ f <+: .root :: steps := by
  induction steps using List.reverseRecOn with
  | nil =>
    rw [ancestors, List.mem_singleton, List.prefix_cons_iff]
    constructor
    · rintro rfl
      exact ⟨List.cons_ne_nil _ _, Or.inr ⟨[], rfl, List.nil_prefix⟩⟩
    · rintro ⟨hne, rfl | ⟨rest, rfl, hrest⟩⟩
      · exact absurd rfl hne
      · rw [List.prefix_nil.mp hrest]
  | append_singleton steps c ih =>
    rw [ancestors_concat, List.mem_cons, ih, ← List.cons_append, List.prefix_concat_iff]
    constructor
    · rintro (rfl | ⟨hne, hf⟩)
      · exact ⟨by simp, Or.inl rfl⟩
      · exact ⟨hne, Or.inr hf⟩
    · rintro ⟨hne, rfl | hf⟩
      · exact Or.inl rfl
      · exact Or.inr ⟨hne, hf⟩

/-- An ancestor comes before the ones that it begins with. -/
theorem pairwise_ancestors (steps : List Component) :
    (ancestors (.root :: steps)).Pairwise fun f g => g <+: f := by
  induction steps using List.reverseRecOn with
  | nil =>
    rw [ancestors]
    exact List.pairwise_singleton _ _
  | append_singleton steps c ih =>
    rw [ancestors_concat]
    refine List.pairwise_cons.mpr ⟨fun g hg => ?_, ih⟩
    exact (mem_ancestors_iff.mp hg).2.trans (List.prefix_append _ [c])

end Path

namespace Manifest

variable {m : Manifest} {r : Rule}

/-! ## The folders that are searched -/

theorem upTo_sublist (root : Path) (l : List (List Component)) : (upTo root l).Sublist l := by
  induction l with
  | nil => exact List.Sublist.refl []
  | cons folder folders ih =>
    rw [upTo]
    split
    · exact (List.nil_sublist folders).cons_cons folder
    · exact ih.cons_cons folder

/-- Of folders each of which lies in the ones after it, the ones up to the root are those that lie
in the root, and all of them where the root is not there. -/
theorem mem_upTo_iff {root : Path} {l : List (List Component)} {f : List Component}
    (hl : l.Pairwise fun f g => g <+: f) :
    f ∈ upTo root l ↔ f ∈ l ∧ (root.components ∈ l → root.components <+: f) := by
  induction l with
  | nil => simp [upTo]
  | cons folder folders ih =>
    obtain ⟨hfolder, hfolders⟩ := List.pairwise_cons.mp hl
    rw [upTo]
    split
    · next hroot =>
      subst hroot
      rw [List.mem_singleton, List.mem_cons]
      constructor
      · rintro rfl
        exact ⟨Or.inl rfl, fun _ => List.prefix_rfl⟩
      · rintro ⟨rfl | hf, hwithin⟩
        · rfl
        -- A folder around the root lies within it only if it is the root.
        · exact (hfolder f hf).eq_of_length_le (hwithin List.mem_cons_self).length_le
    · next hroot =>
      have hmem : root.components ∈ folder :: folders ↔ root.components ∈ folders := by
        rw [List.mem_cons]
        exact or_iff_right fun h => hroot h.symm
      rw [List.mem_cons, List.mem_cons, ih hfolders, hmem]
      constructor
      · rintro (rfl | ⟨hf, hwithin⟩)
        · exact ⟨Or.inl rfl, hfolder _⟩
        · exact ⟨Or.inr hf, hwithin⟩
      · rintro ⟨rfl | hf, hwithin⟩
        · exact Or.inl rfl
        · exact Or.inr ⟨hf, hwithin⟩

/-- The folders that are searched are those that the path lies in, where the path lies in the root
without the ones above the root. -/
theorem mem_searched_iff {root p : Path} {f : List Component} (hroot : root.IsNormal) :
    f ∈ searched root p ↔ f ≠ [] ∧ f <+: (p.absolutize root).components ∧
      ((p.absolutize root).isWithin root = true → root.components <+: f) := by
  have hp := Path.isNormal_absolutize p hroot.isAbsolute
  have hmem : ∀ g, g ∈ Path.ancestors (p.absolutize root).components ↔
      g ≠ [] ∧ g <+: (p.absolutize root).components := by
    rw [hp.components_eq]
    exact fun g => Path.mem_ancestors_iff
  have hne : root.components ≠ [] := by
    rw [hroot.components_eq]
    exact List.cons_ne_nil _ _
  have hpairwise : (Path.ancestors (p.absolutize root).components).Pairwise fun f g =>
      g <+: f := by
    rw [hp.components_eq]
    exact Path.pairwise_ancestors _
  rw [searched, mem_upTo_iff hpairwise, hmem, hmem, Path.isWithin_iff, and_assoc,
    and_iff_right hne]

/-- A folder is searched before the ones that it lies in. -/
theorem pairwise_searched {root : Path} (hroot : root.IsNormal) (p : Path) :
    (searched root p).Pairwise fun f g => g <+: f := by
  have hp := Path.isNormal_absolutize p hroot.isAbsolute
  rw [searched, hp.components_eq]
  exact (Path.pairwise_ancestors _).sublist (upTo_sublist root _)

/-! ## The nearest rule -/

/-- Whether a rule comes into question for a path: the path lies in its folder and, where the path
lies in the root, the folder does as well. -/
def Reaches (m : Manifest) (p : Path) (r : Rule) : Prop :=
  p.isWithin r.folder = true ∧ (p.isWithin m.root = true → r.folder.isWithin m.root = true)

instance (m : Manifest) (p : Path) (r : Rule) : Decidable (m.Reaches p r) :=
  inferInstanceAs (Decidable (_ ∧ _))

/-- Of the rules of a manifest that come into question for a path, the one whose folder lies in the
folders of all the others. -/
structure IsNearest (m : Manifest) (p : Path) (r : Rule) : Prop where
  mem : r ∈ m.rules
  reaches : m.Reaches p r
  isWithin : ∀ s ∈ m.rules, m.Reaches p s → r.folder.isWithin s.folder = true

instance (m : Manifest) (p : Path) (r : Rule) : Decidable (m.IsNearest p r) :=
  decidable_of_iff (r ∈ m.rules ∧ m.Reaches p r ∧
      ∀ s ∈ m.rules, m.Reaches p s → r.folder.isWithin s.folder = true)
    ⟨fun h => ⟨h.1, h.2.1, h.2.2⟩, fun h => ⟨h.mem, h.reaches, h.isWithin⟩⟩

/-- There is one nearest rule at most. -/
theorem IsNearest.unique (hm : m.IsSound) {p : Path} {s : Rule} (hr : m.IsNearest p r)
    (hs : m.IsNearest p s) : r = s := by
  have hrs := Path.isWithin_iff.mp (hr.isWithin s hs.mem hs.reaches)
  have hsr := Path.isWithin_iff.mp (hs.isWithin r hr.mem hr.reaches)
  exact hm.isRising.eq_of_components_eq hr.mem hs.mem (hsr.eq_of_length_le hrs.length_le)

/-- The rules that come into question are those whose folders are searched. -/
theorem reaches_iff (hm : m.IsSound) {p : Path} (hr : r ∈ m.rules) :
    m.Reaches (p.absolutize m.root) r ↔ r.folder.components ∈ searched m.root p := by
  have hne : r.folder.components ≠ [] := by
    rw [(hm.isNormal_folder r hr).components_eq]
    exact List.cons_ne_nil _ _
  rw [mem_searched_iff hm.isNormal_root, and_iff_right hne, Reaches, Path.isWithin_iff,
    Path.isWithin_iff (p := r.folder)]

/-- The nearest rule governs where there is one, and the rule that says nothing where none comes
into question. -/
theorem isNearest_governingRule (hm : m.IsSound) (p : Path) :
    m.IsNearest (p.absolutize m.root) (m.governingRule p) ∨
      ((∀ r ∈ m.rules, ¬ m.Reaches (p.absolutize m.root) r) ∧
        m.governingRule p = Rule.default (p.absolutize m.root)) := by
  rcases governingRule_cases m p with ⟨before, after, hsearched, hgoverns, hbefore⟩ | ⟨hr, hnone⟩
  · have hmem := mem_of_ruleAt? hgoverns
    refine Or.inl ⟨hmem, (reaches_iff hm hmem).mpr ?_, fun s hs hreaches => ?_⟩
    · rw [hsearched]
      exact List.mem_append_right _ List.mem_cons_self
    · have hpairwise := pairwise_searched hm.isNormal_root p
      have hmem' := (reaches_iff hm hs).mp hreaches
      rw [hsearched] at hpairwise hmem'
      obtain ⟨hnearer, -⟩ := List.pairwise_cons.mp (List.pairwise_append.mp hpairwise).2.1
      have hat : m.ruleAt? s.folder.components = some s :=
        (ruleAt?_eq_some_iff hm).mpr ⟨hs, rfl⟩
      rw [Path.isWithin_iff]
      -- No folder that is searched earlier has a rule, and those searched later lie further up.
      rcases List.mem_append.mp hmem' with hs | hs
      · exact absurd (hat.symm.trans (hbefore _ hs)) (by simp)
      · rcases List.mem_cons.mp hs with hs | hs
        · exact hs ▸ List.prefix_rfl
        · exact hnearer _ hs
  · refine Or.inr ⟨fun s hs hreaches => ?_, hr⟩
    have hat : m.ruleAt? s.folder.components = some s := (ruleAt?_eq_some_iff hm).mpr ⟨hs, rfl⟩
    exact absurd (hat.symm.trans (hnone _ ((reaches_iff hm hs).mp hreaches))) (by simp)

/-- A path lies in the folder of the rule that governs it. -/
theorem isWithin_folder_governingRule (hm : m.IsSound) (p : Path) :
    (p.absolutize m.root).isWithin (m.governingRule p).folder = true := by
  rcases isNearest_governingRule hm p with h | ⟨-, h⟩
  · exact h.reaches.1
  · rw [h, Path.isWithin_iff]
    exact List.prefix_rfl

/-- **The nearest rule governs.** A manifest that is read from files has the absolute root that it
is read for, its folders are absolute and normal, and the rule that it has for a folder is the one
with this folder. For each path the nearest rule that comes into question governs, and where none
does the rule that says nothing. In any case the path lies in the folder of the rule that governs
it. -/
theorem nearest_governs {d : Disk} {files : List Path} {root : Path} {strict : Bool}
    (h : load d files root strict = .ok m) :
    m.root = d.absolute root ∧ m.root.IsNormal ∧
      (∀ r ∈ m.rules, r.folder.IsNormal) ∧
      (∀ folder r, m.ruleAt? folder = some r ↔ r ∈ m.rules ∧ r.folder.components = folder) ∧
      ∀ p : Path,
        (m.IsNearest (p.absolutize m.root) (m.governingRule p) ∨
          ((∀ r ∈ m.rules, ¬ m.Reaches (p.absolutize m.root) r) ∧
            m.governingRule p = Rule.default (p.absolutize m.root))) ∧
        (∀ r, m.IsNearest (p.absolutize m.root) r → m.governingRule p = r) ∧
        (p.absolutize m.root).isWithin (m.governingRule p).folder = true := by
  have hm := isSound_of_load h
  have hroot : m.root = d.absolute root := by
    obtain ⟨rules, -, rfl⟩ := map_eq_ok_iff.mp h
    rfl
  refine ⟨hroot, hm.isNormal_root, hm.isNormal_folder, fun folder r => ruleAt?_eq_some_iff hm,
    fun p => ⟨isNearest_governingRule hm p, fun r hr => ?_, isWithin_folder_governingRule hm p⟩⟩
  rcases isNearest_governingRule hm p with hgoverns | ⟨hnone, -⟩
  · exact hgoverns.unique hm hr
  · exact absurd hr.reaches (hnone r hr.mem)

/-- A manifest file in a project folder. It has rules for the folder that the project lies in, for a
folder of the project and for one beside it. -/
def nestedDisk : Disk where
  tree := .folder [("w", .folder [("p", .folder [
    ("m.yml", .file (.text "/w:\napps/:\napps/../../lib:\n"))])])]
  cwd := ["w", "p"]

def nestedRule (folder : String) : Rule where
  folder := ⟨folder⟩
  components := .flat []
  filePatterns := .flat []
  file := some ⟨"m.yml"⟩

def nestedManifest : Manifest where
  rules := [nestedRule "/w", nestedRule "/w/lib", nestedRule "/w/p/apps"]
  root := ⟨"/w/p"⟩

/-- In the sample a rule governs the folders below its own, but not one whose name only begins in
the same way. This one is left without a rule, although the project lies in a folder with a rule,
and that rule governs what lies beside the project. -/
theorem nearest_governs_sample :
    load nestedDisk [⟨"m.yml"⟩] ⟨"."⟩ false = .ok nestedManifest ∧
      nestedManifest.governingRule ⟨"apps/foo/../bar"⟩ = nestedRule "/w/p/apps" ∧
      nestedManifest.governingRule ⟨"appsx"⟩ = Rule.default ⟨"/w/p/appsx"⟩ ∧
      nestedManifest.governingRule ⟨"../lib/x"⟩ = nestedRule "/w/lib" ∧
      nestedManifest.governingRule ⟨"../out"⟩ = nestedRule "/w" := by
  have hload : load nestedDisk [⟨"m.yml"⟩] ⟨"."⟩ false = .ok nestedManifest :=
    eq_ok_of_toOption (by decide +kernel)
  obtain ⟨-, -, -, -, hgoverns⟩ := nearest_governs hload
  have happsx : ∀ r ∈ nestedManifest.rules,
      ¬ nestedManifest.Reaches (Path.absolutize ⟨"appsx"⟩ nestedManifest.root) r := by
    decide +kernel
  refine ⟨hload, (hgoverns _).2.1 _ (by decide +kernel), ?_,
    (hgoverns _).2.1 _ (by decide +kernel), (hgoverns _).2.1 _ (by decide +kernel)⟩
  rcases (hgoverns ⟨"appsx"⟩).1 with h | ⟨-, h⟩
  · exact absurd h.reaches (happsx _ h.mem)
  · rw [h]
    decide +kernel

end Manifest

end BuildMatrix
