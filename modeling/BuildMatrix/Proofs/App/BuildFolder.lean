import BuildMatrix.App.Basic
import BuildMatrix.Proofs.Path.Normal
import BuildMatrix.Proofs.Path.Place

/-!
# The build folder

An app is built into a folder that its templates speak of: the build folder, relative to the work
folder, in normal form. The folder is emptied before a build, so it matters where it lies.

* `App.writtenBuildPath`: the build folder as the templates have it, before it is made normal.
* `App.resolveFrom_buildPath`: the build folder is where the templates say, as long as at most one
  step to the parent is left over in them.
* `Path.place_normalize_iff`: a path, and with it a build folder, keeps its place in normal form
  exactly in this case.
* `App.Swallows`, `App.swallows_iff`: when the build folder is the app's folder or a folder above
  it, in this case.
-/

namespace BuildMatrix

namespace App

variable {a : App}

/-- What the template of the build folder stands for. -/
def expandedBuildDir (a : App) : Path :=
  ⟨a.expand a.buildDir⟩

/-- The build folder, relative to the work folder, as it is written. -/
def writtenBuildPath (a : App) : Path :=
  a.workPath.join a.expandedBuildDir

theorem buildPath_eq (a : App) :
    a.buildPath = if a.expandedBuildDir.isAbsolute then a.expandedBuildDir
      else a.writtenBuildPath.normalize :=
  rfl

theorem writtenBuildPath_of_isAbsolute (h : a.expandedBuildDir.isAbsolute = true) :
    a.writtenBuildPath = a.expandedBuildDir :=
  Path.join_of_isAbsolute a.workPath h

theorem buildPath_of_isAbsolute (h : a.expandedBuildDir.isAbsolute = true) :
    a.buildPath = a.writtenBuildPath := by
  rw [buildPath_eq, if_pos h, writtenBuildPath_of_isAbsolute h]

theorem buildPath_of_isRelative (h : a.expandedBuildDir.isAbsolute = false) :
    a.buildPath = a.writtenBuildPath.normalize := by
  rw [buildPath_eq, if_neg (by simp [h])]

theorem isAbsolute_writtenBuildPath (h : a.expandedBuildDir.isAbsolute = true) :
    a.writtenBuildPath.isAbsolute = true := by
  rw [writtenBuildPath_of_isAbsolute h, h]

/-- The build folder keeps its place in normal form exactly if it is written from the root or at
most one step to the parent is left over. -/
theorem resolveFrom_buildPath_iff {here : List String}
    (hhere : a.writtenBuildPath.parents ≤ here.length) :
    a.buildPath.resolveFrom here = a.writtenBuildPath.resolveFrom here ↔
      a.writtenBuildPath.isAbsolute = true ∨ a.writtenBuildPath.route.ups ≤ 1 := by
  by_cases h : a.expandedBuildDir.isAbsolute = true
  · exact iff_of_true (by rw [buildPath_of_isAbsolute h]) (Or.inl (isAbsolute_writtenBuildPath h))
  · rw [buildPath_of_isRelative (Bool.eq_false_iff.mpr h)]
    exact Path.resolveFrom_normalize_iff hhere

/-- The build folder is where the template leads from the work folder. -/
theorem resolveFrom_buildPath
    (h : a.writtenBuildPath.isAbsolute = true ∨ a.writtenBuildPath.route.ups ≤ 1)
    (here : List String) :
    a.buildPath.resolveFrom here =
      a.expandedBuildDir.resolveFrom (a.workPath.resolveFrom here) := by
  rw [← Path.resolveFrom_join]
  by_cases hbuild : a.expandedBuildDir.isAbsolute = true
  · rw [buildPath_of_isAbsolute hbuild, writtenBuildPath]
  · rw [buildPath_of_isRelative (Bool.eq_false_iff.mpr hbuild), Path.resolveFrom_normalize h,
      writtenBuildPath]

end App

/-! ## Places that are kept -/

/-- **Normal forms keep places, up to one step up.** Below a folder `d` that is deep enough, a
path leads to the same place as its normal form exactly if it starts at the root or at most
one of its steps to the parent has no name before it to take away. So it is with the build
folder of an app and its normal form. -/
theorem Path.place_normalize_iff {d : Path} (hd : d.IsPlain) :
    (∀ p : Path, p.parents ≤ d.depth →
      ((d.join p.normalize).place = (d.join p).place ↔
        p.isAbsolute = true ∨ p.route.ups ≤ 1)) ∧
    ∀ a : App, a.writtenBuildPath.parents ≤ d.depth →
      ((d.join a.buildPath).place = ((d.join a.workPath).join a.expandedBuildDir).place ↔
        a.writtenBuildPath.isAbsolute = true ∨ a.writtenBuildPath.route.ups ≤ 1) := by
  rw [← hd.length_place]
  refine ⟨fun p hp => ?_, fun a ha => ?_⟩
  · rw [place_join, place_join]
    exact resolveFrom_normalize_iff hp
  · have hwritten : ((d.join a.workPath).join a.expandedBuildDir).place =
        a.writtenBuildPath.resolveFrom d.place := by
      rw [place_join, place_join, App.writtenBuildPath, resolveFrom_join]
    rw [place_join, hwritten]
    exact App.resolveFrom_buildPath_iff ha

/-- An app that is found beside the current folder. -/
def sampleNeighbour : App where
  folder := ⟨"../apps/foo"⟩
  target := "esp32"
  buildDir := "build_@t_@w"

theorem isPlain_sample : Path.IsPlain ⟨"/home/me/work"⟩ :=
  ⟨by decide +kernel, by decide +kernel⟩

theorem Path.place_normalize_sample :
    Path.IsPlain ⟨"/home/me/work"⟩ ∧
      (Path.join ⟨"/home/me/work"⟩ (normalize ⟨"a/./../../b"⟩)).place =
        (Path.join ⟨"/home/me/work"⟩ ⟨"a/./../../b"⟩).place ∧
      (Path.join ⟨"/home/me/work"⟩ sampleNeighbour.buildPath).place =
        ((Path.join ⟨"/home/me/work"⟩ sampleNeighbour.workPath).join
          sampleNeighbour.expandedBuildDir).place := by
  obtain ⟨hpath, happ⟩ := place_normalize_iff isPlain_sample
  have hone : (⟨"a/./../../b"⟩ : Path).route.ups ≤ 1 := by decide +kernel
  have happOne : sampleNeighbour.writtenBuildPath.route.ups ≤ 1 := by decide +kernel
  exact ⟨isPlain_sample, (hpath _ (by decide +kernel)).mpr (Or.inr hone),
    (happ _ (by decide +kernel)).mpr (Or.inr happOne)⟩

/-- Two steps up become none: an app that is found two folders up is built below the current
folder. -/
theorem Path.two_steps_up_sample :
    Path.IsPlain ⟨"/home/me/work"⟩ ∧ (⟨"../../apps"⟩ : Path).parents ≤ depth ⟨"/home/me/work"⟩ ∧
      (Path.join ⟨"/home/me/work"⟩ ⟨"../../apps"⟩).place = ["apps", "home"] ∧
      (Path.join ⟨"/home/me/work"⟩ (normalize ⟨"../../apps"⟩)).place =
        ["apps", "work", "me", "home"] ∧
      App.buildPath { folder := ⟨"../../apps/foo"⟩, target := "esp32" } =
        ⟨"apps/foo/build"⟩ := by
  refine ⟨isPlain_sample, ?_, ?_, ?_, ?_⟩ <;> decide +kernel

/-! ## Build folders that hold the app -/

namespace App

variable {a : App}

/-- Whether the build folder is the app's folder or a folder above it, as seen from the place
`here`. The names of a place are in reverse order, so the folders above it are its suffixes. -/
def Swallows (a : App) (here : List String) : Prop :=
  a.buildPath.resolveFrom here <:+ a.folder.place

theorem workPath_of_workDir_eq_none (h : a.workDir = none) : a.workPath = a.folder := by
  rw [workPath, h]

theorem swallows_iff_of_written
    (h : a.writtenBuildPath.isAbsolute = true ∨ a.writtenBuildPath.route.ups ≤ 1)
    (here : List String) :
    a.Swallows here ↔
      a.expandedBuildDir.resolveFrom (a.workPath.resolveFrom here) <:+ a.folder.place := by
  rw [Swallows, resolveFrom_buildPath h]

/-- Without a work folder the build folder is relative to the app's folder. -/
theorem swallows_iff_of_workDir_eq_none (hfolder : a.folder.isAbsolute = true)
    (hwork : a.workDir = none) (hbuild : a.expandedBuildDir.isAbsolute = false)
    (here : List String) :
    a.Swallows here ↔
      a.expandedBuildDir.route.names <:+ a.folder.place.take a.expandedBuildDir.route.ups := by
  have hpath := workPath_of_workDir_eq_none hwork
  have hwritten : a.writtenBuildPath.isAbsolute = true := by
    rw [writtenBuildPath, hpath]
    exact Path.isAbsolute_join hfolder hbuild
  have hhere : a.folder.resolveFrom here = a.folder.place := by
    rw [Path.resolveFrom_of_isAbsolute hfolder, Path.place_of_isAbsolute hfolder]
  rw [swallows_iff_of_written (Or.inl hwritten), hpath, hhere, Path.resolveFrom_eq hbuild]
  exact Route.place_suffix_iff

/-- A build folder with a name of its own, below a work folder at or below the app, does not
hold the app. -/
theorem not_swallows_of_names {here : List String}
    (h : a.writtenBuildPath.isAbsolute = true ∨ a.writtenBuildPath.route.ups ≤ 1)
    (hwork : a.folder.place <:+ a.workPath.resolveFrom here)
    (hbuild : a.expandedBuildDir.isAbsolute = false) (hups : a.expandedBuildDir.route.ups = 0)
    (hnames : a.expandedBuildDir.route.names ≠ []) : ¬ a.Swallows here := by
  intro hswallows
  rw [swallows_iff_of_written h, Path.resolveFrom_eq hbuild, Route.place, hups,
    List.drop_zero] at hswallows
  -- the build folder is deeper than the work folder, which is not less deep than the app
  have hlength := (List.IsSuffix.length_le hswallows)
  have hdeep := List.IsSuffix.length_le hwork
  have hpos := List.length_pos_iff.mpr hnames
  rw [List.length_append] at hlength
  omega

/-- **When the build folder holds the app.** As long as the build path is written from the root or at
most one step to the parent is left over in it, the build folder is the app's folder or a folder above
it exactly if the templates lead there, and one that goes down from a work folder at or below the app
does not hold it. Where two or more such steps are left over, the normal form may lead elsewhere. Without
a work folder none are, and the templates that lead there are those that go up some folders and
down again on the way back to the app, or not at all. -/
theorem swallows_iff {a : App} (hfolder : a.folder.isAbsolute = true) (here : List String) :
    (a.writtenBuildPath.isAbsolute = true ∨ a.writtenBuildPath.route.ups ≤ 1 →
      (a.Swallows here ↔
        a.expandedBuildDir.resolveFrom (a.workPath.resolveFrom here) <:+ a.folder.place) ∧
      (a.folder.place <:+ a.workPath.resolveFrom here →
        a.expandedBuildDir.isAbsolute = false → a.expandedBuildDir.route.ups = 0 →
        a.expandedBuildDir.route.names ≠ [] → ¬ a.Swallows here)) ∧
    (a.workDir = none → a.expandedBuildDir.isAbsolute = false →
      (a.Swallows here ↔
        a.expandedBuildDir.route.names <:+
          a.folder.place.take a.expandedBuildDir.route.ups)) := by
  refine ⟨fun h => ⟨swallows_iff_of_written h here, fun hwork => ?_⟩, fun hwork hbuild => ?_⟩
  · exact not_swallows_of_names h hwork
  · exact swallows_iff_of_workDir_eq_none hfolder hwork hbuild here

/-- An app with a work folder and a build folder. -/
def sampleBuild (workDir : Option String) (buildDir : String) : App where
  folder := ⟨"/w/apps/foo"⟩
  target := "esp32"
  workDir := workDir
  buildDir := buildDir

theorem isAbsolute_folder_sampleBuild (workDir : Option String) (buildDir : String) :
    (sampleBuild workDir buildDir).folder.isAbsolute = true := by
  show Path.isAbsolute ⟨"/w/apps/foo"⟩ = true
  decide +kernel

theorem swallows_iff_sample :
    (sampleBuild none "../foo/@w").Swallows [] ∧ ¬ (sampleBuild none "build_@t_@w").Swallows [] ∧
      (sampleBuild (some "/w/apps") "@n").Swallows [] ∧
      ¬ (sampleBuild (some "/w/apps/foo/work") "@t").Swallows [] := by
  refine ⟨?_, ?_, ?_, ?_⟩
  · -- the placeholder and the slash before it go away, which leads up and back to the app
    have h := (swallows_iff (isAbsolute_folder_sampleBuild none "../foo/@w") []).2 rfl
      (by decide +kernel)
    exact h.mpr (by decide +kernel)
  · have h := (swallows_iff (isAbsolute_folder_sampleBuild none "build_@t_@w") []).2 rfl
      (by decide +kernel)
    exact fun hswallows => absurd (h.mp hswallows) (by decide +kernel)
  · have h := (swallows_iff (isAbsolute_folder_sampleBuild (some "/w/apps") "@n") []).1
      (Or.inl (by decide +kernel))
    exact h.1.mpr (by decide +kernel)
  · have h := (swallows_iff (isAbsolute_folder_sampleBuild (some "/w/apps/foo/work") "@t") []).1
      (Or.inl (by decide +kernel))
    exact h.2 (by decide +kernel) (by decide +kernel) (by decide +kernel) (by decide +kernel)

/-- A dot, a lone placeholder of a config name that is empty, and a step to the parent stand for the
app's folder and the one above it. -/
theorem build_in_app_folder_sample :
    Path.IsNormal (sampleBuild none ".").folder ∧
      (sampleBuild none ".").buildPath = (sampleBuild none ".").folder ∧
      (sampleBuild none "@w").buildPath = (sampleBuild none "@w").folder ∧
      (sampleBuild none "..").buildPath = ⟨"/w/apps"⟩ := by
  refine ⟨⟨?_, ?_⟩, ?_, ?_, ?_⟩ <;> decide +kernel

end App

end BuildMatrix
