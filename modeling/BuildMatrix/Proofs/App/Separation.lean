import BuildMatrix.Proofs.App.BuildFolder
import BuildMatrix.Proofs.App.Unnamed
import BuildMatrix.Proofs.Path.GoingDown
import BuildMatrix.Proofs.Text.Between

/-!
# Templates that tell targets apart

A template with a placeholder of the target gives different texts for different targets, as long as
no `@` before an inserted target makes a placeholder of its first letter. The exception is a
template whose only placeholder of the target is directly followed by the first one of the config
name: without a config name this one takes the last character of the target away.

* `App.segments`: what a template puts around the target.
* `App.StandsFree`: whether a target makes no placeholder with what is before it.
* `App.ShavesTarget`: whether the first placeholder of the config name is directly behind the only
  target.
* `App.expandConfigName_intercalate_iff`: when the last turn makes one text of two.
* `App.expand_eq_of_resolveFrom_buildPath_eq`: two apps that are built into one folder.
* `App.expand_separates_targets`: when a template gives one text for two targets.
-/

namespace BuildMatrix

namespace App

variable {a b : App} {template : String} {s t p q : List Char} {us pre post : List (List Char)}

/-- The app for another target. -/
def withTarget (a : App) (target : String) : App :=
  { a with target := target }

/-! ## Around the target -/

/-- The texts of a template between the placeholders of the target. -/
def gaps (a : App) (template : String) : List (List Char) :=
  Text.between '@' 't' (expandIndex a.index template.toList)

/-- The turn of the name. -/
def fillName (a : App) (cs : List Char) : List Char :=
  Text.replaceAll ['@', 'n'] a.name.toList cs

/-- The turn of the folder. -/
def fillFolder (a : App) (cs : List Char) : List Char :=
  Text.replaceAll ['@', 'f'] a.flatFolder cs

/-- What a template puts around the target before the turn of the config name. -/
def segments (a : App) (template : String) : List (List Char) :=
  ((a.gaps template).map a.fillName).map a.fillFolder

/-- Whether no `@` before an inserted target makes a placeholder of its first letter at a later
turn. -/
structure StandsFree (a : App) (template target : String) : Prop where
  name : Text.MakesNoPair '@' 'n' target.toList (a.gaps template)
  folder : Text.MakesNoPair '@' 'f' target.toList ((a.gaps template).map a.fillName)
  configName : Text.MakesNoPair '@' 'w' target.toList (a.segments template)

/-- Whether a template has one placeholder of the target, and directly behind it the first one of
the config name. -/
def ShavesTarget (a : App) (template : String) : Prop :=
  ∃ before after, a.segments template = [before, '@' :: 'w' :: after] ∧
    Text.pairs '@' 'w' before = 0

theorem pairs_expandIndex (a : App) (template : String) :
    Text.pairs '@' 't' (expandIndex a.index template.toList) =
      Text.pairs '@' 't' template.toList := by
  cases hindex : a.index with
  | none => rfl
  | some i =>
    rw [← hindex, expandIndex_eq]
    exact (isClear_target hindex template).trans (TemplatePart.pairs_read .target _).symm

theorem length_segments (a : App) (template : String) :
    (a.segments template).length = Text.pairs '@' 't' template.toList + 1 := by
  rw [segments, List.length_map, List.length_map, gaps, Text.length_between (by decide),
    pairs_expandIndex]

/-- The turns before the last one put the target between the segments. -/
theorem expandChars_withTarget {target : String} (hempty : target ≠ "")
    (hmark : '@' ∉ target.toList) (hfree : a.StandsFree template target) :
    (a.withTarget target).expandChars template.toList =
      expandConfigName a.configName (List.intercalate target.toList (a.segments template)) := by
  have hnil : target.toList ≠ [] := by simpa using hempty
  have htarget : Text.replaceAll ['@', 't'] target.toList (expandIndex a.index template.toList) =
      List.intercalate target.toList (a.gaps template) := Text.replaceAll_eq_intercalate _ _ _ _
  have hname := Text.replaceAll_intercalate hnil hmark hfree.name a.name.toList
  have hfolder := Text.replaceAll_intercalate hnil hmark hfree.folder a.flatFolder
  rw [segments]
  show expandConfigName a.configName (Text.replaceAll ['@', 'f'] a.flatFolder
    (Text.replaceAll ['@', 'n'] a.name.toList (Text.replaceAll ['@', 't'] target.toList
      (expandIndex a.index template.toList)))) = _
  rw [htarget, hname]
  exact congrArg _ hfolder

/-! ## The last turn -/

section

variable (ht : t ≠ []) (hmark : '@' ∉ t)

include ht hmark

theorem expandConfigName_intercalate_of_forall (hfree : Text.MakesNoPair '@' 'w' t us)
    (hus : ∀ u ∈ us, Text.pairs '@' 'w' u = 0) :
    expandConfigName "" (List.intercalate t us) = List.intercalate t us := by
  have hnone := cutAtText_eq_none (Text.pairs_intercalate_eq_zero ht hmark hfree hus)
  rw [expandConfigName_empty, hnone]

/-- The first placeholder of the config name is the first one in one of the segments. -/
theorem expandConfigName_intercalate
    (hfree : Text.MakesNoPair '@' 'w' t (pre ++ (p ++ '@' :: 'w' :: q) :: post))
    (hpre : ∀ u ∈ pre, Text.pairs '@' 'w' u = 0) (hp : Text.pairs '@' 'w' (p ++ ['@']) = 0) :
    expandConfigName "" (List.intercalate t (pre ++ (p ++ '@' :: 'w' :: q) :: post)) =
      (List.intercalate t (pre ++ [p])).dropLast ++ List.intercalate t (q :: post) := by
  have hjoin : List.intercalate t (pre ++ (p ++ '@' :: 'w' :: q) :: post) =
      List.intercalate t (pre ++ [p]) ++ '@' :: 'w' :: List.intercalate t (q :: post) := by
    rw [← Text.intercalate_append_intercalate]
    exact congrArg _ (Text.intercalate_cons_append t ['@', 'w'] q post)
  have hbefore : Text.MakesNoPair '@' 'w' t (pre ++ [p ++ ['@']]) := by
    intro u hu
    rw [List.dropLast_concat] at hu
    rw [Text.MakesNoPair, List.dropLast_append_of_ne_nil (List.cons_ne_nil _ _)] at hfree
    exact hfree u (List.mem_append_left _ hu)
  have hclear : Text.pairs '@' 'w' (List.intercalate t (pre ++ [p]) ++ ['@']) = 0 := by
    rw [← Text.intercalate_concat_append]
    refine Text.pairs_intercalate_eq_zero ht hmark hbefore fun u hu => ?_
    rcases List.mem_append.mp hu with hu | hu
    · exact hpre u hu
    · rw [List.mem_singleton.mp hu, hp]
  rw [expandConfigName_empty, hjoin, cutAtText_append hclear]

/-- The character before the placeholder is one of the segment, if there is one or no target is
before it. -/
theorem expandConfigName_intercalate_of_ne
    (hfree : Text.MakesNoPair '@' 'w' t (pre ++ (p ++ '@' :: 'w' :: q) :: post))
    (hpre : ∀ u ∈ pre, Text.pairs '@' 'w' u = 0) (hp : Text.pairs '@' 'w' (p ++ ['@']) = 0)
    (h : p ≠ [] ∨ pre = []) :
    expandConfigName "" (List.intercalate t (pre ++ (p ++ '@' :: 'w' :: q) :: post)) =
      List.intercalate t (pre ++ (p.dropLast ++ q) :: post) := by
  have hdrop : (List.intercalate t (pre ++ [p])).dropLast =
      List.intercalate t (pre ++ [p.dropLast]) := by
    rcases h with hne | rfl
    · rw [← List.nil_append p, Text.intercalate_concat_append, List.nil_append,
        List.dropLast_append_of_ne_nil hne, ← Text.intercalate_concat_append, List.nil_append]
    · simp
  rw [expandConfigName_intercalate ht hmark hfree hpre hp, hdrop,
    Text.intercalate_append_intercalate]

/-- Else it is the last one of the target. -/
theorem expandConfigName_intercalate_of_nil
    (hfree : Text.MakesNoPair '@' 'w' t (pre ++ ('@' :: 'w' :: q) :: post))
    (hpre : ∀ u ∈ pre, Text.pairs '@' 'w' u = 0) (hne : pre ≠ []) :
    expandConfigName "" (List.intercalate t (pre ++ ('@' :: 'w' :: q) :: post)) =
      List.intercalate t pre ++ t.dropLast ++ List.intercalate t (q :: post) := by
  have hcut := expandConfigName_intercalate ht hmark (p := []) hfree hpre rfl
  rw [List.nil_append] at hcut
  rw [hcut, Text.intercalate_concat_nil t hne, List.dropLast_append_of_ne_nil ht]

end

/-- Texts from which the last character of one of the targets between them is taken away. -/
theorem eq_singleton_of_shaved (hs : s ≠ []) (ht : t ≠ []) (hne : s ≠ t) (hpre : pre ≠ [])
    (h : List.intercalate s pre ++ s.dropLast ++ List.intercalate s (q :: post) =
      List.intercalate t pre ++ t.dropLast ++ List.intercalate t (q :: post)) :
    (∃ u, pre = [u]) ∧ post = [] ∧ s.dropLast = t.dropLast := by
  obtain ⟨u, pre, rfl⟩ := List.exists_cons_of_ne_nil hpre
  have hlength : s.length = t.length := by
    have hs := List.length_pos_iff.mpr hs
    have ht := List.length_pos_iff.mpr ht
    have hlength := congrArg List.length h
    simp only [List.length_append, Text.length_intercalate, List.length_dropLast] at hlength
    have hmul : (pre.length + post.length + 1) * s.length =
        (pre.length + post.length + 1) * t.length := by
      rw [Nat.add_mul, Nat.add_mul, Nat.add_mul, Nat.add_mul]
      omega
    exact Nat.eq_of_mul_eq_mul_left (Nat.succ_pos _) hmul
  have hdrop : s.dropLast.length = t.dropLast.length := by
    rw [List.length_dropLast, List.length_dropLast, hlength]
  have hbefore : (List.intercalate s (u :: pre)).length =
      (List.intercalate t (u :: pre)).length := by
    rw [Text.length_intercalate, Text.length_intercalate, hlength]
  rw [List.append_assoc, List.append_assoc] at h
  obtain ⟨hfirst, hrest⟩ := List.append_inj h hbefore
  obtain ⟨hshaved, hlast⟩ := List.append_inj hrest hdrop
  -- another whole target in one of the texts would tell the two apart
  have hpre : pre = [] := by
    by_contra hcons
    have htwo : 2 ≤ (u :: pre).length := Nat.succ_le_succ (List.length_pos_iff.mpr hcons)
    exact hne ((Text.intercalate_left_inj htwo).mp hfirst)
  have hpost : post = [] := by
    by_contra hcons
    have htwo : 2 ≤ (q :: post).length := Nat.succ_le_succ (List.length_pos_iff.mpr hcons)
    exact hne ((Text.intercalate_left_inj htwo).mp hlast)
  exact ⟨⟨u, by rw [hpre]⟩, hpost, hshaved⟩

/-- The last turn makes one text of two only by taking away the characters in which the targets are
different. -/
theorem expandConfigName_intercalate_iff (hs : s ≠ []) (ht : t ≠ []) (hsmark : '@' ∉ s)
    (htmark : '@' ∉ t) (hne : s ≠ t) (htwo : 2 ≤ us.length)
    (hsfree : Text.MakesNoPair '@' 'w' s us) (htfree : Text.MakesNoPair '@' 'w' t us) :
    expandConfigName "" (List.intercalate s us) = expandConfigName "" (List.intercalate t us) ↔
      (∃ before after, us = [before, '@' :: 'w' :: after] ∧ Text.pairs '@' 'w' before = 0) ∧
        s.dropLast = t.dropLast := by
  constructor
  · intro h
    -- as long as all targets are whole, there are two segments at least to tell them by
    by_cases hnone : ∀ u ∈ us, Text.pairs '@' 'w' u = 0
    · rw [expandConfigName_intercalate_of_forall hs hsmark hsfree hnone,
        expandConfigName_intercalate_of_forall ht htmark htfree hnone] at h
      exact absurd ((Text.intercalate_left_inj htwo).mp h) hne
    · push Not at hnone
      obtain ⟨pre, p, q, post, rfl, hpre, hp⟩ := Text.exists_first_pair_mem hnone
      by_cases hcut : p ≠ [] ∨ pre = []
      · rw [expandConfigName_intercalate_of_ne hs hsmark hsfree hpre hp hcut,
          expandConfigName_intercalate_of_ne ht htmark htfree hpre hp hcut] at h
        have htwo : 2 ≤ (pre ++ (p.dropLast ++ q) :: post).length := by
          rwa [List.length_append, List.length_cons] at htwo ⊢
        exact absurd ((Text.intercalate_left_inj htwo).mp h) hne
      · push Not at hcut
        obtain ⟨rfl, hcons⟩ := hcut
        rw [List.nil_append] at h hsfree htfree
        rw [expandConfigName_intercalate_of_nil hs hsmark hsfree hpre hcons,
          expandConfigName_intercalate_of_nil ht htmark htfree hpre hcons] at h
        obtain ⟨⟨u, rfl⟩, rfl, hdrop⟩ := eq_singleton_of_shaved hs ht hne hcons h
        exact ⟨⟨u, q, rfl, hpre u List.mem_cons_self⟩, hdrop⟩
  · rintro ⟨⟨before, after, rfl, hbefore⟩, hdrop⟩
    have hpre : ∀ u ∈ [before], Text.pairs '@' 'w' u = 0 := by simpa using hbefore
    have hscut := expandConfigName_intercalate_of_nil hs hsmark hsfree hpre (List.cons_ne_nil _ _)
    have htcut := expandConfigName_intercalate_of_nil ht htmark htfree hpre (List.cons_ne_nil _ _)
    rw [List.singleton_append] at hscut htcut
    rw [hscut, htcut, hdrop]
    simp

/-- A config name is put in wherever its placeholder is, which is in the segments. -/
theorem expandConfigName_intercalate_of_ne_empty {configName : String} (hconfig : configName ≠ "")
    (ht : t ≠ []) (hmark : '@' ∉ t) (hfree : Text.MakesNoPair '@' 'w' t us) :
    expandConfigName configName (List.intercalate t us) =
      List.intercalate t (us.map (Text.replaceAll ['@', 'w'] configName.toList)) := by
  have hempty : configName.isEmpty = false := by
    rw [← Bool.not_eq_true, String.isEmpty_iff]
    exact hconfig
  rw [expandConfigName, hempty]
  exact Text.replaceAll_intercalate ht hmark hfree _

/-! ## Targets that stand free -/

theorem pairs_marks_expandIndex (a : App) (h : Text.pairs '@' '@' template.toList = 0) :
    Text.pairs '@' '@' (expandIndex a.index template.toList) = 0 := by
  cases hindex : a.index with
  | none => exact h
  | some i =>
    have hdigits := (exists_head_index (p := .index) hindex).1
    rw [valueOf, hindex] at hdigits
    exact Text.pairs_self_replaceAll 'i' hdigits _ h

/-- Each target stands free if no `@` of the template is directly followed by another one, and the
folder brings none along. -/
theorem standsFree_of_pairs (hmarks : Text.pairs '@' '@' template.toList = 0)
    (hfolder : '@' ∉ a.folder.text.toList) (target : String) : a.StandsFree template target := by
  have hgaps : ∀ u ∈ (a.gaps template).dropLast, Text.pairs '@' '@' (u ++ ['@']) = 0 :=
    fun u hu => Text.pairs_eq_zero_of_infix (Text.append_singleton_infix_of_mem_between hu)
      (a.pairs_marks_expandIndex hmarks)
  have hname : '@' ∉ a.name.toList := fun h => hfolder (mem_of_mem_name h)
  have hnames := Text.forall_pairs_map_replaceAll (y := 'n') (by decide) hname hgaps
  have hfolders := Text.forall_pairs_map_replaceAll (y := 'f') (by decide)
    (mark_notMem_flatFolder hfolder) hnames
  exact ⟨Text.makesNoPair_of_forall hgaps 'n' _, Text.makesNoPair_of_forall hnames 'f' _,
    Text.makesNoPair_of_forall hfolders 'w' _⟩

/-- A target stands free if it begins with the letter of no placeholder whose turn comes later. -/
theorem standsFree_of_head {target : String} (h : ∀ p : Placeholder,
      Placeholder.target.turn < p.turn → target.toList.head? ≠ some p.letter) :
    a.StandsFree template target :=
  ⟨fun _ _ hpair => h .name (by decide) hpair.2, fun _ _ hpair => h .folder (by decide) hpair.2,
    fun _ _ hpair => h .configName (by decide) hpair.2⟩

/-! ## Build folders -/

/-- Whether the build folders of two apps are written in the same manner: they only go down, both
from the root or both from work folders, which are the same if they do not go down equally far. -/
structure WrittenAlike (a b : App) : Prop where
  left : a.expandedBuildDir.GoesDown
  right : b.expandedBuildDir.GoesDown
  isAbsolute_eq : a.expandedBuildDir.isAbsolute = b.expandedBuildDir.isAbsolute
  meet : a.expandedBuildDir.isAbsolute = false →
    a.workPath = b.workPath ∨ a.expandedBuildDir.depth = b.expandedBuildDir.depth

/-- Build folders that are written in the same manner are one folder only if their texts are the
same. -/
theorem expand_eq_of_resolveFrom_buildPath_eq (h : WrittenAlike a b) {here : List String}
    (hplace : a.buildPath.resolveFrom here = b.buildPath.resolveFrom here) :
    a.expand a.buildDir = b.expand b.buildDir := by
  suffices hpath : a.expandedBuildDir = b.expandedBuildDir from congrArg Path.text hpath
  by_cases hb : b.expandedBuildDir.isAbsolute = true
  · have ha := h.isAbsolute_eq.trans hb
    rw [buildPath_eq, buildPath_eq, if_pos ha, if_pos hb] at hplace
    exact h.left.eq_of_isAbsolute h.right ha hb hplace
  · have hb := Bool.eq_false_iff.mpr hb
    have ha := h.isAbsolute_eq.trans hb
    rw [buildPath_of_isRelative ha, buildPath_of_isRelative hb] at hplace
    exact h.left.eq_of_resolveFrom_eq h.right ha hb (h.meet ha) hplace

/-! ## The expansions -/

/-- Two targets that stand free give one text only if their last characters are taken away. -/
theorem expand_withTarget_eq_iff {s t : String} (hmark : Text.pairs '@' 't' template.toList ≠ 0)
    (hs : s ≠ "") (ht : t ≠ "") (hsmark : '@' ∉ s.toList) (htmark : '@' ∉ t.toList) (hne : s ≠ t)
    (hsfree : a.StandsFree template s) (htfree : a.StandsFree template t) :
    (a.withTarget s).expand template = (a.withTarget t).expand template ↔
      a.configName = "" ∧ a.ShavesTarget template ∧ s.toList.dropLast = t.toList.dropLast := by
  have hsnil : s.toList ≠ [] := by simpa using hs
  have htnil : t.toList ≠ [] := by simpa using ht
  have hlists : s.toList ≠ t.toList := mt String.toList_inj.mp hne
  have htwo : 2 ≤ (a.segments template).length := by
    rw [length_segments]
    omega
  rw [expand, expand, String.ofList_inj, expandChars_withTarget hs hsmark hsfree,
    expandChars_withTarget ht htmark htfree]
  by_cases hconfig : a.configName = ""
  · rw [hconfig, expandConfigName_intercalate_iff hsnil htnil hsmark htmark hlists htwo
      hsfree.configName htfree.configName]
    exact (and_iff_right rfl).symm
  · rw [expandConfigName_intercalate_of_ne_empty hconfig hsnil hsmark hsfree.configName,
      expandConfigName_intercalate_of_ne_empty hconfig htnil htmark htfree.configName,
      Text.intercalate_left_inj (by rwa [List.length_map])]
    exact iff_of_false hlists fun h => hconfig h.1

/-- **A template with a placeholder of the target tells two targets apart**, if these are not empty
and hold no `@`. The texts are the same just in one case: there is no config name, its first
placeholder is directly behind the only one of the target, and the targets are different in their
last characters only, which are taken away. Build folders that are written in the same manner are
not shared either, but in this case. A target has to stand free, though. Each one does if no `@` of
the template is directly followed by another one and the folder holds none, and so does, in any
template, a target that begins with the letter of no later placeholder. -/
theorem expand_separates_targets {s t : String}
    (hmark : Text.pairs '@' 't' template.toList ≠ 0) (hs : s ≠ "") (ht : t ≠ "")
    (hsmark : '@' ∉ s.toList) (htmark : '@' ∉ t.toList) (hne : s ≠ t) :
    (a.StandsFree template s → a.StandsFree template t →
      ((a.withTarget s).expand template = (a.withTarget t).expand template ↔
        a.configName = "" ∧ a.ShavesTarget template ∧ s.toList.dropLast = t.toList.dropLast) ∧
      (a.buildDir = template → WrittenAlike (a.withTarget s) (a.withTarget t) → ∀ here,
        (a.withTarget s).buildPath.resolveFrom here =
          (a.withTarget t).buildPath.resolveFrom here →
        a.configName = "" ∧ a.ShavesTarget template ∧ s.toList.dropLast = t.toList.dropLast)) ∧
    (Text.pairs '@' '@' template.toList = 0 → '@' ∉ a.folder.text.toList →
      ∀ target, a.StandsFree template target) ∧
    ∀ target : String, (∀ p : Placeholder, Placeholder.target.turn < p.turn →
      target.toList.head? ≠ some p.letter) → a.StandsFree template target := by
  refine ⟨fun hsfree htfree => ?_, standsFree_of_pairs, fun _ => standsFree_of_head⟩
  have hexpand := expand_withTarget_eq_iff hmark hs ht hsmark htmark hne hsfree htfree
  refine ⟨hexpand, ?_⟩
  rintro rfl halike here hplace
  exact hexpand.mp (expand_eq_of_resolveFrom_buildPath_eq halike hplace)

/-- An app with a template of the build folder. -/
def blinkBuild (buildDir : String) : App :=
  { blinkApp with buildDir := buildDir }

theorem segments_blinkBuild :
    (blinkBuild "build_@t_@w").segments "build_@t_@w" = ["build_".toList, "_@w".toList] ∧
      (blinkBuild "build_@t@w").segments "build_@t@w" = ["build_".toList, "@w".toList] := by
  decide +kernel

theorem goesDown_sample {text : String} (h : text = "build_esp32c3" ∨ text = "build_esp32c6") :
    Path.GoesDown ⟨text⟩ := by
  rcases h with rfl | rfl <;> exact ⟨by decide +kernel, by decide +kernel⟩

theorem expand_separates_targets_sample :
    (((blinkBuild "build_@t_@w").withTarget "esp32c3").expand "build_@t_@w" ≠
        ((blinkBuild "build_@t_@w").withTarget "esp32c6").expand "build_@t_@w" ∧
      ((blinkBuild "build_@t_@w").withTarget "esp32c3").buildPath.resolveFrom [] ≠
        ((blinkBuild "build_@t_@w").withTarget "esp32c6").buildPath.resolveFrom []) ∧
    ((blinkBuild "build_@t@w").withTarget "esp32c3").expand "build_@t@w" =
      ((blinkBuild "build_@t@w").withTarget "esp32c6").expand "build_@t@w" := by
  have hapart : ¬(blinkBuild "build_@t_@w").ShavesTarget "build_@t_@w" := by
    rintro ⟨before, after, hsegments, -⟩
    rw [segments_blinkBuild.1] at hsegments
    simp at hsegments
  have hshaves : (blinkBuild "build_@t@w").ShavesTarget "build_@t@w" :=
    ⟨"build_".toList, [], segments_blinkBuild.2, by decide⟩
  have halike : WrittenAlike ((blinkBuild "build_@t_@w").withTarget "esp32c3")
      ((blinkBuild "build_@t_@w").withTarget "esp32c6") := by
    refine ⟨?_, ?_, by decide +kernel, fun _ => Or.inl rfl⟩
    · exact goesDown_sample (by decide +kernel)
    · exact goesDown_sample (by decide +kernel)
  refine ⟨?_, ?_⟩
  · have hmark : Text.pairs '@' 't' "build_@t_@w".toList ≠ 0 := by decide
    obtain ⟨hseparates, hfree, -⟩ := expand_separates_targets (a := blinkBuild "build_@t_@w")
      (s := "esp32c3") (t := "esp32c6") hmark (by decide) (by decide) (by decide) (by decide)
      (by decide)
    have hfree := hfree (by decide) (by decide +kernel)
    obtain ⟨hexpand, hbuild⟩ := hseparates (hfree _) (hfree _)
    exact ⟨fun h => hapart (hexpand.mp h).2.1,
      fun h => hapart (hbuild rfl halike [] h).2.1⟩
  · have hmark : Text.pairs '@' 't' "build_@t@w".toList ≠ 0 := by decide
    obtain ⟨hseparates, hfree, -⟩ := expand_separates_targets (a := blinkBuild "build_@t@w")
      (s := "esp32c3") (t := "esp32c6") hmark (by decide) (by decide) (by decide) (by decide)
      (by decide)
    have hfree := hfree (by decide) (by decide +kernel)
    exact (hseparates (hfree _) (hfree _)).1.mpr ⟨rfl, hshaves, by decide⟩

/-- The last characters of two targets are taken away, so that both are built in one folder. A step
to the parent brings two targets into one folder as well. -/
theorem targets_share_build_folder :
    Text.pairs '@' 't' "build_@t@w".toList ≠ 0 ∧
      ((blinkBuild "build_@t@w").withTarget "esp32c3").expand "build_@t@w" = "build_esp32c" ∧
      ((blinkBuild "build_@t@w").withTarget "esp32c6").expand "build_@t@w" = "build_esp32c" ∧
      ((blinkBuild "build_@t@w").withTarget "esp32c3").buildPath =
        ((blinkBuild "build_@t@w").withTarget "esp32c6").buildPath ∧
      ((blinkBuild "@t/../build").withTarget "esp32c3").buildPath =
        ((blinkBuild "@t/../build").withTarget "esp32c6").buildPath := by
  decide +kernel

end App

end BuildMatrix
