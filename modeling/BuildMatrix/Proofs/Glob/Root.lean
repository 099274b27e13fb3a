import BuildMatrix.Proofs.Glob.Matching
import BuildMatrix.Proofs.Path.Trail

/-!
# File patterns below different roots

A pattern is put behind the root before it is read, so a wildcard in the name of a folder on the way
to the root acts as one. Below roots without wildcards the answer is the same, except that the topmost
folder ends with a slash behind which a star may stand for nothing.

* `Glob.tokensAt_of_steps_ne_nil`: the tokens of a pattern follow the text of the root.
* `Glob.any_isMatch_tokensAt`: which files match a pattern.
* `Glob.filesMatch_dot_star`: the topmost folder matches a star below it.
* `Glob.agreeFor_of_noWildcard`: below which roots the same files match.
* `Glob.roots_disagree_sample`: a root with brackets, below which they do not.
-/

namespace BuildMatrix.Glob

open BuildMatrix.Path

variable {root other file : Path} {pattern : String}

/-! ## One pattern and one file -/

/-- The tokens of a pattern below a root, if it can be read. -/
def tokensAt (root : Path) (pattern : String) : Option (List Token) :=
  (parse (absolutize ⟨pattern⟩ root).text).toOption

/-- The tokens of a pattern below the topmost folder. -/
def tokensBelow (pattern : String) : Option (List Token) :=
  (parse (String.ofList (trail ⟨pattern⟩))).toOption

/-- What is written behind the trail of a root for a file below it. -/
def behindTrail (root file : Path) : List Char :=
  if file.steps = [] then if root.steps = [] then ['/'] else [] else file.trail

/-- Files match patterns if one of the files matches one of those that can be read. -/
theorem filesMatch_eq (files : List Path) (patterns : List String) (root : Path) :
    filesMatch files patterns root =
      (patterns.all (fun pattern => (tokensAt root pattern).all isOrderedBranch) &&
        files.any fun file => patterns.any fun pattern =>
          (tokensAt root pattern).any (isMatch · (file.absolutize root))) := by
  have hall : (readAll patterns root).all isOrderedBranch =
      patterns.all fun pattern => (tokensAt root pattern).all isOrderedBranch := by
    rw [readAll, List.all_filterMap]
    rfl
  have hany (p : Path) : (readAll patterns root).any (isMatch · p) =
      patterns.any fun pattern => (tokensAt root pattern).any (isMatch · p) := by
    rw [readAll, List.any_filterMap]
    rfl
  rw [filesMatch, hall]
  simp only [hany]

theorem eq_ofList_iff {p : Path} {cs : List Char} :
    p = ⟨String.ofList cs⟩ ↔ p.text.toList = cs := by
  constructor
  · rintro rfl
    exact String.toList_ofList
  · rintro rfl
    rw [String.ofList_toList]

theorem absolutize_eq (hroot : root.IsNormal) (hfile : file.IsBelow) :
    file.absolutize root = ⟨String.ofList (root.trail ++ behindTrail root file)⟩ := by
  rw [eq_ofList_iff, toList_absolutize hroot hfile, behindTrail]
  split
  · rw [hroot.toList_text]
    split
    · next hsteps =>
      rw [trail, hsteps]
      rfl
    · rw [List.append_nil]
  · rfl

theorem behindTrail_eq (root file : Path) :
    behindTrail root file = [] ∨ ∃ rest, behindTrail root file = '/' :: rest := by
  rw [behindTrail]
  split
  · split
    · exact .inr ⟨[], rfl⟩
    · exact .inl rfl
  · next h =>
    obtain ⟨c, cs, hcs⟩ := exists_trail_eq h
    exact .inr ⟨c :: cs, hcs⟩

theorem noWildcard_trail (hroot : root.IsNormal) (h : NoWildcard root.text.toList) :
    NoWildcard root.trail := by
  rw [hroot.toList_text] at h
  by_cases hsteps : root.steps = []
  · rw [trail, hsteps]
    exact fun _ h => absurd h List.not_mem_nil
  · rwa [if_neg hsteps] at h

section Plain

variable (hroot : root.IsNormal) (hplain : NoWildcard root.text.toList)

include hroot hplain

/-- A pattern that names nothing is read as the root. -/
theorem tokensAt_of_steps_eq_nil (hpattern : IsBelow ⟨pattern⟩)
    (h : steps ⟨pattern⟩ = []) :
    tokensAt root pattern = some (root.text.toList.map Token.literal) := by
  have htext := toList_absolutize hroot hpattern
  rw [if_pos h] at htext
  rw [tokensAt, ← String.ofList_toList (s := (absolutize ⟨pattern⟩ root).text), htext,
    parse_of_noWildcard hplain]
  rfl

/-- A pattern that names something is read as the trail of the root and its own tokens. -/
theorem tokensAt_of_steps_ne_nil (hpattern : IsBelow ⟨pattern⟩) (h : steps ⟨pattern⟩ ≠ []) :
    tokensAt root pattern =
      (tokensBelow pattern).map (root.trail.map Token.literal ++ ·) := by
  obtain ⟨c, cs, hcs⟩ := exists_trail_eq h
  have htext := toList_absolutize hroot hpattern
  rw [if_neg h, hcs] at htext
  rw [tokensAt, tokensBelow, ← String.ofList_toList (s := (absolutize ⟨pattern⟩ root).text), htext,
    hcs, parse_append (noWildcard_trail hroot hplain)]
  cases parse (String.ofList ('/' :: c :: cs)) <;> rfl

theorem all_isOrderedBranch_tokensAt (hpattern : IsBelow ⟨pattern⟩) :
    (tokensAt root pattern).all isOrderedBranch =
      if steps ⟨pattern⟩ = [] then true else (tokensBelow pattern).all isOrderedBranch := by
  split
  · next h =>
    have hliterals := isOrderedBranch_append root.text.toList []
    rw [List.append_nil] at hliterals
    rw [tokensAt_of_steps_eq_nil hroot hplain hpattern h, Option.all_some, hliterals]
    rfl
  · next h =>
    rw [tokensAt_of_steps_ne_nil hroot hplain hpattern h]
    cases tokensBelow pattern with
    | none => rfl
    | some ts => exact isOrderedBranch_append root.trail ts

/-- Which files match a pattern depends on the root only where a file names nothing. -/
theorem any_isMatch_tokensAt (hpattern : IsBelow ⟨pattern⟩) (hfile : file.IsBelow) :
    (tokensAt root pattern).any (isMatch · (file.absolutize root)) =
      if steps ⟨pattern⟩ = [] then decide (file.steps = [])
      else (tokensBelow pattern).any (isMatch · ⟨String.ofList (behindTrail root file)⟩) := by
  split
  · next h =>
    have hne : root.text.toList ≠ [] := by
      simpa using text_ne_empty_of_isAbsolute hroot.isAbsolute
    rw [tokensAt_of_steps_eq_nil hroot hplain hpattern h, Option.any_some, Bool.eq_iff_iff,
      decide_eq_true_eq, isMatch_literals hne, toList_absolutize_eq_iff hroot hfile]
  · next h =>
    rw [tokensAt_of_steps_ne_nil hroot hplain hpattern h, absolutize_eq hroot hfile]
    rw [tokensBelow]
    obtain ⟨c, cs, hcs⟩ := exists_trail_eq h
    cases hread : parse (String.ofList (trail ⟨pattern⟩)) with
    | error e => simp only [Except.toOption, Option.map_none, Option.any_none]
    | ok ts =>
      rw [hcs] at hread
      obtain ⟨t, rest, rfl, ht⟩ := exists_isSlash_of_parse hread
      simp only [Except.toOption, Option.map_some, Option.any_some,
        isMatch_append ht rest root.trail (behindTrail_eq root file)]

end Plain

/-! ## All patterns and files -/

/-- Below two roots without wildcards, the same files match, unless they name nothing and one root is
the topmost folder. -/
theorem filesMatch_eq_of_noWildcard (hroot : root.IsNormal) (hother : other.IsNormal)
    (hplain : NoWildcard root.text.toList) (hplain' : NoWildcard other.text.toList)
    {files : List Path} {patterns : List String}
    (hfiles : ∀ file ∈ files, file.IsBelow) (hpatterns : ∀ pattern ∈ patterns, IsBelow ⟨pattern⟩)
    (hbehind : ∀ file ∈ files, behindTrail root file = behindTrail other file) :
    filesMatch files patterns root = filesMatch files patterns other := by
  have hordered : ∀ pattern ∈ patterns, (tokensAt root pattern).all isOrderedBranch =
      (tokensAt other pattern).all isOrderedBranch := by
    intro pattern hpattern
    rw [all_isOrderedBranch_tokensAt hroot hplain (hpatterns pattern hpattern),
      all_isOrderedBranch_tokensAt hother hplain' (hpatterns pattern hpattern)]
  have hmatch : ∀ file ∈ files, ∀ pattern ∈ patterns,
      (tokensAt root pattern).any (isMatch · (file.absolutize root)) =
        (tokensAt other pattern).any (isMatch · (file.absolutize other)) := by
    intro file hfile pattern hpattern
    rw [any_isMatch_tokensAt hroot hplain (hpatterns pattern hpattern) (hfiles file hfile),
      any_isMatch_tokensAt hother hplain' (hpatterns pattern hpattern) (hfiles file hfile),
      hbehind file hfile]
  rw [filesMatch_eq, filesMatch_eq, Bool.eq_iff_iff, Bool.and_eq_true, Bool.and_eq_true,
    List.all_eq_true, List.all_eq_true, List.any_eq_true, List.any_eq_true]
  refine and_congr (forall₂_congr fun pattern hpattern => ?_)
    (exists_congr fun file => and_congr_right fun hfile => ?_)
  · rw [hordered pattern hpattern]
  · rw [List.any_eq_true, List.any_eq_true]
    refine exists_congr fun pattern => and_congr_right fun hpattern => ?_
    rw [hmatch file hfile pattern hpattern]

/-! ## Files that name nothing -/

theorem behindTrail_of_hasName (h : file.IsBelow) (hname : file.HasName) (root : Path) :
    behindTrail root file = file.trail :=
  if_neg (h.steps_ne_nil_iff.mpr hname)

theorem isBelow_dot : IsBelow ⟨"."⟩ :=
  ⟨by decide, by decide⟩

theorem isBelow_star : IsBelow ⟨"*"⟩ :=
  ⟨by decide, by decide⟩

theorem filesMatch_singleton (file : Path) (pattern : String) (root : Path) :
    filesMatch [file] [pattern] root = ((tokensAt root pattern).all isOrderedBranch &&
      (tokensAt root pattern).any (isMatch · (file.absolutize root))) := by
  rw [filesMatch_eq]
  simp only [List.all_cons, List.all_nil, List.any_cons, List.any_nil, Bool.and_true, Bool.or_false]

/-- Below a root without wildcards, the root itself matches a star exactly if it is the topmost
folder. -/
theorem filesMatch_dot_star (hroot : root.IsNormal) (hplain : NoWildcard root.text.toList) :
    filesMatch [⟨"."⟩] ["*"] root = true ↔ root.text = "/" := by
  have hsteps : steps ⟨"."⟩ = [] := by decide
  rw [filesMatch_singleton, all_isOrderedBranch_tokensAt hroot hplain isBelow_star,
    any_isMatch_tokensAt hroot hplain isBelow_star isBelow_dot, behindTrail, if_pos hsteps,
    ← hroot.steps_eq_nil_iff]
  by_cases htop : root.steps = []
  · rw [if_pos htop]
    exact iff_of_true (by decide +kernel) htop
  · rw [if_neg htop]
    exact iff_of_false (by decide +kernel) htop

/-! ## Which roots agree -/

/-- Whether the same files of some kind match below two roots, for all patterns below them. -/
def AgreeFor (kind : Path → Prop) (root other : Path) : Prop :=
  ∀ (files : List Path) (patterns : List String), (∀ file ∈ files, file.IsBelow ∧ kind file) →
    (∀ pattern ∈ patterns, IsBelow ⟨pattern⟩) →
      filesMatch files patterns root = filesMatch files patterns other

theorem agreeFor_hasName_of_noWildcard (hroot : root.IsNormal) (hother : other.IsNormal)
    (hplain : NoWildcard root.text.toList) (hplain' : NoWildcard other.text.toList) :
    AgreeFor HasName root other := by
  intro files patterns hfiles hpatterns
  have hbelow : ∀ file ∈ files, file.IsBelow := fun file hfile => (hfiles file hfile).1
  refine filesMatch_eq_of_noWildcard hroot hother hplain hplain' hbelow hpatterns ?_
  intro file hfile
  have hname := (hfiles file hfile).2
  rw [behindTrail_of_hasName (hbelow file hfile) hname,
    behindTrail_of_hasName (hbelow file hfile) hname]

/-- **File patterns below different roots.** Below two roots without wildcards, the same files match
the same patterns as long as they name something. They all do exactly if both roots are the topmost
folder, or neither is. -/
theorem agreeFor_of_noWildcard (hroot : root.IsNormal) (hother : other.IsNormal)
    (hplain : NoWildcard root.text.toList) (hplain' : NoWildcard other.text.toList) :
    AgreeFor HasName root other ∧
      (AgreeFor (fun _ => True) root other ↔ (root.text = "/" ↔ other.text = "/")) := by
  refine ⟨agreeFor_hasName_of_noWildcard hroot hother hplain hplain', fun h => ?_,
    fun htop files patterns hfiles hpatterns => ?_⟩
  · have hstar := h [⟨"."⟩] ["*"] (List.forall_mem_singleton.mpr ⟨isBelow_dot, trivial⟩)
      (List.forall_mem_singleton.mpr isBelow_star)
    rw [← filesMatch_dot_star hroot hplain, ← filesMatch_dot_star hother hplain', hstar]
  · have hbelow : ∀ file ∈ files, file.IsBelow := fun file hfile => (hfiles file hfile).1
    refine filesMatch_eq_of_noWildcard hroot hother hplain hplain' hbelow hpatterns ?_
    intro file _
    rw [← hroot.steps_eq_nil_iff, ← hother.steps_eq_nil_iff] at htop
    rw [behindTrail, behindTrail]
    exact if_congr Iff.rfl (if_congr htop rfl rfl) rfl

theorem agreeFor_of_noWildcard_sample :
    AgreeFor (fun _ => True) ⟨"/repo"⟩ ⟨"/home/my repo, v2"⟩ ∧
      AgreeFor HasName ⟨"/"⟩ ⟨"/repo"⟩ ∧ ¬ AgreeFor (fun _ => True) ⟨"/"⟩ ⟨"/repo"⟩ := by
  have hrepo : IsNormal ⟨"/repo"⟩ := ⟨by decide, by decide⟩
  have hhome : IsNormal ⟨"/home/my repo, v2"⟩ := ⟨by decide, by decide⟩
  have htop : IsNormal ⟨"/"⟩ := ⟨by decide, by decide⟩
  have hrepo' : NoWildcard "/repo".toList := by decide
  have hhome' : NoWildcard "/home/my repo, v2".toList := by decide
  have htop' : NoWildcard "/".toList := by decide
  refine ⟨?_, ?_, ?_⟩
  · exact (agreeFor_of_noWildcard hrepo hhome hrepo' hhome').2.mpr (by decide)
  · exact (agreeFor_of_noWildcard htop hrepo htop' hrepo').1
  · rw [(agreeFor_of_noWildcard htop hrepo htop' hrepo').2]
    decide

/-- The brackets of a root are read as a class of characters. -/
theorem roots_disagree_sample :
    IsNormal ⟨"/repo"⟩ ∧ IsNormal ⟨"/a[b]"⟩ ∧ IsBelow ⟨"x.c"⟩ ∧ HasName ⟨"x.c"⟩ ∧ IsBelow ⟨"*.c"⟩ ∧
      filesMatch [⟨"x.c"⟩] ["*.c"] ⟨"/repo"⟩ = true ∧
      filesMatch [⟨"x.c"⟩] ["*.c"] ⟨"/a[b]"⟩ = false := by
  refine ⟨⟨by decide, by decide⟩, ⟨by decide, by decide⟩, ⟨by decide, by decide⟩,
    ⟨"x.c", by decide⟩, ⟨by decide, by decide⟩, ?_, ?_⟩
  · decide +kernel
  · decide +kernel

end BuildMatrix.Glob
