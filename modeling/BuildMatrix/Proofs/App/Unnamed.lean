import BuildMatrix.Proofs.App.Expansion

/-!
# Templates of apps without a config name

Without a config name, the first placeholder of it in a template is taken away together with the
character before it. All others stay as they are, and the two ends of the cut may make up a new one.

* `App.expandUnnamed`: each placeholder of the config name takes away itself and what is before it.
* `App.cutAtText_of_split`: the first one does.
* `App.ClosesUp`: when the two ends of the cut make up a placeholder.
* `App.expand_without_configName`: when each one does, and when none is left.
-/

namespace BuildMatrix

namespace App

/-! ## Cutting at two characters -/

section

variable {x y : Char} {cs ds : List Char}

theorem cutAtText_eq_none (h : Text.pairs x y cs = 0) : cutAtText [x, y] cs = none := by
  induction cs with
  | nil => rfl
  | cons a cs ih =>
    rw [Text.pairs_cons, Nat.add_eq_zero_iff] at h
    have hstart := mt Text.isPrefixOf_pair_iff.mp (Text.pairs_singleton_iff.mp h.1)
    rw [cutAtText, if_neg hstart, ih h.2]
    rfl

/-- A text is cut at the first place at which the two characters stand together. -/
theorem cutAtText_append (h : Text.pairs x y (cs ++ [x]) = 0) :
    cutAtText [x, y] (cs ++ x :: y :: ds) = some (cs, ds) := by
  induction cs with
  | nil =>
    rw [List.nil_append, cutAtText, if_pos (Text.isPrefixOf_pair_iff.mpr ⟨rfl, rfl⟩)]
    rfl
  | cons a cs ih =>
    have hhead : (cs ++ [x]).head? = (cs ++ x :: y :: ds).head? := by cases cs <;> rfl
    rw [List.cons_append, Text.pairs_cons, Nat.add_eq_zero_iff, hhead] at h
    have hstart := mt Text.isPrefixOf_pair_iff.mp (Text.pairs_singleton_iff.mp h.1)
    rw [List.cons_append, cutAtText, if_neg hstart, ih h.2]
    rfl

end

/-! ## The turns before the last one -/

open TemplatePart

variable {a : App} {template : String}

theorem marks_valueOf_index (a : App) :
    '@' ∉ a.valueOf .index ∨ a.valueOf .index = Placeholder.index.written := by
  cases h : a.index with
  | none =>
    rw [valueOf, h]
    exact Or.inr rfl
  | some i => exact Or.inl (exists_head_index (p := .index) h).1

/-- The first turn, in which an index may be missing. -/
theorem expandIndex_eq (a : App) (template : String) :
    expandIndex a.index template.toList = a.filledBefore .target template := by
  rw [← replaceAll_filledBefore rfl (a.isClear_index template), filledBefore_index, valueOf]
  cases a.index with
  | none => exact (Text.replaceAll_self _ _ _).symm
  | some i => rfl

/-- What is left of the expansion at the last turn, if the others are clear. -/
theorem expandChars_of_isClear (htarget : a.IsClear template .target)
    (hname : a.IsClear template .name) (hfolder : a.IsClear template .folder) :
    a.expandChars template.toList =
      expandConfigName a.configName (a.filledBefore .configName template) := by
  have htarget := replaceAll_filledBefore (q := .name) rfl htarget
  have hname := replaceAll_filledBefore (q := .folder) rfl hname
  have hfolder := replaceAll_filledBefore (q := .configName) rfl hfolder
  rw [expandChars, expandIndex_eq, ← hfolder, ← hname, ← htarget]
  rfl

/-! ## The last turn -/

/-- Parts filled in behind a text so that each placeholder of the config name takes away itself and
the character before it. -/
def fillUnnamed (value : Placeholder → List Char) (done : List Char) (parts : List TemplatePart) :
    List Char :=
  parts.foldl (fun done x =>
    if x = .hole .configName then done.dropLast else done ++ x.text value) done

/-- A template filled in so that each placeholder of the config name takes away itself and the
character before it. -/
def expandUnnamed (a : App) (template : String) : String :=
  String.ofList (fillUnnamed a.valueOf [] (read template.toList))

/-- Whether the text before the first placeholder of the config name, without its last character,
ends with `@` and what follows the placeholder begins with `w`. -/
def ClosesUp (a : App) (template : String) : Prop :=
  ∃ before after, cutAtText ['@', 'w'] (a.filledBefore .configName template) =
      some (before, after) ∧ before.dropLast.getLast? = some '@' ∧ after.head? = some 'w'

section

variable {before after : List TemplatePart}

theorem filledBefore_of_split
    (hsplit : read template.toList = before ++ .hole .configName :: after) :
    a.filledBefore .configName template = fill (a.valueBefore .configName) before ++
      '@' :: 'w' :: fill (a.valueBefore .configName) after := by
  rw [filledBefore, hsplit, fill, List.flatMap_append, List.flatMap_cons, text, valueBefore_self]
  rfl

/-- At the last turn nothing before the first placeholder of the config name looks like one, and as
many follow as there are. -/
theorem pairs_of_split (hclear : a.IsClear template .configName)
    (hsplit : read template.toList = before ++ .hole .configName :: after)
    (hbefore : .hole .configName ∉ before) :
    Text.pairs '@' 'w' (fill (a.valueBefore .configName) before ++ ['@']) = 0 ∧
      Text.pairs '@' 'w' (fill (a.valueBefore .configName) after) =
        after.count (.hole .configName) := by
  have hcount := count_le_pairs_fill (a.valueBefore_self .configName) after
  rw [IsClear, filledBefore_of_split hsplit, hsplit, Text.pairs_append, List.count_append,
    List.count_eq_zero_of_not_mem hbefore, List.count_cons_self, Text.pairs_cons_cons,
    Text.pairs_cons, Text.pairs_singleton_iff.mpr fun h => absurd h.1 (by decide)] at hclear
  simp only [Placeholder.letter] at hclear hcount
  have hhead : ('@' :: 'w' :: fill (a.valueBefore .configName) after).head?.toList = ['@'] := rfl
  rw [hhead] at hclear
  simp only [and_self, if_true] at hclear
  omega

theorem cutAtText_of_split (hclear : a.IsClear template .configName)
    (hsplit : read template.toList = before ++ .hole .configName :: after)
    (hbefore : .hole .configName ∉ before) :
    cutAtText ['@', 'w'] (a.filledBefore .configName template) =
      some (fill (a.valueBefore .configName) before, fill (a.valueBefore .configName) after) := by
  rw [filledBefore_of_split hsplit]
  exact cutAtText_append (pairs_of_split hclear hsplit hbefore).1

theorem cutAtText_of_notMem (hclear : a.IsClear template .configName)
    (hnone : .hole .configName ∉ read template.toList) :
    cutAtText ['@', 'w'] (a.filledBefore .configName template) = none := by
  rw [IsClear, List.count_eq_zero_of_not_mem hnone] at hclear
  exact cutAtText_eq_none hclear

theorem expandConfigName_empty (cs : List Char) : expandConfigName "" cs =
    match cutAtText ['@', 'w'] cs with
    | some (before, after) => before.dropLast ++ after
    | none => cs := by
  rw [expandConfigName]
  exact if_pos (by decide)

/-! ## Each placeholder taken away -/

/-- Nothing but the placeholder of the config name changes at the last turn. -/
theorem fill_valueOf {parts : List TemplatePart} (h : .hole .configName ∉ parts) :
    fill a.valueOf parts = fill (a.valueBefore .configName) parts := by
  refine List.flatMap_congr fun x hx => ?_
  cases x with
  | char c => rfl
  | hole q =>
    cases q with
    | configName => exact absurd hx h
    | _ => rfl

theorem fillUnnamed_append (value : Placeholder → List Char) (done : List Char)
    (parts rest : List TemplatePart) :
    fillUnnamed value done (parts ++ rest) =
      fillUnnamed value (fillUnnamed value done parts) rest :=
  List.foldl_append

theorem fillUnnamed_cons_hole (value : Placeholder → List Char) (done : List Char)
    (parts : List TemplatePart) :
    fillUnnamed value done (.hole .configName :: parts) = fillUnnamed value done.dropLast parts :=
  rfl

theorem fillUnnamed_cons {value : Placeholder → List Char} {x : TemplatePart}
    (h : x ≠ .hole .configName) (done : List Char) (parts : List TemplatePart) :
    fillUnnamed value done (x :: parts) = fillUnnamed value (done ++ x.text value) parts := by
  rw [fillUnnamed, List.foldl_cons, if_neg h, fillUnnamed]

theorem fillUnnamed_of_notMem {value : Placeholder → List Char} {parts : List TemplatePart}
    (h : .hole .configName ∉ parts) (done : List Char) :
    fillUnnamed value done parts = done ++ fill value parts := by
  induction parts generalizing done with
  | nil => simp [fillUnnamed, fill]
  | cons x parts ih =>
    rw [List.mem_cons, not_or] at h
    rw [fillUnnamed_cons (Ne.symm h.1), ih h.2, fill_cons, List.append_assoc]

theorem fillUnnamed_of_split {value : Placeholder → List Char}
    (hbefore : .hole .configName ∉ before) :
    fillUnnamed value [] (before ++ .hole .configName :: after) =
      fillUnnamed value (fill value before).dropLast after := by
  rw [fillUnnamed_append, fillUnnamed_of_notMem hbefore, List.nil_append, fillUnnamed_cons_hole]

/-- A placeholder that is taken away makes the text shorter than one that stays. -/
theorem length_fillUnnamed (a : App) (done : List Char) (parts : List TemplatePart) :
    (fillUnnamed a.valueOf done parts).length + parts.count (.hole .configName) ≤
      done.length + (fill (a.valueBefore .configName) parts).length := by
  induction parts generalizing done with
  | nil => simp [fillUnnamed, fill]
  | cons x parts ih =>
    rw [fill_cons, List.length_append]
    -- The placeholder takes away its own two characters, and the one before it if there is one.
    by_cases hx : x = .hole .configName
    · subst hx
      have hrest := ih done.dropLast
      have hwritten : (text (a.valueBefore .configName) (.hole .configName)).length = 2 := by
        rw [text, valueBefore_self]
        rfl
      rw [List.length_dropLast] at hrest
      rw [fillUnnamed_cons_hole, List.count_cons_self, hwritten]
      omega
    · have hrest := ih (done ++ x.text a.valueOf)
      have htext : x.text a.valueOf = x.text (a.valueBefore .configName) := by
        have hsingle : .hole .configName ∉ [x] := by simpa using Ne.symm hx
        have hfill := fill_valueOf (a := a) hsingle
        simpa [fill] using hfill
      rw [List.length_append, htext] at hrest
      rw [fillUnnamed_cons hx, List.count_cons_of_ne hx, htext]
      omega

/-- Cutting the first placeholder out is taking each away when there is no other one. -/
theorem cut_eq_fillUnnamed_iff (a : App) (hbefore : .hole .configName ∉ before) :
    (fill (a.valueBefore .configName) before).dropLast ++ fill (a.valueBefore .configName) after =
        fillUnnamed a.valueOf [] (before ++ .hole .configName :: after) ↔
      after.count (.hole .configName) = 0 := by
  rw [fillUnnamed_of_split hbefore, fill_valueOf hbefore]
  constructor
  · intro heq
    have hlength := length_fillUnnamed a (fill (a.valueBefore .configName) before).dropLast after
    rw [← heq, List.length_append] at hlength
    omega
  · intro hnone
    have hafter : .hole .configName ∉ after := List.count_eq_zero.mp hnone
    rw [fillUnnamed_of_notMem hafter, fill_valueOf hafter]

/-- The placeholders that are left, and the one that the two ends of the cut may make up. -/
theorem pairs_cut_eq_zero_iff (hclear : a.IsClear template .configName)
    (hsplit : read template.toList = before ++ .hole .configName :: after)
    (hbefore : .hole .configName ∉ before) :
    Text.pairs '@' 'w' ((fill (a.valueBefore .configName) before).dropLast ++
        fill (a.valueBefore .configName) after) = 0 ↔
      after.count (.hole .configName) = 0 ∧ ¬a.ClosesUp template := by
  obtain ⟨hfirst, hrest⟩ := pairs_of_split hclear hsplit hbefore
  have hkept : Text.pairs '@' 'w' (fill (a.valueBefore .configName) before).dropLast = 0 :=
    Text.pairs_eq_zero_of_infix
      ((List.dropLast_prefix _).trans (List.prefix_append _ _)).isInfix hfirst
  have hcloses : a.ClosesUp template ↔
      (fill (a.valueBefore .configName) before).dropLast.getLast? = some '@' ∧
        (fill (a.valueBefore .configName) after).head? = some 'w' := by
    rw [ClosesUp, cutAtText_of_split hclear hsplit hbefore]
    simp
  rw [Text.pairs_append_eq, hkept, hrest, hcloses, Nat.zero_add, Nat.add_eq_zero_iff]
  simp

end

/-! ## The expansion -/

/-- What a template gives without a config name, for texts that bring no placeholders along. -/
theorem toList_expand_unnamed (hconfig : a.configName = "") (htarget : '@' ∉ a.target.toList)
    (hfolder : '@' ∉ a.folder.text.toList)
    (hmarks : Text.pairs '@' '@' template.toList = 0) :
    (a.expand template).toList = expandConfigName "" (a.filledBefore .configName template) ∧
      a.IsClear template .configName := by
  have hlone : HasLoneMarks (read template.toList) :=
    hasLoneMarks_of_pairs (by rwa [fill_written_read])
  have hclear {p : Placeholder} : a.IsClear template p :=
    isClear_of_hasLoneMarks a.marks_valueOf_index htarget hfolder hlone
  refine ⟨?_, hclear⟩
  rw [expand, String.toList_ofList, expandChars_of_isClear hclear hclear hclear, hconfig]

/-- **Without a config name a template loses its first placeholder of it**, together with the
character before it, if neither the target nor the folder holds an `@` and no `@` of the template is
directly followed by another one. So each placeholder is taken away in this manner exactly if the
template has at most one of them. The expansion then holds none, unless the two ends of the cut make
up a new one; of several placeholders some are left. -/
theorem expand_without_configName (hconfig : a.configName = "")
    (htarget : '@' ∉ a.target.toList) (hfolder : '@' ∉ a.folder.text.toList)
    (hmarks : Text.pairs '@' '@' template.toList = 0) :
    (a.expand template = a.expandUnnamed template ↔ Text.pairs '@' 'w' template.toList ≤ 1) ∧
    (Text.pairs '@' 'w' (a.expand template).toList = 0 ↔
      Text.pairs '@' 'w' template.toList ≤ 1 ∧ ¬a.ClosesUp template) := by
  obtain ⟨hexpand, hclear⟩ := toList_expand_unnamed hconfig htarget hfolder hmarks
  have hcount : Text.pairs '@' 'w' template.toList =
      (read template.toList).count (.hole .configName) := pairs_read .configName _
  rw [expandUnnamed, ← String.toList_inj, String.toList_ofList, hexpand, hcount,
    expandConfigName_empty]
  -- Cutting at the first placeholder is right exactly if no other one follows it.
  by_cases hmem : .hole .configName ∈ read template.toList
  · obtain ⟨before, after, hsplit, hbefore⟩ := List.eq_append_cons_of_mem hmem
    have hone : (read template.toList).count (.hole .configName) ≤ 1 ↔
        after.count (.hole .configName) = 0 := by
      rw [hsplit, List.count_append, List.count_eq_zero_of_not_mem hbefore, List.count_cons_self]
      omega
    rw [cutAtText_of_split hclear hsplit hbefore, hone]
    refine ⟨?_, pairs_cut_eq_zero_iff hclear hsplit hbefore⟩
    rw [hsplit]
    exact cut_eq_fillUnnamed_iff a hbefore
  · have hcut := cutAtText_of_notMem hclear hmem
    have hnone : (read template.toList).count (.hole .configName) = 0 :=
      List.count_eq_zero_of_not_mem hmem
    have hopen : ¬a.ClosesUp template := by
      rintro ⟨before, after, hsome, -⟩
      exact absurd (hcut.symm.trans hsome) nofun
    rw [hcut, hnone]
    refine ⟨⟨fun _ => Nat.zero_le 1, fun _ => ?_⟩, ⟨fun _ => ⟨Nat.zero_le 1, hopen⟩, fun _ => ?_⟩⟩
    · rw [fillUnnamed_of_notMem hmem, List.nil_append, fill_valueOf hmem, filledBefore]
    · exact hclear.trans hnone

/-- An app without a config name. -/
def blinkApp : App :=
  { folder := ⟨"/x/blink"⟩, target := "esp32" }

theorem expand_without_configName_sample :
    (blinkApp.expand "@t/build_@w" = blinkApp.expandUnnamed "@t/build_@w" ∧
      blinkApp.expandUnnamed "@t/build_@w" = "esp32/build") ∧
    blinkApp.expand "build_@w_@w" ≠ blinkApp.expandUnnamed "build_@w_@w" := by
  refine ⟨⟨?_, by decide +kernel⟩, ?_⟩
  · exact (expand_without_configName rfl (by decide) (by decide) (by decide)).1.mpr (by decide)
  · exact mt (expand_without_configName rfl (by decide) (by decide) (by decide)).1.mp (by decide)

/-- The second placeholder stays, and the ends of a cut make up a placeholder. -/
theorem second_placeholder_stays :
    blinkApp.expand "build_@w_@w" = "build_@w" ∧ blinkApp.expandUnnamed "build_@w_@w" = "build" ∧
      blinkApp.expand "@x@ww" = "@w" := by
  decide +kernel

end App

end BuildMatrix
