import BuildMatrix.Manifest.Document
import BuildMatrix.Proofs.Text.Sorted
import Mathlib.Data.List.Induction

/-!
# What postfix lists say

Postfix lists act on a list one after the other, and each of them takes the list apart and puts it
together again. For a clause or a text only its last mention counts, whichever list it is in.

* `Manifest.Parts.IsTidy`: parts that are what they make up.
* `Manifest.Parts.IsTidy.start_toList`, `Manifest.applyAll_eq_toList`: putting a list together and
  taking it apart changes nothing, so the lists act as one list of mentions.
* `Manifest.lastMention?`: the last mention of a clause or a text.
* `Manifest.applyAll_last_mention`: what is in the list in the end.
-/

namespace BuildMatrix.Manifest

/-! ## Kinds of entries -/

section

variable {entry : Yaml} {key s : String}

/-- The text that an entry of a list is; mappings are none. -/
def textOf? (entry : Yaml) : Option String :=
  if entry.isMap then none else some (scalarText entry)

/-- The `if` key is looked up as it is written, without a tag. -/
theorem isSome_ifKey? (entry : Yaml) :
    (ifKey? entry).isSome = ((entry.asMap?.getD []).getText? "if").isSome := by
  rw [ifKey?]
  cases entry.asMap? with
  | none => rfl
  | some es =>
    rw [Option.bind_some, Option.getD_some]
    cases es.getText? "if" with
    | none => rfl
    | some stmt =>
      dsimp only
      cases stmt.asString? <;> rfl

theorem isMap_of_ifKey? (h : ifKey? entry = some key) : entry.isMap = true := by
  rw [Yaml.isMap]
  unfold ifKey? at h
  cases hmap : entry.asMap? with
  | none =>
    rw [hmap] at h
    exact absurd h nofun
  | some es => rfl

theorem ifKey?_eq_none (h : entry.isMap = false) : ifKey? entry = none := by
  cases hkey : ifKey? entry with
  | none => rfl
  | some key => exact absurd ((isMap_of_ifKey? hkey).symm.trans h) (by decide)

theorem textOf?_of_isMap (h : entry.isMap = true) : textOf? entry = none := by
  rw [textOf?, if_pos h]

theorem textOf?_of_not_isMap (h : entry.isMap = false) :
    textOf? entry = some (scalarText entry) := by
  rw [textOf?, h, if_neg (by decide)]

/-- An entry has an `if` key, or it is another mapping, or it is a text. -/
theorem kind_cases (entry : Yaml) :
    (∃ key, ifKey? entry = some key) ∨ (entry.isMap = true ∧ ifKey? entry = none) ∨
      entry.isMap = false := by
  cases hkey : ifKey? entry with
  | some key => exact Or.inl ⟨key, rfl⟩
  | none =>
    cases hmap : entry.isMap with
    | true => exact Or.inr (Or.inl ⟨rfl, rfl⟩)
    | false => exact Or.inr (Or.inr rfl)

end

namespace Parts

variable {p : Parts} {op : Postfix} {entry : Yaml} {key s : String}

/-! ## One entry -/

theorem start_of_ifKey? (h : ifKey? entry = some key) :
    p.start entry = { p with conditional := p.conditional ++ [entry] } := by
  rw [start, h]
  rfl

theorem start_of_isMap (h : entry.isMap = true) (hkey : ifKey? entry = none) :
    p.start entry = { p with mappings := p.mappings ++ [entry] } := by
  rw [start, hkey, if_neg (by decide), if_pos h]

theorem start_of_not_isMap (h : entry.isMap = false) :
    p.start entry = { p with texts := Text.insertSorted (scalarText entry) p.texts } := by
  rw [start, ifKey?_eq_none h, h, if_neg (by decide), if_neg (by decide)]

theorem apply_of_ifKey? (h : ifKey? entry = some key) :
    p.apply op entry = { p with
      conditional := (p.conditional.filter fun e => ifKey? e ≠ some key) ++
        if op = .add then [entry] else [] } := by
  unfold apply
  rw [h]
  cases op with
  | add => rfl
  | remove => simp

theorem apply_of_isMap (h : entry.isMap = true) (hkey : ifKey? entry = none) :
    p.apply op entry = { p with
      mappings := if op = .add then p.mappings ++ [entry]
        else p.mappings.filter fun e => !e.equal entry } := by
  unfold apply
  rw [hkey, h]
  cases op <;> rfl

theorem apply_of_not_isMap (h : entry.isMap = false) :
    p.apply op entry = { p with
      texts := if op = .add then Text.insertSorted (scalarText entry) p.texts
        else p.texts.filter (· ≠ scalarText entry) } := by
  unfold apply
  rw [ifKey?_eq_none h, h]
  cases op <;> rfl

/-! ## Tidy parts -/

/-- Whether parts are what they make up: each entry is of its kind, and the texts rise. -/
structure IsTidy (p : Parts) : Prop where
  conditional : ∀ e ∈ p.conditional, ∃ key, ifKey? e = some key
  mappings : ∀ e ∈ p.mappings, e.isMap = true ∧ ifKey? e = none
  texts : p.texts.Pairwise (· < ·)

theorem isTidy_empty : IsTidy {} :=
  ⟨nofun, nofun, List.Pairwise.nil⟩

theorem IsTidy.start (h : p.IsTidy) (entry : Yaml) : (p.start entry).IsTidy := by
  rcases kind_cases entry with ⟨key, hkey⟩ | ⟨hmap, hkey⟩ | htext
  · rw [start_of_ifKey? hkey]
    refine ⟨fun e he => ?_, h.mappings, h.texts⟩
    rcases List.mem_append.mp he with he | he
    · exact h.conditional e he
    · exact List.mem_singleton.mp he ▸ ⟨key, hkey⟩
  · rw [start_of_isMap hmap hkey]
    refine ⟨h.conditional, fun e he => ?_, h.texts⟩
    rcases List.mem_append.mp he with he | he
    · exact h.mappings e he
    · exact List.mem_singleton.mp he ▸ ⟨hmap, hkey⟩
  · rw [start_of_not_isMap htext]
    exact ⟨h.conditional, h.mappings, Text.pairwise_insertSorted h.texts⟩

theorem IsTidy.apply (h : p.IsTidy) (op : Postfix) (entry : Yaml) : (p.apply op entry).IsTidy := by
  rcases kind_cases entry with ⟨key, hkey⟩ | ⟨hmap, hkey⟩ | htext
  · rw [apply_of_ifKey? hkey]
    refine ⟨fun e he => ?_, h.mappings, h.texts⟩
    rcases List.mem_append.mp he with he | he
    · exact h.conditional e ((List.mem_filter.mp he).1)
    · cases op with
      | add => exact List.mem_singleton.mp he ▸ ⟨key, hkey⟩
      | remove => exact absurd he nofun
  · rw [apply_of_isMap hmap hkey]
    refine ⟨h.conditional, fun e he => ?_, h.texts⟩
    cases op with
    | add =>
      rcases List.mem_append.mp he with he | he
      · exact h.mappings e he
      · exact List.mem_singleton.mp he ▸ ⟨hmap, hkey⟩
    | remove => exact h.mappings e ((List.mem_filter.mp he).1)
  · rw [apply_of_not_isMap htext]
    refine ⟨h.conditional, h.mappings, ?_⟩
    cases op with
    | add => exact Text.pairwise_insertSorted h.texts
    | remove => exact h.texts.filter _

theorem isTidy_foldl_start (items : List Yaml) : (items.foldl Parts.start {}).IsTidy := by
  induction items using List.reverseRecOn with
  | nil => exact isTidy_empty
  | append_singleton items entry ih =>
    rw [List.foldl_append]
    exact ih.start entry

/-! ## Taking lists apart -/

/-- Taking a list apart sorts out its clauses, its other mappings and its texts. -/
theorem foldl_start (p : Parts) (items : List Yaml) :
    items.foldl Parts.start p =
      { conditional := p.conditional ++ items.filter fun e => (ifKey? e).isSome
        mappings := p.mappings ++ items.filter fun e => e.isMap && !(ifKey? e).isSome
        texts := (items.filterMap textOf?).foldl
          (fun sorted t => Text.insertSorted t sorted) p.texts } := by
  induction items generalizing p with
  | nil => simp
  | cons entry items ih =>
    rw [List.foldl_cons, ih]
    rcases kind_cases entry with ⟨key, hkey⟩ | ⟨hmap, hkey⟩ | htext
    · simp [start_of_ifKey? hkey, hkey, textOf?_of_isMap (isMap_of_ifKey? hkey)]
    · simp [start_of_isMap hmap hkey, hmap, hkey, textOf?_of_isMap hmap]
    · simp [start_of_not_isMap htext, htext, ifKey?_eq_none htext, textOf?_of_not_isMap htext]

theorem conditional_foldl_start (items : List Yaml) :
    (items.foldl Parts.start {}).conditional = items.filter fun e => (ifKey? e).isSome := by
  rw [foldl_start]
  rfl

theorem mappings_foldl_start (items : List Yaml) :
    (items.foldl Parts.start {}).mappings =
      items.filter fun e => e.isMap && !(ifKey? e).isSome := by
  rw [foldl_start]
  rfl

theorem mem_texts_foldl_start_iff (items : List Yaml) :
    s ∈ (items.foldl Parts.start {}).texts ↔ ∃ e ∈ items, textOf? e = some s := by
  rw [foldl_start, Text.mem_foldl_insertSorted_iff, or_iff_right List.not_mem_nil,
    List.mem_filterMap]

/-- Taking apart what tidy parts make up gives the parts. -/
theorem IsTidy.start_toList (h : p.IsTidy) : p.toList.foldl Parts.start {} = p := by
  have hclause : ∀ e ∈ p.conditional, (ifKey? e).isSome = true ∧ e.isMap = true := by
    intro e he
    obtain ⟨key, hkey⟩ := h.conditional e he
    exact ⟨hkey ▸ rfl, isMap_of_ifKey? hkey⟩
  have hmapping : ∀ e ∈ p.mappings, (ifKey? e).isSome = false ∧ e.isMap = true := fun e he =>
    ⟨(h.mappings e he).2 ▸ rfl, (h.mappings e he).1⟩
  have htext : ∀ e ∈ p.texts.map Yaml.string, (ifKey? e).isSome = false ∧ e.isMap = false := by
    intro e he
    obtain ⟨t, -, rfl⟩ := List.mem_map.mp he
    exact ⟨rfl, rfl⟩
  -- Each part holds entries of one kind only, so sorting a kind out gives its part.
  have hconditional : p.toList.filter (fun e => (ifKey? e).isSome) = p.conditional := by
    rw [toList, List.filter_append, List.filter_append,
      List.filter_eq_self.mpr fun e he => (hclause e he).1,
      List.filter_eq_nil_iff.mpr fun e he => by simp [(hmapping e he).1],
      List.filter_eq_nil_iff.mpr fun e he => by simp [(htext e he).1],
      List.append_nil, List.append_nil]
  have hmappings : p.toList.filter (fun e => e.isMap && !(ifKey? e).isSome) = p.mappings := by
    rw [toList, List.filter_append, List.filter_append,
      List.filter_eq_nil_iff.mpr fun e he => by simp [(hclause e he).1],
      List.filter_eq_self.mpr fun e he => by simp [hmapping e he],
      List.filter_eq_nil_iff.mpr fun e he => by simp [(htext e he).2],
      List.nil_append, List.append_nil]
  have htexts : p.toList.filterMap textOf? = p.texts := by
    rw [toList, List.filterMap_append, List.filterMap_append,
      List.filterMap_eq_nil_iff.mpr fun e he => textOf?_of_isMap (hclause e he).2,
      List.filterMap_eq_nil_iff.mpr fun e he => textOf?_of_isMap (hmapping e he).2,
      List.filterMap_map]
    exact List.filterMap_some
  rw [foldl_start, hconditional, hmappings, htexts,
    Text.foldl_insertSorted (by rw [List.nil_append]; exact h.texts)]
  rfl

/-! ## What an entry of a postfix list does -/

/-- An entry decides about the clauses with its key, and about no others. -/
theorem filter_conditional_apply (p : Parts) (op : Postfix) (entry : Yaml) (key : String) :
    ((p.apply op entry).conditional.filter fun e => ifKey? e = some key) =
      if ifKey? entry = some key then if op = .add then [entry] else []
      else p.conditional.filter fun e => ifKey? e = some key := by
  have hother : ifKey? entry = none → ¬ ifKey? entry = some key := fun h => by rw [h]; nofun
  rcases kind_cases entry with ⟨key', hkey⟩ | ⟨hmap, hkey⟩ | htext
  · rw [apply_of_ifKey? hkey, List.filter_append, List.filter_filter]
    by_cases heq : key' = key
    · subst heq
      rw [if_pos hkey]
      cases op <;> simp [hkey]
    · have hne : ¬ ifKey? entry = some key := by rw [hkey]; exact fun h => heq (Option.some.inj h)
      have hkept : ∀ e ∈ p.conditional, (decide (ifKey? e = some key) &&
          decide (ifKey? e ≠ some key')) = decide (ifKey? e = some key) := by
        intro e _
        by_cases he : ifKey? e = some key
        · simp [he, Ne.symm heq]
        · simp [he]
      rw [if_neg hne, List.filter_congr hkept]
      cases op <;> simp [hne]
  · rw [apply_of_isMap hmap hkey, if_neg (hother hkey)]
  · rw [apply_of_not_isMap htext, if_neg (hother (ifKey?_eq_none htext))]

/-- An entry decides about its text, and about no other. -/
theorem mem_texts_apply_iff (p : Parts) (op : Postfix) (entry : Yaml) :
    s ∈ (p.apply op entry).texts ↔
      if textOf? entry = some s then op = .add else s ∈ p.texts := by
  have hother : textOf? entry = none → ¬ textOf? entry = some s := fun h => by rw [h]; nofun
  rcases kind_cases entry with ⟨key', hkey⟩ | ⟨hmap, hkey⟩ | htext
  · rw [apply_of_ifKey? hkey, if_neg (hother (textOf?_of_isMap (isMap_of_ifKey? hkey)))]
  · rw [apply_of_isMap hmap hkey, if_neg (hother (textOf?_of_isMap hmap))]
  · rw [apply_of_not_isMap htext]
    by_cases heq : scalarText entry = s
    · subst heq
      rw [if_pos (textOf?_of_not_isMap htext)]
      cases op with
      | add => simp [Text.mem_insertSorted_iff]
      | remove => simp
    · rw [textOf?_of_not_isMap htext, if_neg fun h => heq (Option.some.inj h)]
      cases op with
      | add => simp [Text.mem_insertSorted_iff, Ne.symm heq]
      | remove => simp [Ne.symm heq]

/-- An entry leaves the clauses with other keys as they are. -/
theorem filter_conditional_apply_of_not (p : Parts) (op : Postfix) {entry : Yaml}
    {keep : Option String → Bool} (h : keep (ifKey? entry) = false) :
    ((p.apply op entry).conditional.filter fun e => keep (ifKey? e)) =
      p.conditional.filter fun e => keep (ifKey? e) := by
  rcases kind_cases entry with ⟨key, hkey⟩ | ⟨hmap, hkey⟩ | htext
  · have hkept : ∀ e ∈ p.conditional, (keep (ifKey? e) && decide (ifKey? e ≠ some key)) =
        keep (ifKey? e) := by
      intro e _
      by_cases he : ifKey? e = some key
      · rw [he, ← hkey, h, Bool.false_and]
      · simp [he]
    rw [apply_of_ifKey? hkey, List.filter_append, List.filter_filter, List.filter_congr hkept]
    cases op <;> simp [h]
  · rw [apply_of_isMap hmap hkey]
  · rw [apply_of_not_isMap htext]

end Parts

/-! ## Several lists -/

/-- Applies postfix lists one after the other. -/
def applyAll (current : List Yaml) (lists : List (List Yaml × Postfix)) : List Yaml :=
  lists.foldl (fun items l => applyPostfix items l.1 l.2) current

/-- The entries of postfix lists in their order, each with what its list does. -/
def mentions (lists : List (List Yaml × Postfix)) : List (Yaml × Postfix) :=
  lists.flatMap fun l => l.1.map (·, l.2)

/-- What entries do to the parts of a list. -/
def Parts.applyMentions (p : Parts) (ms : List (Yaml × Postfix)) : Parts :=
  ms.foldl (fun p m => p.apply m.2 m.1) p

/-- The last entry of a kind. -/
def lastMention? (is : Yaml → Bool) (ms : List (Yaml × Postfix)) : Option (Yaml × Postfix) :=
  (ms.filter fun m => is m.1).getLast?

section

variable {p : Parts} {current : List Yaml} {lists : List (List Yaml × Postfix)}
  {ms : List (Yaml × Postfix)} {m : Yaml × Postfix} {is : Yaml → Bool} {s key : String}

theorem Parts.applyMentions_concat (p : Parts) (ms : List (Yaml × Postfix)) (m : Yaml × Postfix) :
    p.applyMentions (ms ++ [m]) = (p.applyMentions ms).apply m.2 m.1 := by
  rw [applyMentions, List.foldl_append]
  rfl

theorem lastMention?_concat (is : Yaml → Bool) (ms : List (Yaml × Postfix))
    (m : Yaml × Postfix) :
    lastMention? is (ms ++ [m]) = if is m.1 then some m else lastMention? is ms := by
  rw [lastMention?, List.filter_append]
  by_cases h : is m.1 = true
  · have hone : [m].filter (fun m => is m.1) = [m] := List.filter_cons_of_pos h
    rw [if_pos h, hone, List.getLast?_concat]
  · have hnone : [m].filter (fun m => is m.1) = [] := List.filter_cons_of_neg h
    rw [if_neg h, hnone, List.append_nil, lastMention?]

theorem lastMention?_eq_none_iff : lastMention? is ms = none ↔ ∀ m ∈ ms, ¬ is m.1 = true := by
  rw [lastMention?, List.getLast?_eq_none_iff, List.filter_eq_nil_iff]

theorem Parts.IsTidy.applyMentions (h : p.IsTidy) (ms : List (Yaml × Postfix)) :
    (p.applyMentions ms).IsTidy := by
  induction ms using List.reverseRecOn with
  | nil => exact h
  | append_singleton ms m ih =>
    rw [Parts.applyMentions_concat]
    exact ih.apply m.2 m.1

/-- One list does what its entries do. -/
theorem applyPostfix_eq (current entries : List Yaml) (op : Postfix) :
    applyPostfix current entries op =
      ((current.foldl Parts.start {}).applyMentions (entries.map (·, op))).toList := by
  rw [applyPostfix, Parts.applyMentions, List.foldl_map]

/-- Lists that act on what tidy parts make up do what their entries do. -/
theorem applyAll_toList (h : p.IsTidy) (lists : List (List Yaml × Postfix)) :
    applyAll p.toList lists = (p.applyMentions (mentions lists)).toList := by
  induction lists generalizing p with
  | nil => rfl
  | cons l lists ih =>
    have hstep : applyPostfix p.toList l.1 l.2 = (p.applyMentions (l.1.map (·, l.2))).toList := by
      rw [applyPostfix_eq, h.start_toList]
    have hmentions : mentions (l :: lists) = l.1.map (·, l.2) ++ mentions lists :=
      List.flatMap_cons
    rw [applyAll, List.foldl_cons, hstep, ← applyAll, ih (h.applyMentions _), hmentions,
      Parts.applyMentions, Parts.applyMentions, Parts.applyMentions, List.foldl_append]

/-- Lists, of which there is at least one, do what their entries do to the parts of the list. -/
theorem applyAll_eq_toList (current : List Yaml) (h : lists ≠ []) :
    applyAll current lists =
      ((current.foldl Parts.start {}).applyMentions (mentions lists)).toList := by
  have htidy := Parts.isTidy_foldl_start current
  obtain ⟨l, rest, rfl⟩ := List.exists_cons_of_ne_nil h
  calc applyAll current (l :: rest) = applyAll (applyPostfix current l.1 l.2) rest := rfl
    _ = applyAll (applyPostfix (current.foldl Parts.start {}).toList l.1 l.2) rest := by
        rw [applyPostfix_eq current, applyPostfix_eq (Parts.toList _), htidy.start_toList]
    _ = applyAll (current.foldl Parts.start {}).toList (l :: rest) := rfl
    _ = _ := applyAll_toList htidy _

/-! ## Last mentions -/

/-- The last mention of a key decides about its clauses. -/
theorem Parts.filter_conditional_applyMentions (p : Parts) (ms : List (Yaml × Postfix))
    (key : String) :
    ((p.applyMentions ms).conditional.filter fun e => ifKey? e = some key) =
      match lastMention? (fun e => ifKey? e = some key) ms with
      | some (e, op) => if op = .add then [e] else []
      | none => p.conditional.filter fun e => ifKey? e = some key := by
  induction ms using List.reverseRecOn with
  | nil => rfl
  | append_singleton ms m ih =>
    rw [applyMentions_concat, filter_conditional_apply, lastMention?_concat]
    by_cases h : ifKey? m.1 = some key
    · rw [if_pos h, if_pos (decide_eq_true h)]
    · rw [if_neg h, if_neg (by simpa using h), ih]

/-- The last mention of a text decides about it. -/
theorem Parts.mem_texts_applyMentions_iff (p : Parts) (ms : List (Yaml × Postfix)) (s : String) :
    s ∈ (p.applyMentions ms).texts ↔
      match lastMention? (fun e => textOf? e = some s) ms with
      | some (_, op) => op = .add
      | none => s ∈ p.texts := by
  induction ms using List.reverseRecOn with
  | nil => exact Iff.rfl
  | append_singleton ms m ih =>
    rw [applyMentions_concat, mem_texts_apply_iff, lastMention?_concat]
    by_cases h : textOf? m.1 = some s
    · rw [if_pos h, if_pos (decide_eq_true h)]
    · rw [if_neg h, if_neg (by simpa using h), ih]

/-- Clauses whose keys are not mentioned stay as they are. -/
theorem Parts.filter_conditional_applyMentions_of_not (p : Parts) {keep : Option String → Bool}
    (h : ∀ m ∈ ms, keep (ifKey? m.1) = false) :
    ((p.applyMentions ms).conditional.filter fun e => keep (ifKey? e)) =
      p.conditional.filter fun e => keep (ifKey? e) := by
  induction ms using List.reverseRecOn with
  | nil => rfl
  | append_singleton ms m ih =>
    have hm : keep (ifKey? m.1) = false := h m (List.mem_append_right ms List.mem_cons_self)
    rw [applyMentions_concat, filter_conditional_apply_of_not _ _ hm]
    exact ih fun m hm => h m (List.mem_append_left _ hm)

/-! ## The list in the end -/

/-- The clauses among what tidy parts make up are their conditional entries. -/
theorem Parts.IsTidy.filter_toList (h : p.IsTidy) (keep : Option String → Bool)
    (hkeep : keep none = false) :
    (p.toList.filter fun e => keep (ifKey? e)) = p.conditional.filter fun e => keep (ifKey? e) := by
  have hmappings : p.mappings.filter (fun e => keep (ifKey? e)) = [] := by
    refine List.filter_eq_nil_iff.mpr fun e he => ?_
    rw [(h.mappings e he).2, hkeep]
    decide
  have htexts : (p.texts.map Yaml.string).filter (fun e => keep (ifKey? e)) = [] := by
    refine List.filter_eq_nil_iff.mpr fun e he => ?_
    obtain ⟨t, -, rfl⟩ := List.mem_map.mp he
    rw [ifKey?_eq_none rfl, hkeep]
    decide
  rw [toList, List.filter_append, List.filter_append, hmappings, htexts, List.append_nil,
    List.append_nil]

/-- Entries leave the clauses of a list with other keys as they are. -/
theorem Parts.filter_toList_applyMentions (current : List Yaml) (keep : Option String → Bool)
    (hnone : keep none = false) (h : ∀ m ∈ ms, keep (ifKey? m.1) = false) :
    (((current.foldl Parts.start {}).applyMentions ms).toList.filter fun e => keep (ifKey? e)) =
      current.filter fun e => keep (ifKey? e) := by
  rw [((Parts.isTidy_foldl_start current).applyMentions ms).filter_toList keep hnone,
    Parts.filter_conditional_applyMentions_of_not _ h, Parts.conditional_foldl_start,
    List.filter_filter]
  refine List.filter_congr fun e _ => ?_
  cases hkey : ifKey? e with
  | none => rw [hnone, Bool.false_and]
  | some key => rw [Option.isSome_some, Bool.and_true]

/-- The texts that tidy parts make up are theirs. -/
theorem Parts.IsTidy.string_mem_toList_iff (h : p.IsTidy) : .string s ∈ p.toList ↔ s ∈ p.texts := by
  rw [toList, List.mem_append, List.mem_append, List.mem_map]
  constructor
  · rintro ((hmem | hmem) | ⟨t, ht, heq⟩)
    · obtain ⟨key, hkey⟩ := h.conditional _ hmem
      exact absurd (isMap_of_ifKey? hkey) Bool.false_ne_true
    · exact absurd (h.mappings _ hmem).1 Bool.false_ne_true
    · exact Yaml.string.inj heq ▸ ht
  · exact fun hs => Or.inr ⟨s, hs, rfl⟩

/-- A text is there if its last mention adds it, or if it was there and is not mentioned. -/
theorem Parts.mem_texts_of_list_iff (current : List Yaml) (ms : List (Yaml × Postfix)) :
    s ∈ ((current.foldl Parts.start {}).applyMentions ms).texts ↔
      (∃ e, lastMention? (fun e => textOf? e = some s) ms = some (e, .add)) ∨
        (∀ m ∈ ms, textOf? m.1 ≠ some s) ∧ ∃ e ∈ current, textOf? e = some s := by
  rw [Parts.mem_texts_applyMentions_iff, ← Parts.mem_texts_foldl_start_iff]
  cases hlast : lastMention? (fun e => textOf? e = some s) ms with
  | none =>
    have hnot : ∀ m ∈ ms, textOf? m.1 ≠ some s := by
      simpa using lastMention?_eq_none_iff.mp hlast
    refine ⟨fun hs => Or.inr ⟨hnot, hs⟩, ?_⟩
    rintro (⟨e, he⟩ | ⟨-, hs⟩)
    · exact absurd he nofun
    · exact hs
  | some m =>
    obtain ⟨e, op⟩ := m
    obtain ⟨hin, his⟩ := List.mem_filter.mp (List.mem_of_getLast? hlast)
    constructor
    · rintro rfl
      exact Or.inl ⟨e, rfl⟩
    · rintro (⟨e', he⟩ | ⟨hnot, -⟩)
      · exact congrArg Prod.snd (Option.some.inj he)
      · exact absurd (of_decide_eq_true his) (hnot _ hin)

/-- Whether a clause has a key that no entry mentions. -/
def isUntouched (ms : List (Yaml × Postfix)) (key? : Option String) : Bool :=
  key?.isSome && ms.all fun m => ifKey? m.1 ≠ key?

theorem isUntouched_of_mem (h : m ∈ ms) : isUntouched ms (ifKey? m.1) = false := by
  rw [isUntouched, Bool.and_eq_false_iff]
  refine Or.inr (List.all_eq_false.mpr ⟨m, h, ?_⟩)
  simp

/-- **Only the last mention counts.** Postfix lists, of which there is at least one, leave the
clauses with an `if` key, then the other mappings, then texts in strictly rising order. A text is
among them if its last mention adds it, or if it was there and is not mentioned. Of the clauses
with a mentioned key the last one remains if its list adds, and none if it takes away. The clauses
whose keys are not mentioned stay as they are. -/
theorem applyAll_last_mention (current : List Yaml) (h : lists ≠ []) :
    (∃ (conditional mappings : List Yaml) (texts : List String),
      applyAll current lists = conditional ++ mappings ++ texts.map Yaml.string ∧
        (∀ e ∈ conditional, ∃ key, ifKey? e = some key) ∧
        (∀ e ∈ mappings, e.isMap = true ∧ ifKey? e = none) ∧ texts.Pairwise (· < ·)) ∧
    (∀ s, .string s ∈ applyAll current lists ↔
      (∃ e, lastMention? (fun e => textOf? e = some s) (mentions lists) = some (e, .add)) ∨
        (∀ m ∈ mentions lists, textOf? m.1 ≠ some s) ∧ ∃ e ∈ current, textOf? e = some s) ∧
    (∀ key e op, lastMention? (fun e => ifKey? e = some key) (mentions lists) = some (e, op) →
      ((applyAll current lists).filter fun e => ifKey? e = some key) =
        if op = .add then [e] else []) ∧
    (applyAll current lists).filter (fun e => isUntouched (mentions lists) (ifKey? e)) =
      current.filter fun e => isUntouched (mentions lists) (ifKey? e) := by
  have htidy := (Parts.isTidy_foldl_start current).applyMentions (mentions lists)
  rw [applyAll_eq_toList current h]
  refine ⟨⟨_, _, _, rfl, htidy.conditional, htidy.mappings, htidy.texts⟩, fun s => ?_,
    fun key e op hlast => ?_, ?_⟩
  · rw [htidy.string_mem_toList_iff]
    exact Parts.mem_texts_of_list_iff current (mentions lists)
  · have hfilter := htidy.filter_toList (fun k => k = some key) rfl
    rw [hfilter, Parts.filter_conditional_applyMentions, hlast]
  · exact Parts.filter_toList_applyMentions current _ rfl fun _ => isUntouched_of_mem

end

/-- A clause with a statement and a reason. -/
def sampleClause (stmt reason : String) : Yaml :=
  .map [(.string "if", .string stmt), (.string "reason", .string reason)]

/-- A list with a text, a clause, and another clause twice. -/
def sampleItems : List Yaml :=
  [.string "soc", sampleClause "IDF_TARGET == 1" "old", sampleClause "A" "1", sampleClause "A" "2"]

/-- Postfix lists that mention one clause with different blanks, and a text twice. -/
def sampleLists : List (List Yaml × Postfix) :=
  [([sampleClause "IDF_TARGET==1" "gone"], .remove),
    ([.string "bt", .string "wifi", sampleClause "IDF_TARGET ==1" "b",
      sampleClause "IDF_TARGET== 1" "c"], .add),
    ([.string "wifi"], .remove)]

/-- The text that is added last is there, one that is taken away last is not, and one that is not
mentioned stays. The clause that is added last is there once, and one that is not mentioned stays
twice. -/
theorem applyAll_last_mention_sample :
    .string "bt" ∈ applyAll sampleItems sampleLists ∧
      .string "soc" ∈ applyAll sampleItems sampleLists ∧
      .string "wifi" ∉ applyAll sampleItems sampleLists ∧
      ((applyAll sampleItems sampleLists).filter fun e => ifKey? e = some "IDF_TARGET==1") =
        [sampleClause "IDF_TARGET== 1" "c"] ∧
      ((applyAll sampleItems sampleLists).filter
        fun e => isUntouched (mentions sampleLists) (ifKey? e)) =
          [sampleClause "A" "1", sampleClause "A" "2"] := by
  have hne : sampleLists ≠ [] := List.cons_ne_nil _ _
  obtain ⟨-, htexts, hclauses, huntouched⟩ := applyAll_last_mention sampleItems hne
  refine ⟨(htexts _).mpr (Or.inl ⟨.string "bt", ?_⟩), (htexts _).mpr (Or.inr ⟨?_, ?_⟩), ?_, ?_, ?_⟩
  · decide +kernel
  · decide +kernel
  · exact ⟨.string "soc", List.mem_cons_self, rfl⟩
  · intro hwifi
    rcases (htexts _).mp hwifi with ⟨e, he⟩ | ⟨hnot, -⟩
    · have hlast : lastMention? (fun e => textOf? e = some "wifi") (mentions sampleLists) =
          some (.string "wifi", .remove) := by decide +kernel
      exact absurd (hlast.symm.trans he) nofun
    · exact hnot (.string "wifi", .remove) (by decide +kernel) (by decide +kernel)
  · exact hclauses _ (sampleClause "IDF_TARGET== 1" "c") .add (by decide +kernel)
  · rw [huntouched]
    decide +kernel

end BuildMatrix.Manifest
