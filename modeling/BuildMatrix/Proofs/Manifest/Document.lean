import BuildMatrix.Proofs.Manifest.Postfix

/-!
# The order in which postfixes act

Postfix entries act in the stored order of a folder's mapping. This is the order in which they are
written, but for one entry: the last one of a mapping takes the place of the merge key, and so it
comes before the entries that are written between the two.

* `Manifest.HoldsFolder`: a document holds a folder, with the mapping as it is written.
* `Manifest.Overtakes`: the last entry comes before another one for the same base key.
* `Manifest.postfixes_act_as_written`: what the rule of a folder holds under each key. Where no
  entry is overtaken, the postfix entries act as they are written.
* `Manifest.overtaken_postfix_sample`: a document whose postfix entries do not.
-/

namespace BuildMatrix.Manifest

/-! ## The place of the merge key -/

/-- The value under the base key `k` of a mapping as it is written, before any postfix acts: its own
one, or else the first one that is merged in. -/
def writtenBase? (k : String) (es : Entries) : Option Yaml :=
  if (splitPostfix? k).isSome then none
  else
    (((es.without Yaml.mergeKey).getText? k).or
      ((Yaml.mergedIn es).findSome? (Entries.getText? k))).bind Yaml.applyMerges

/-- The last entry of a mapping is a postfix entry for `k` that takes the place of the merge key and
so comes before another one, which is written between the two. -/
def Overtakes (k : String) (es : Entries) : Prop :=
  ∃ before m mid last, es = before ++ (Yaml.mergeKey, m) :: (mid ++ [last]) ∧ ActsOn k last ∧
    ∃ e ∈ mid, ActsOn k e

section

variable {k : String} {es stored : Entries}

theorem baseValue?_of_mergeOwn (hes : es.keys.Nodup) (h : Yaml.mergeOwn es = some stored)
    (k : String) : baseValue? Yaml.applyMerges k stored = writtenBase? k es := by
  have hget : (es.swapRemove Yaml.mergeKey).get? (.string k) =
      (es.without Yaml.mergeKey).get? (.string k) :=
    Entries.get?_eq_of_perm rfl (Entries.nodup_keys_swapRemove rfl hes)
      (Entries.swapRemove_perm rfl hes)
  have hstored : stored.getText? k = ((es.without Yaml.mergeKey).getText? k).or
      ((Yaml.mergedIn es).findSome? (Entries.getText? k)) := by
    rw [Entries.getText?, Yaml.get?_mergeOwn rfl h, hget]
    rfl
  rw [baseValue?, writtenBase?, hstored]

/-- Without overtaking, the entries act as if the merge key had left no gap. -/
theorem act_swapRemove {read : Yaml → Option Yaml} {v : Option Yaml} (hes : es.keys.Nodup)
    (h : ¬Overtakes k es) :
    act read k v (es.swapRemove Yaml.mergeKey) = act read k v (es.without Yaml.mergeKey) := by
  cases hm : es.get? Yaml.mergeKey with
  | none => rw [Entries.swapRemove_of_get?_eq_none hm, Entries.without_of_get?_eq_none hm]
  | some m =>
    obtain ⟨before, after, rfl, hbefore⟩ := Entries.exists_eq_append_of_get?_eq_some rfl hm
    rw [Entries.without_append rfl hes]
    rcases List.eq_nil_or_concat after with rfl | ⟨mid, last, rfl⟩
    · rw [Entries.swapRemove_append_singleton hbefore, List.append_nil]
    · rw [List.concat_eq_append] at h ⊢
      rw [Entries.swapRemove_append hbefore, act_append, act_append]
      refine act_move_last fun hlast e he hacts => h ?_
      exact ⟨before, m, mid, last, rfl, hlast, e, he, hacts⟩

end

/-! ## Folders of a document -/

/-- A document holds a folder: a mapping, here as it is written, stands under the key of the folder
in the document or is merged into it. -/
def HoldsFolder (content : String) (key : Yaml) (es : Entries) : Prop :=
  ∃ top folders folder, Yaml.parse? content = some (.map top) ∧ Yaml.mergeOwn top = some folders ∧
    (key, .map es) ∈ folders ∧ key.asString? = some folder ∧ folder.toList.head? ≠ some '.'

section

variable {key v : Yaml} {folder : String} {resolved folders doc : Entries}

/-- What one folder does: it is left out if its key begins with a dot, and else its rule is kept. -/
theorem exists_of_resolveFolders_cons
    (h : resolveFolders resolved ((key, v) :: folders) = .ok doc) :
    ∃ folder, key.asString? = some folder ∧
      ((folder.toList.head? = some '.' ∧ resolveFolders resolved folders = .ok doc) ∨
        (folder.toList.head? ≠ some '.' ∧ ∃ rule, resolveFolder folder v = .ok rule ∧
          resolveFolders (resolved.insert key rule) folders = .ok doc)) := by
  rw [resolveFolders] at h
  split at h
  · exact absurd h nofun
  next folder hkey =>
  refine ⟨folder, hkey, ?_⟩
  split at h
  · next hdot => exact Or.inl ⟨hdot, h⟩
  next hdot =>
  split at h
  · exact absurd h nofun
  · next rule hrule => exact Or.inr ⟨hdot, rule, hrule, h⟩

/-- A folder keeps its rule while others are resolved. -/
theorem get?_of_resolveFolders_of_notMem (hkey : key.asString? = some folder)
    (hmem : key ∉ folders.keys) (h : resolveFolders resolved folders = .ok doc) :
    doc.get? key = resolved.get? key := by
  induction folders generalizing resolved with
  | nil => rw [Except.ok.inj h]
  | cons e folders ih =>
    obtain ⟨k, w⟩ := e
    rw [Entries.keys_cons, List.mem_cons, not_or] at hmem
    obtain ⟨other, -, ⟨-, h⟩ | ⟨-, rule, -, h⟩⟩ := exists_of_resolveFolders_cons h
    · exact ih hmem.2 h
    · rw [ih hmem.2 h, Entries.get?_insert_of_ne hkey hmem.1]

/-- Each folder of a document has the rule that its value resolves to. -/
theorem get?_of_resolveFolders (hfolders : folders.keys.Nodup) (hmem : (key, v) ∈ folders)
    (hkey : key.asString? = some folder) (hdot : folder.toList.head? ≠ some '.')
    (h : resolveFolders resolved folders = .ok doc) :
    ∃ rule, resolveFolder folder v = .ok rule ∧ doc.get? key = some rule := by
  induction folders generalizing resolved with
  | nil => exact absurd hmem nofun
  | cons e folders ih =>
    obtain ⟨k, w⟩ := e
    rw [Entries.keys_cons, List.nodup_cons] at hfolders
    obtain ⟨other, hother, hstep⟩ := exists_of_resolveFolders_cons h
    rcases List.mem_cons.mp hmem with heq | hlater
    · obtain ⟨rfl, rfl⟩ := Prod.mk.inj heq
      obtain rfl : folder = other := Option.some.inj (hkey.symm.trans hother)
      rcases hstep with ⟨hleft, -⟩ | ⟨-, rule, hrule, h⟩
      · exact absurd hleft hdot
      · refine ⟨rule, hrule, ?_⟩
        rw [get?_of_resolveFolders_of_notMem hkey hfolders.1 h, Entries.get?_insert_self]
    · rcases hstep with ⟨-, h⟩ | ⟨-, rule, -, h⟩
      · exact ih hfolders.2 hlater h
      · exact ih hfolders.2 hlater h

end

section

variable {file : Path} {content : String} {doc es : Entries} {key : Yaml}

/-- A folder of a document that is read has a rule, which holds what the postfix entries make of the
values that the mapping has after merging. -/
theorem exists_rule_of_loadDocument (h : loadDocument file content = .ok doc)
    (hfolder : HoldsFolder content key es) :
    ∃ stored rule : Entries, es.keys.Nodup ∧ Yaml.mergeOwn es = some stored ∧
      doc.get? key = some (.map rule) ∧
      ∀ k, rule.getText? k = act Yaml.applyMerges k (writtenBase? k es) stored := by
  obtain ⟨top, folders, folder, hparse, hfolders, hmem, hkey, hdot⟩ := hfolder
  have honce : Yaml.KeysOnce (.map top) := Yaml.keysOnce_of_parse? hparse
  have hes : es.keys.Nodup := (honce.of_mem_mergeOwn hfolders hmem).nodup_keys
  rw [loadDocument, hparse, Option.bind_some, Yaml.applyMerges_map, hfolders,
    Option.bind_some] at h
  cases hvalues : Yaml.mergeValues folders with
  | none =>
    rw [hvalues] at h
    exact absurd h nofun
  | some merged =>
    rw [hvalues] at h
    have hresolved : resolveFolders [] merged = .ok doc := mapError_eq_ok_iff.mp h
    obtain ⟨w, hw, hmem⟩ := Yaml.mem_of_mergeValues hmem hvalues
    have hkeys : merged.keys.Nodup :=
      Yaml.keys_of_mergeValues hvalues ▸ Yaml.nodup_keys_mergeOwn honce.nodup_keys hfolders
    obtain ⟨rule, hrule, hget⟩ := get?_of_resolveFolders hkeys hmem hkey hdot hresolved
    rw [Yaml.applyMerges_map, Option.bind_eq_some_iff] at hw
    obtain ⟨stored, hstored, hw⟩ := hw
    obtain ⟨read, hread, rfl⟩ := Option.map_eq_some_iff.mp hw
    obtain ⟨rule, hpost, rfl⟩ := map_eq_ok_iff.mp hrule
    have hreadKeys : (Entries.keys read).Nodup :=
      Yaml.keys_of_mergeValues hread ▸ Yaml.nodup_keys_mergeOwn hes hstored
    refine ⟨stored, rule, hes, hstored, hget, fun k => ?_⟩
    rw [getText?_of_resolvePostfixes hreadKeys hpost, act_of_mergeValues hread,
      baseValue?_of_mergeValues hread, baseValue?_of_mergeOwn hes hstored]

/-- **The order in which postfixes act.** A folder of a document that is read has a rule. Under each
key it holds what the postfix entries make of the folder's own value or else of the merged one:
first the entries of the folder, then those that it takes over. The entries of the folder act in the
order in which they are written, unless the last one overtakes another for the same key; for a last
entry behind the merge key acts in the place of the merge key. -/
theorem postfixes_act_as_written (h : loadDocument file content = .ok doc)
    (hfolder : HoldsFolder content key es) :
    ∃ taken rule : Entries, Yaml.mergeOwn es = some (es.swapRemove Yaml.mergeKey ++ taken) ∧
      doc.get? key = some (.map rule) ∧
      ∀ k,
        (¬Overtakes k es → rule.getText? k =
          act Yaml.applyMerges k (writtenBase? k es) (es.without Yaml.mergeKey ++ taken)) ∧
        ∀ before m mid last, es = before ++ (Yaml.mergeKey, m) :: (mid ++ [last]) →
          rule.getText? k =
            act Yaml.applyMerges k (writtenBase? k es) (before ++ last :: (mid ++ taken)) := by
  obtain ⟨stored, rule, hes, hstored, hget, hvalue⟩ := exists_rule_of_loadDocument h hfolder
  obtain ⟨taken, rfl, -⟩ := Yaml.exists_mergeOwn_eq hstored
  refine ⟨taken, rule, hstored, hget, fun k => ⟨fun hover => ?_, ?_⟩⟩
  · rw [hvalue, act_append, act_append, act_swapRemove hes hover]
  · rintro before m mid last rfl
    have hbefore := (Entries.get?_sides_eq_none rfl hes).1
    rw [hvalue, Entries.swapRemove_append hbefore, List.append_assoc, List.cons_append]

end

/-! ## A document with an overtaken entry -/

/-- A document whose folder adds a component to a merged list and takes it away again. -/
def overtakingText : String :=
  ".base: &base\n  depends_components: [soc]\n" ++
    "foo:\n  <<: *base\n  depends_components+: [bt]\n  depends_components-: [bt]\n"

/-- The mapping that is merged. -/
def overtakingBase : Entries :=
  [(.string "depends_components", .seq [.string "soc"])]

/-- The mapping of the folder as it is written. -/
def overtakingFolder : Entries :=
  [(Yaml.mergeKey, .map overtakingBase), (.string "depends_components+", .seq [.string "bt"]),
    (.string "depends_components-", .seq [.string "bt"])]

/-- The rule of the folder. -/
def overtakingRule : Entries :=
  [(.string "depends_components", .seq [.string "bt", .string "soc"])]

theorem loadDocument_overtakingText :
    loadDocument ⟨"m.yml"⟩ overtakingText = .ok [(.string "foo", .map overtakingRule)] :=
  eq_ok_of_toOption (by decide +kernel)

theorem holdsFolder_overtakingText :
    HoldsFolder overtakingText (.string "foo") overtakingFolder := by
  refine ⟨[(.string ".base", .map overtakingBase), (.string "foo", .map overtakingFolder)], _,
    "foo", ?_, rfl, ?_, rfl, ?_⟩
  · decide +kernel
  · decide
  · decide

/-- The entry that takes `bt` away stands last, so it acts before the one that adds it. -/
theorem postfixes_act_as_written_sample :
    loadDocument ⟨"m.yml"⟩ overtakingText = .ok [(.string "foo", .map overtakingRule)] ∧
      HoldsFolder overtakingText (.string "foo") overtakingFolder ∧
      ∃ taken rule : Entries, Yaml.mergeOwn overtakingFolder =
          some (overtakingFolder.swapRemove Yaml.mergeKey ++ taken) ∧
        Entries.get? (.string "foo") [(.string "foo", .map overtakingRule)] = some (.map rule) ∧
        rule.getText? "depends_components" =
          act Yaml.applyMerges "depends_components"
            (writtenBase? "depends_components" overtakingFolder)
            ((.string "depends_components-", .seq [.string "bt"]) ::
              (.string "depends_components+", .seq [.string "bt"]) :: taken) := by
  obtain ⟨taken, rule, hown, hrule, hvalue⟩ :=
    postfixes_act_as_written loadDocument_overtakingText holdsFolder_overtakingText
  refine ⟨loadDocument_overtakingText, holdsFolder_overtakingText, taken, rule, hown, hrule, ?_⟩
  exact (hvalue "depends_components").2 [] _ [_] _ rfl

/-- In the order in which the entries are written, `bt` would be taken away after it was added. -/
theorem overtaken_postfix_sample :
    loadDocument ⟨"m.yml"⟩ overtakingText = .ok [(.string "foo", .map overtakingRule)] ∧
      HoldsFolder overtakingText (.string "foo") overtakingFolder ∧
      ∃ taken : Entries, Yaml.mergeOwn overtakingFolder =
          some (overtakingFolder.swapRemove Yaml.mergeKey ++ taken) ∧
        overtakingRule.getText? "depends_components" =
          some (.seq [.string "bt", .string "soc"]) ∧
        act Yaml.applyMerges "depends_components"
            (writtenBase? "depends_components" overtakingFolder)
            (overtakingFolder.without Yaml.mergeKey ++ taken) =
          some (.seq [.string "soc"]) := by
  refine ⟨loadDocument_overtakingText, holdsFolder_overtakingText, overtakingBase, ?_, ?_, ?_⟩
  · decide +kernel
  · decide +kernel
  · decide +kernel

end BuildMatrix.Manifest
