import BuildMatrix.Manifest.Rule
import BuildMatrix.Proofs.Manifest.Document

/-!
# Merge keys reach one level

A folder takes over the entries of the mappings that its merge key holds. Among them is the merge
key of such a mapping, which nobody looks at again: what lies further away does not reach the
folder, and its rule is refused for the key that is left.

* `Yaml.nearest?`: the nearest value of a key in a mapping and in what it merges, to any depth.
* `Yaml.nearest?_succ`: where no merged mapping merges others, there is nothing beyond one level.
* `Manifest.exists_folder_of_mem_loadDocument`: each rule of a document comes from a folder in it.
* `Manifest.merges_reach_one_level`: what a rule holds, and when a merge key is left in it.
* `Manifest.merge_chain_sample`: a document in which a chain of two merges is cut.
-/

namespace BuildMatrix

/-! ## Chains of merges -/

namespace Yaml

/-- The value of a key in a mapping or in what it merges, at most `n` merges away: its own one, or
else the nearest one of the first merged mapping that leads to one. -/
def nearest? : Nat → String → Entries → Option Yaml
  | 0, k, es => (es.without mergeKey).getText? k
  | n + 1, k, es =>
    ((es.without mergeKey).getText? k).or ((mergedIn es).findSome? (nearest? n k))

/-- Whether no mapping that a mapping merges merges others. -/
def MergesLeaves (es : Entries) : Prop :=
  ∀ more ∈ mergedIn es, more.get? mergeKey = none

section

variable {es : Entries} {k : String}

theorem nearest?_of_leaf (h : es.get? mergeKey = none) (n : Nat) (k : String) :
    nearest? n k es = es.getText? k := by
  have hmerged : mergedIn es = [] := by rw [mergedIn, h]
  cases n with
  | zero => rw [nearest?, Entries.without_of_get?_eq_none h]
  | succ n =>
    rw [nearest?, Entries.without_of_get?_eq_none h, hmerged]
    exact Option.or_none

theorem findSome?_congr_of_mem {α β : Type} {f g : α → Option β} {as : List α}
    (h : ∀ a ∈ as, f a = g a) : as.findSome? f = as.findSome? g := by
  induction as with
  | nil => rfl
  | cons a as ih =>
    rw [List.forall_mem_cons] at h
    rw [List.findSome?_cons, List.findSome?_cons, h.1, ih h.2]

/-- Where no merged mapping merges others, one level is all. -/
theorem nearest?_succ (h : MergesLeaves es) (n : Nat) (k : String) :
    nearest? (n + 1) k es = nearest? 1 k es := by
  have hmerged : (mergedIn es).findSome? (nearest? n k) =
      (mergedIn es).findSome? (nearest? 0 k) :=
    findSome?_congr_of_mem fun more hmore => by
      rw [nearest?_of_leaf (h more hmore), nearest?_of_leaf (h more hmore)]
  rw [nearest?, nearest?, hmerged]

/-- A key other than the merge key is taken over from one level. -/
theorem nearest?_one (hk : k ≠ "<<") : nearest? 1 k es =
    ((es.without mergeKey).getText? k).or ((mergedIn es).findSome? (Entries.getText? k)) := by
  have hmerged : (mergedIn es).findSome? (nearest? 0 k) =
      (mergedIn es).findSome? (Entries.getText? k) :=
    findSome?_congr_of_mem fun more _ =>
      Entries.get?_without_of_ne rfl rfl (fun heq => hk (Yaml.string.inj heq)) more
  rw [nearest?, hmerged]

end

end Yaml

namespace Manifest

/-! ## The rules of a document -/

section

variable {file : Path} {content folder : String} {doc folders resolved es stored read : Entries}
  {key : Yaml} {rule : Entries}

theorem exists_mem_of_resolveFolders {e : Yaml × Yaml}
    (h : resolveFolders resolved folders = .ok doc) (he : e ∈ doc) :
    e ∈ resolved ∨ ∃ v folder, (e.1, v) ∈ folders ∧ e.1.asString? = some folder ∧
      folder.toList.head? ≠ some '.' ∧ resolveFolder folder v = .ok e.2 := by
  induction folders generalizing resolved with
  | nil => exact Or.inl (Except.ok.inj h ▸ he)
  | cons x folders ih =>
    obtain ⟨k, w⟩ := x
    have hlater : (∃ v folder, (e.1, v) ∈ folders ∧ e.1.asString? = some folder ∧
        folder.toList.head? ≠ some '.' ∧ resolveFolder folder v = .ok e.2) →
        ∃ v folder, (e.1, v) ∈ (k, w) :: folders ∧ e.1.asString? = some folder ∧
          folder.toList.head? ≠ some '.' ∧ resolveFolder folder v = .ok e.2 := by
      rintro ⟨v, folder, hv, hrest⟩
      exact ⟨v, folder, List.mem_cons_of_mem _ hv, hrest⟩
    obtain ⟨folder, hk, ⟨-, h⟩ | ⟨hdot, v, hv, h⟩⟩ := exists_of_resolveFolders_cons h
    · rcases ih h with hresolved | hfolders
      · exact Or.inl hresolved
      · exact Or.inr (hlater hfolders)
    · rcases ih h with hresolved | hfolders
      · rcases Entries.mem_of_mem_insert hk hresolved with hresolved | rfl
        · exact Or.inl hresolved
        · exact Or.inr ⟨w, folder, List.mem_cons_self, hk, hdot, hv⟩
      · exact Or.inr (hlater hfolders)

/-- Each rule of a document comes from a folder that the document holds: its own merge key is
applied, then those of its values, then its postfix entries. -/
theorem exists_folder_of_mem_loadDocument (h : loadDocument file content = .ok doc)
    (hmem : (key, .map rule) ∈ doc) :
    ∃ (folder : String) (es stored read : Entries), HoldsFolder content key es ∧ es.keys.Nodup ∧
      Yaml.mergeOwn es = some stored ∧ Yaml.mergeValues stored = some read ∧
      resolvePostfixes folder read = .ok rule := by
  rw [loadDocument] at h
  split at h
  · cases h
  · next v hv =>
    obtain ⟨whole, hparse, hmerges⟩ := Option.bind_eq_some_iff.mp hv
    have hdoc : resolveDocument v = .ok doc := mapError_eq_ok_iff.mp h
    unfold resolveDocument at hdoc
    split at hdoc
    · cases hdoc
      exact absurd hmem List.not_mem_nil
    · next merged =>
      obtain ⟨top, rfl⟩ := Yaml.exists_eq_map_of_applyMerges hmerges
      rw [Yaml.applyMerges_map] at hmerges
      obtain ⟨folders, hfolders, hmerges⟩ := Option.bind_eq_some_iff.mp hmerges
      obtain ⟨_, hvalues, heq⟩ := Option.map_eq_some_iff.mp hmerges
      cases heq
      rcases exists_mem_of_resolveFolders hdoc hmem with hnil | ⟨w, folder, hw, hkey, hdot, hrule⟩
      · exact absurd hnil List.not_mem_nil
      have honce : Yaml.KeysOnce (.map top) := Yaml.keysOnce_of_parse? hparse
      cases w with
      | map read =>
        obtain ⟨_, hpost, heq⟩ := map_eq_ok_iff.mp hrule
        cases heq
        obtain ⟨written, hwritten, hmerge⟩ := Yaml.exists_mem_of_mergeValues hvalues hw
        obtain ⟨es, rfl⟩ := Yaml.exists_eq_map_of_applyMerges hmerge
        rw [Yaml.applyMerges_map] at hmerge
        obtain ⟨stored, hstored, hread⟩ := Option.bind_eq_some_iff.mp hmerge
        obtain ⟨_, hread, heq⟩ := Option.map_eq_some_iff.mp hread
        cases heq
        exact ⟨folder, es, stored, read, ⟨top, folders, folder, hparse, hfolders, hwritten, hkey,
          hdot⟩, (honce.of_mem_mergeOwn hfolders hwritten).nodup_keys, hstored, hread, hpost⟩
      | _ => cases hrule
    · cases hdoc

/-! ## What reaches a rule -/

theorem act_eq_none_iff {k : String} {v : Option Yaml} {f : Yaml → Option Yaml} :
    act f k v es = none ↔ v = none ∧ ∀ e ∈ es, ¬ActsOn k e := by
  have hone : ∀ (v : Option Yaml) (e : Yaml × Yaml),
      act f k v [e] = none ↔ v = none ∧ ¬ActsOn k e := by
    intro v e
    by_cases hacts : ActsOn k e
    · obtain ⟨p, hp, hbase⟩ := hacts
      have hsome : act f k v [e] = p.effect f k v := by
        rw [act, postfixes, List.filterMap_cons, hp]
        rfl
      rw [hsome, PostfixEntry.effect, if_pos hbase]
      exact ⟨fun h => absurd h (Option.some_ne_none _), fun h => absurd ⟨p, hp, hbase⟩ h.2⟩
    · rw [act_singleton_of_not_actsOn hacts]
      exact (and_iff_left hacts).symm
  induction es generalizing v with
  | nil => exact ⟨fun h => ⟨h, List.forall_mem_nil _⟩, fun h => h.1⟩
  | cons e es ih =>
    have hrest : act f k (act f k v [e]) es = none ↔
        act f k v [e] = none ∧ ∀ e ∈ es, ¬ActsOn k e := ih
    rw [act_cons, hrest, hone, List.forall_mem_cons, and_assoc]

/-- A merge key is left behind when one of the merged mappings has one. -/
theorem get?_mergeKey_of_mergeOwn (hes : es.keys.Nodup) (h : Yaml.mergeOwn es = some stored) :
    stored.get? Yaml.mergeKey = none ↔ Yaml.MergesLeaves es := by
  have hown : (es.swapRemove Yaml.mergeKey).get? Yaml.mergeKey = none := by
    rw [Entries.get?_eq_of_perm rfl (Entries.nodup_keys_swapRemove rfl hes)
      (Entries.swapRemove_perm rfl hes), Entries.get?_without_self]
  rw [Yaml.get?_mergeOwn rfl h, hown, Option.none_or, List.findSome?_eq_none_iff]
  rfl

/-- A rule with a merge key is refused. -/
theorem exists_unknownKey_of_mergeKey (h : rule.get? Yaml.mergeKey ≠ none) (path file : Path) :
    ∃ k, Rule.ofYaml path (some rule) file = .error (.invalid file (.unknownKey k path)) := by
  obtain ⟨v, hv⟩ := Option.ne_none_iff_exists'.mp h
  have hmem : (Yaml.mergeKey, v) ∈ rule := Entries.mem_of_get?_eq_some rfl hv
  have hfound : (rule.find? fun e => !(e.1.asString?.any Rule.keys.contains)).isSome = true :=
    List.find?_isSome.mpr ⟨_, hmem, rfl⟩
  obtain ⟨e, he⟩ := Option.isSome_iff_exists.mp hfound
  refine ⟨e.1, ?_⟩
  rw [Rule.ofYaml, Rule.readEntries, Option.getD_some, he]
  rfl

/-- **Merge keys reach one level.** Each rule of a document comes from a folder that the document
holds. Under each key but the merge key it holds what the postfix entries make of the nearest value
at most one merge away. Where no merged mapping merges others, this is the nearest value at any
distance, and no merge key is left unless a postfix entry is for one. Otherwise the merge key of a
merged mapping is left in the rule, and the rule is refused. -/
theorem merges_reach_one_level (h : loadDocument file content = .ok doc)
    (hmem : (key, .map rule) ∈ doc) :
    ∃ es stored, HoldsFolder content key es ∧ Yaml.mergeOwn es = some stored ∧
      (∀ k ≠ "<<", rule.getText? k = act Yaml.applyMerges k
        (if (splitPostfix? k).isSome then none
          else (Yaml.nearest? 1 k es).bind Yaml.applyMerges) stored) ∧
      (Yaml.MergesLeaves es → ∀ n k, Yaml.nearest? (n + 1) k es = Yaml.nearest? 1 k es) ∧
      (rule.getText? "<<" = none ↔
        Yaml.MergesLeaves es ∧ ∀ e ∈ stored, ¬ActsOn "<<" e) ∧
      (rule.getText? "<<" ≠ none → ∀ path file, ∃ k,
        Rule.ofYaml path (some rule) file = .error (.invalid file (.unknownKey k path))) := by
  obtain ⟨folder, es, stored, read, hfolder, hes, hown, hread, hpost⟩ :=
    exists_folder_of_mem_loadDocument h hmem
  have hstored : stored.keys.Nodup := Yaml.nodup_keys_mergeOwn hes hown
  have hkeys : read.keys = stored.keys := Yaml.keys_of_mergeValues hread
  have hget : ∀ k, rule.getText? k = act Yaml.applyMerges k (baseValue? some k read) stored := by
    intro k
    rw [getText?_of_resolvePostfixes (hkeys ▸ hstored) hpost, act_of_mergeValues hread]
  refine ⟨es, stored, hfolder, hown, fun k hk => ?_, Yaml.nearest?_succ, ?_,
    exists_unknownKey_of_mergeKey⟩
  · rw [hget, baseValue?_of_mergeValues hread, baseValue?_of_mergeOwn hes hown, writtenBase?,
      Yaml.nearest?_one hk]
  · have hbase : baseValue? some "<<" read = read.get? Yaml.mergeKey := by
      rw [baseValue?, if_neg (by decide), Option.bind_fun_some]
      rfl
    have hkept : read.get? Yaml.mergeKey = none ↔ stored.get? Yaml.mergeKey = none :=
      ⟨fun hnone => Entries.get?_eq_none_of_not_mem_keys rfl
          (hkeys ▸ Entries.not_mem_keys_of_get?_eq_none hnone),
        fun hnone => Entries.get?_eq_none_of_not_mem_keys rfl
          (hkeys ▸ Entries.not_mem_keys_of_get?_eq_none hnone)⟩
    rw [hget, act_eq_none_iff, hbase, hkept, get?_mergeKey_of_mergeOwn hes hown]

end

/-! ## A chain of two merges -/

/-- A document whose folder merges a mapping that merges another one. -/
def chainText : String :=
  ".core: &core\n  depends_components: [soc]\n" ++
    ".driver: &driver\n  <<: *core\n  depends_filepatterns: [docs]\n" ++
    "foo:\n  <<: *driver\n"

/-- The mapping at the end of the chain. -/
def chainCore : Entries :=
  [(.string "depends_components", .seq [.string "soc"])]

/-- The mapping in the middle of the chain. -/
def chainDriver : Entries :=
  [(Yaml.mergeKey, .map chainCore), (.string "depends_filepatterns", .seq [.string "docs"])]

/-- The mapping of the folder as it is written. -/
def chainFolder : Entries :=
  [(Yaml.mergeKey, .map chainDriver)]

theorem loadDocument_chainText :
    loadDocument ⟨"m.yml"⟩ chainText = .ok [(.string "foo", .map chainDriver)] :=
  eq_ok_of_toOption (by decide +kernel)

theorem holdsFolder_chainText : HoldsFolder chainText (.string "foo") chainFolder := by
  refine ⟨[(.string ".core", .map chainCore), (.string ".driver", .map chainDriver),
    (.string "foo", .map chainFolder)], _, "foo", ?_, rfl, ?_, rfl, ?_⟩
  · decide +kernel
  · decide
  · decide

/-- The rule of the folder has the entries of the mapping in the middle alone, its merge key among
them, and it is refused. -/
theorem merges_reach_one_level_sample :
    loadDocument ⟨"m.yml"⟩ chainText = .ok [(.string "foo", .map chainDriver)] ∧
      (Yaml.string "foo", Yaml.map chainDriver) ∈ [(Yaml.string "foo", Yaml.map chainDriver)] ∧
      ∃ es stored, HoldsFolder chainText (.string "foo") es ∧ Yaml.mergeOwn es = some stored ∧
        chainDriver.getText? "depends_filepatterns" = act Yaml.applyMerges "depends_filepatterns"
          ((Yaml.nearest? 1 "depends_filepatterns" es).bind Yaml.applyMerges) stored ∧
        ∀ path file, ∃ k, Rule.ofYaml path (some chainDriver) file =
          .error (.invalid file (.unknownKey k path)) := by
  have hmem : (Yaml.string "foo", Yaml.map chainDriver) ∈
      [(Yaml.string "foo", Yaml.map chainDriver)] := List.mem_cons_self
  obtain ⟨es, stored, hfolder, hown, hvalue, -, -, hrefused⟩ :=
    merges_reach_one_level loadDocument_chainText hmem
  refine ⟨loadDocument_chainText, hmem, es, stored, hfolder, hown, ?_, hrefused (by decide +kernel)⟩
  exact hvalue "depends_filepatterns" (by decide)

/-- Two merges away from the folder there is a list of components; the rule has none, but a merge
key, for which it is refused. -/
theorem merge_chain_sample :
    loadDocument ⟨"m.yml"⟩ chainText = .ok [(.string "foo", .map chainDriver)] ∧
      HoldsFolder chainText (.string "foo") chainFolder ∧
      Yaml.nearest? 2 "depends_components" chainFolder = some (.seq [.string "soc"]) ∧
      chainDriver.getText? "depends_components" = none ∧
      chainDriver.getText? "<<" = some (.map chainCore) ∧
      Rule.ofYaml ⟨"foo"⟩ (some chainDriver) ⟨"m.yml"⟩ =
        .error (.invalid ⟨"m.yml"⟩ (.unknownKey Yaml.mergeKey ⟨"foo"⟩)) := by
  refine ⟨loadDocument_chainText, holdsFolder_chainText, ?_, ?_, ?_, rfl⟩
  · decide +kernel
  · decide +kernel
  · decide +kernel

end Manifest

end BuildMatrix
