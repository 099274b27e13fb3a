import BuildMatrix.Proofs.Manifest.ListOrder

/-!
# Empty postfix lists

An entry `key+` or `key-` with an empty list has nothing to add or to take away, and no clause or
dependency comes or goes. But the list under `key` is taken apart and put together again, and is read
only then. So the mapping has the rule that it has without the entry, up to the order of dependencies
and of clauses with a tagged `if` key, except that a list of dependencies which is refused for items
such as null is accepted, each of these items as a text.

* `Rule.withPostfix`: a mapping with such an entry, anywhere among the others.
* `Rule.rearranges_of_resolvePostfixes`: what becomes of it.
* `Rule.empty_postfix_iff`: when it has a rule, and which one.
-/

namespace BuildMatrix.Rule

open Manifest

section

variable {es before after out : Entries} {k key : String} {v : Yaml} {op : Postfix}
  {name : String} {items : List Yaml}

theorem splitPostfix?_push (k : String) (op : Postfix) :
    splitPostfix? (k.push op.render) = some (k, op) := by
  rw [splitPostfix?, String.toList_push, List.reverse_append]
  cases op <;> simp [Postfix.render]

theorem splitPostfix?_of_mem_keys (h : key ∈ keys) : splitPostfix? key = none := by
  revert key
  decide

theorem hasKnownKeys_splitEntries_iff :
    HasKnownKeys (splitEntries es).1 ↔
      ∀ e ∈ es, PostfixEntry.ofEntry? e = none → IsKnown e.1 := by
  have hfold : ∀ parts : Entries × List PostfixEntry,
      HasKnownKeys (es.foldl splitStep parts).1 ↔ HasKnownKeys parts.1 ∧
        ∀ e ∈ es, PostfixEntry.ofEntry? e = none → IsKnown e.1 := by
    induction es with
    | nil => simp
    | cons e es ih =>
      intro parts
      rw [List.foldl_cons, ih, List.forall_mem_cons, splitStep]
      cases h : PostfixEntry.ofEntry? e with
      | some p => simp
      | none =>
        have hinsert : HasKnownKeys (parts.1.insert e.1 e.2) ↔
            IsKnown e.1 ∧ HasKnownKeys parts.1 := Entries.forall_keys_insert_iff isKnown_congr
        dsimp only
        rw [hinsert, forall_prop_of_true rfl, and_assoc, and_left_comm]
  rw [splitEntries_eq_foldl, hfold]
  exact and_iff_right (List.forall_mem_nil _)

/-- A mapping with an entry that has a postfix, among entries that have none. -/
def withPostfix (before after : Entries) (k : String) (op : Postfix) (v : Yaml) : Entries :=
  before ++ (.string (k.push op.render), v) :: after

theorem ofEntry?_push (k : String) (op : Postfix) (v : Yaml) :
    PostfixEntry.ofEntry? (.string (k.push op.render), v) = some ⟨k, op, v⟩ := by
  rw [ofEntry?_string, splitPostfix?_push]
  rfl

/-- An empty list with a postfix has the list under its base key rearranged, if that is a list. -/
theorem applyEntry_eq_ok_iff_of_empty (hv : v = .seq [] ∨ v = .null) :
    applyEntry name es ⟨k, op, v⟩ = .ok out ↔ ∃ items, listOf es k = .ok items ∧
      (es.swapRemove (.string k)).insert (.string k) (.seq (rearranged items)) = out := by
  have hlist : asList name (k.push op.render) v = .ok [] := by obtain rfl | rfl := hv <;> rfl
  have hput : ∀ items : List Yaml,
      (.ok ((es.swapRemove (.string k)).insert (.string k) (.seq (rearranged items))) :
        Except ManifestFault Entries) = .ok out ↔
      ∃ items', (.ok items : Except ManifestFault (List Yaml)) = .ok items' ∧
        (es.swapRemove (.string k)).insert (.string k) (.seq (rearranged items')) = out := by
    simp
  rw [applyEntry, PostfixEntry.key, hlist, listOf]
  cases es.getText? k with
  | none => exact hput []
  | some w =>
    cases w with
    | seq items => exact hput items
    | null => exact hput []
    | _ =>
      constructor
      · intro h
        cases h
      · rintro ⟨items, hitems, -⟩
        cases hitems

variable (hplain : postfixes (before ++ after) = [])
include hplain

theorem ofEntry?_eq_none {e : Yaml × Yaml} (he : e ∈ before ++ after) :
    PostfixEntry.ofEntry? e = none :=
  List.filterMap_eq_nil_iff.mp hplain e he

theorem postfixes_withPostfix : postfixes (withPostfix before after k op v) = [⟨k, op, v⟩] := by
  rw [postfixes, List.filterMap_append, List.append_eq_nil_iff] at hplain
  rw [withPostfix, postfixes, List.filterMap_append, List.filterMap_cons, ofEntry?_push,
    hplain.1, hplain.2]
  rfl

theorem nodup_keys_withPostfix (hes : (before ++ after).keys.Nodup) :
    (withPostfix before after k op v).keys.Nodup := by
  rw [withPostfix, Entries.keys_append, Entries.keys_cons, List.perm_middle.nodup_iff,
    List.nodup_cons, ← Entries.keys_append]
  refine ⟨fun hmem => ?_, hes⟩
  obtain ⟨⟨key, w⟩, he, hkey⟩ := List.mem_map.mp hmem
  have hnone := ofEntry?_eq_none hplain he
  obtain rfl : key = _ := hkey
  rw [ofEntry?_push] at hnone
  exact absurd hnone nofun

omit hplain in
theorem getText?_withPostfix (hkey : key ∈ keys) :
    (withPostfix before after k op v).getText? key = (before ++ after).getText? key := by
  have hne : Yaml.string (k.push op.render) ≠ .string key := by
    intro heq
    have hsplit := splitPostfix?_of_mem_keys hkey
    rw [← Yaml.string.inj heq, splitPostfix?_push] at hsplit
    exact absurd hsplit nofun
  rw [withPostfix, Entries.getText?, Entries.getText?, Entries.get?_append, Entries.get?_append,
    ← Entries.getText?, ← Entries.getText?, ← Entries.getText?, getText?_cons_of_ne hne]

theorem getText?_plain (hes : (before ++ after).keys.Nodup) (hkey : key ∈ keys) :
    (splitEntries (withPostfix before after k op v)).1.getText? key =
      (before ++ after).getText? key := by
  rw [getText?_splitEntries (nodup_keys_withPostfix hplain hes), baseValue?,
    splitPostfix?_of_mem_keys hkey, getText?_withPostfix hkey]
  exact Option.bind_fun_some _

theorem hasKnownKeys_plain :
    HasKnownKeys (splitEntries (withPostfix before after k op v)).1 ↔
      HasKnownKeys (before ++ after) := by
  rw [hasKnownKeys_splitEntries_iff, HasKnownKeys, Entries.keys, List.forall_mem_map]
  constructor
  · intro h e he
    refine h e ?_ (ofEntry?_eq_none hplain he)
    rw [withPostfix, List.perm_middle.mem_iff]
    exact List.mem_cons_of_mem _ he
  · intro h e he hnone
    rw [withPostfix, List.perm_middle.mem_iff] at he
    rcases List.mem_cons.mp he with rfl | he
    · rw [ofEntry?_push] at hnone
      cases hnone
    · exact h e he

theorem resolvePostfixes_withPostfix : resolvePostfixes name (withPostfix before after k op v) =
    applyEntry name (splitEntries (withPostfix before after k op v)).1 ⟨k, op, v⟩ := by
  rw [resolvePostfixes_eq, snd_splitEntries, postfixes_withPostfix hplain, List.foldlM_cons]
  exact bind_pure _

/-- Resolving an empty list with a postfix. -/
theorem rearranges_of_resolvePostfixes (hes : (before ++ after).keys.Nodup) (hk : k ∈ keys)
    (hv : v = .seq [] ∨ v = .null)
    (h : resolvePostfixes name (withPostfix before after k op v) = .ok out) :
    ∃ items, Rearranges k (before ++ after) out items := by
  rw [resolvePostfixes_withPostfix hplain, applyEntry_eq_ok_iff_of_empty hv] at h
  obtain ⟨items, hitems, rfl⟩ := h
  have hnodup := nodup_keys_splitEntries (withPostfix before after k op v)
  refine ⟨items, ?_, fun key hkey hne => ?_, ?_, ?_⟩
  · have hknown : HasKnownKeys (splitEntries (withPostfix before after k op v)).1 ↔
        HasKnownKeys (before ++ after) := hasKnownKeys_plain hplain
    rw [← hknown, HasKnownKeys, Entries.forall_keys_insert_iff isKnown_congr, HasKnownKeys,
      Entries.forall_keys_swapRemove_iff (isKnown_string hk) hnodup]
    exact and_iff_right (isKnown_string hk)
  · have hne : Yaml.string key ≠ .string k := fun heq => hne (Yaml.string.inj heq)
    rw [Entries.getText?, Entries.get?_insert_of_ne rfl hne,
      Entries.get?_swapRemove_of_ne rfl rfl hne hnodup]
    exact getText?_plain hplain hes hkey
  · rw [← hitems]
    exact listOf_congr (getText?_plain hplain hes hk).symm
  · rw [listOf, Entries.getText?, Entries.get?_insert_self]

theorem exists_resolvePostfixes (hes : (before ++ after).keys.Nodup) (hk : k ∈ keys)
    (hv : v = .seq [] ∨ v = .null) (hitems : listOf (before ++ after) k = .ok items) :
    ∃ out, resolvePostfixes name (withPostfix before after k op v) = .ok out := by
  have hlist : listOf (splitEntries (withPostfix before after k op v)).1 k = .ok items := by
    rw [listOf_congr (getText?_plain hplain hes hk), hitems]
  simp only [resolvePostfixes_withPostfix hplain, applyEntry_eq_ok_iff_of_empty hv]
  exact ⟨_, items, hlist, rfl⟩

/-! ## What an empty list changes -/

/-- Whether a rule is read from a mapping after its postfix entries have been applied. -/
def IsReadResolved (name : String) (folder file : Path) (es : Entries) (r : Rule) : Prop :=
  ∃ out, resolvePostfixes name es = .ok out ∧ ofYaml folder (some out) file = .ok r

variable (hes : (before ++ after).keys.Nodup) (hk : k ∈ keys) (hv : v = .seq [] ∨ v = .null)
include hes hk hv

theorem exists_isReadResolved_iff (name : String) (folder file : Path) {Q : Prop}
    (hQ : ∀ {out items}, Rearranges k (before ++ after) out items → ((∃ r, IsReadFrom r out) ↔ Q))
    (hlist : Q → ∃ items, listOf (before ++ after) k = .ok items) :
    (∃ r, IsReadResolved name folder file (withPostfix before after k op v) r) ↔ Q := by
  constructor
  · rintro ⟨r, out, hout, hr⟩
    obtain ⟨items, hrearranges⟩ := rearranges_of_resolvePostfixes hplain hes hk hv hout
    exact (hQ hrearranges).mp ⟨r, (ofYaml_eq_ok_iff.mp hr).1⟩
  · intro h
    obtain ⟨items, hitems⟩ := hlist h
    obtain ⟨out, hout⟩ := exists_resolvePostfixes hplain hes hk hv hitems
    obtain ⟨items', hrearranges⟩ := rearranges_of_resolvePostfixes hplain hes hk hv hout
    obtain ⟨r, hr⟩ := (exists_ofYaml_iff folder file out).mpr ((hQ hrearranges).mpr h)
    exact ⟨r, out, hout, hr⟩

end

/-- **An empty postfix list changes nothing but what it hides.** Let an entry for a key of a rule that
adds or takes away nothing stand among entries without postfixes. If the list under the key hides
nothing, the mapping has a rule with the entry if and only if it has one without it. If the list hides
something, the mapping is refused as it is, and has a rule with the entry if and only if it has one
without the list. Rules with and without the entry have the same clauses, in the same order if all of
these are seen to have an `if` key, and resolve in every context to the same dependencies up to order
and repetition. -/
theorem empty_postfix_iff (before after : Entries) {k : String} (op : Postfix) {v : Yaml}
    (name : String) (folder file : Path) (hplain : postfixes (before ++ after) = [])
    (hes : (before ++ after).keys.Nodup) (hk : k ∈ keys) (hv : v = .seq [] ∨ v = .null) :
    (¬ HidesItems k (before ++ after) →
      ((∃ r, IsReadResolved name folder file (withPostfix before after k op v) r) ↔
        ∃ r, ofYaml folder (some (before ++ after)) file = .ok r)) ∧
    (HidesItems k (before ++ after) →
      (¬ ∃ r, ofYaml folder (some (before ++ after)) file = .ok r) ∧
      ((∃ r, IsReadResolved name folder file (withPostfix before after k op v) r) ↔
        ∃ r, ofYaml folder (some (Entries.without (.string k) (before ++ after))) file = .ok r)) ∧
    ∀ r s, ofYaml folder (some (before ++ after)) file = .ok r →
      IsReadResolved name folder file (withPostfix before after k op v) s →
      r.SameUpTo List.Perm s ∧ (ShowsConditions k (before ++ after) → r.SameUpTo Eq s) := by
  refine ⟨fun hhides => ?_, fun hhides => ⟨?_, ?_⟩, fun r s hr hs => ?_⟩
  · rw [exists_ofYaml_iff]
    refine exists_isReadResolved_iff hplain hes hk hv name folder file
      (fun h => h.exists_isReadFrom_iff hhides) fun ⟨r, hr⟩ => hr.exists_listOf hk
  · rw [exists_ofYaml_iff]
    exact fun ⟨r, hr⟩ => hhides.not_isReadFrom hr
  · rw [exists_ofYaml_iff]
    exact exists_isReadResolved_iff hplain hes hk hv name folder file
      (fun h => h.exists_isReadFrom_iff_without hhides) fun _ => hhides.exists_listOf
  · obtain ⟨out, hout, hs⟩ := hs
    obtain ⟨items, hrearranges⟩ := rearranges_of_resolvePostfixes hplain hes hk hv hout
    have hr := (ofYaml_eq_ok_iff.mp hr).1
    have hs := (ofYaml_eq_ok_iff.mp hs).1
    exact ⟨hrearranges.sameUpTo_perm hr hs, fun hshows => hrearranges.sameUpTo_eq hshows hr hs⟩

/-- A clause, and dependencies with a repeated one. -/
def repeatingEntries : Entries :=
  [(.string "disable", .seq [.map [(.string "if", .string "IDF_TARGET == \"esp32\"")]]),
    (.string "depends_components", .seq [.string "soc", .number (.int 7), .string "soc"])]

/-- A list of dependencies with null in it. -/
def nullEntries : Entries :=
  [(.string "depends_components", .seq [.null])]

/-- The rule of the mapping with a clause. -/
def repeatingRule : Rule where
  folder := ⟨"foo"⟩
  disable := [{
    stmt := "IDF_TARGET == \"esp32\""
    expr := .compare (.attr "IDF_TARGET") .eq (.literal (.str "esp32")) }]
  components := .flat ["soc", "7", "soc"]
  file := some ⟨"m.yml"⟩

theorem empty_postfix_iff_sample :
    (∃ s, IsReadResolved "foo" ⟨"foo"⟩ ⟨"m.yml"⟩
        (withPostfix repeatingEntries [] "depends_components" .remove (.seq [])) s ∧
          repeatingRule.SameUpTo Eq s) ∧
      (∃ s, IsReadResolved "foo" ⟨"foo"⟩ ⟨"m.yml"⟩
        (withPostfix nullEntries [] "depends_components" .add (.seq [])) s) ∧
      ¬ ∃ r, ofYaml ⟨"foo"⟩ (some nullEntries) ⟨"m.yml"⟩ = .ok r := by
  have hrepeating : ofYaml ⟨"foo"⟩ (some (repeatingEntries ++ [])) ⟨"m.yml"⟩ = .ok repeatingRule :=
    eq_ok_of_toOption (by decide +kernel)
  have hempty : ofYaml ⟨"foo"⟩ (some (Entries.without (.string "depends_components")
      (nullEntries ++ []))) ⟨"m.yml"⟩ = .ok ⟨⟨"foo"⟩, [], [], [], .none, .none, some ⟨"m.yml"⟩⟩ :=
    eq_ok_of_toOption (by decide +kernel)
  have hk : "depends_components" ∈ keys := by decide
  obtain ⟨haccepts, -, hsame⟩ := empty_postfix_iff repeatingEntries [] .remove "foo" ⟨"foo"⟩
    ⟨"m.yml"⟩ (by decide +kernel) (by decide +kernel) hk (Or.inl rfl)
  obtain ⟨-, hhides, -⟩ := empty_postfix_iff nullEntries [] .add "foo" ⟨"foo"⟩ ⟨"m.yml"⟩
    (by decide +kernel) (by decide +kernel) hk (Or.inl rfl)
  obtain ⟨hrefused, haccepted⟩ := hhides (by decide +kernel)
  refine ⟨?_, haccepted.mpr ⟨_, hempty⟩, hrefused⟩
  obtain ⟨s, hs⟩ := (haccepts (by decide +kernel)).mpr ⟨_, hrepeating⟩
  exact ⟨s, hs, (hsame _ s hrepeating hs).2 fun hclause => absurd hclause (by decide)⟩

/-- As it is, the list is refused; with an empty list to add, its null is taken for a name. -/
theorem null_becomes_dependency :
    (ofYaml ⟨"foo"⟩ (some nullEntries) ⟨"m.yml"⟩).toOption = none ∧
      ((resolvePostfixes "foo" (withPostfix nullEntries [] "depends_components" .add
        (.seq []))).toOption.bind fun out =>
          (ofYaml ⟨"foo"⟩ (some out) ⟨"m.yml"⟩).toOption).map Rule.components =
        some (.flat ["Null"]) := by
  decide +kernel

end BuildMatrix.Rule
