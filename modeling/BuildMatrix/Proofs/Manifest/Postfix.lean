import BuildMatrix.Manifest.Document
import BuildMatrix.Proofs.Outcome
import BuildMatrix.Proofs.Yaml.Load
import BuildMatrix.Proofs.Yaml.Merge

/-!
# What postfixes make of a list

The postfix entries of a mapping act on the values of its base keys one after the other. An entry
leaves every other key alone, so under each key only the order of its own postfix entries counts.

* `Manifest.act`: what the postfix entries of a mapping make of a value.
* `Manifest.getText?_of_resolvePostfixes`: the rule of a folder holds what they make of its values.
* `Manifest.act_of_mergeValues`: it does not matter when the values of the entries are merged.
* `Manifest.act_move_last`: an entry may change places with entries for other keys.
-/

namespace BuildMatrix.Manifest

/-! ## What postfixes make of a list -/

/-- The items of a list; anything else has none. -/
def itemsOf : Option Yaml → List Yaml
  | some (.seq items) => items
  | _ => []

/-- The postfix entry that an entry of a mapping is. -/
def PostfixEntry.ofEntry? (e : Yaml × Yaml) : Option PostfixEntry :=
  (e.1.asString?.bind splitPostfix?).map fun (base, op) => ⟨base, op, e.2⟩

/-- The postfix entries of a mapping in their stored order. -/
def postfixes (es : Entries) : List PostfixEntry :=
  es.filterMap PostfixEntry.ofEntry?

/-- What a postfix entry makes of the value under the base key `k`. Its own list is what `read`
makes of its value. -/
def PostfixEntry.effect (read : Yaml → Option Yaml) (k : String) (v : Option Yaml)
    (p : PostfixEntry) : Option Yaml :=
  if p.base = k then some (.seq (applyPostfix (itemsOf v) (itemsOf (read p.value)) p.op)) else v

/-- The value of a mapping under the base key `k` before any postfix acts. A key with a postfix is
no base key of the mapping, so it has none. -/
def baseValue? (read : Yaml → Option Yaml) (k : String) (es : Entries) : Option Yaml :=
  if (splitPostfix? k).isSome then none else (es.getText? k).bind read

/-- What the postfix entries of a mapping, one after the other in its order, make of the value under
the base key `k`. -/
def act (read : Yaml → Option Yaml) (k : String) (v : Option Yaml) (es : Entries) : Option Yaml :=
  (postfixes es).foldl (PostfixEntry.effect read k) v

section

variable {folder k : String} {es es' : Entries}

theorem items_of_asList {key : String} {v : Yaml} {items : List Yaml}
    (h : asList folder key v = .ok items) : items = itemsOf (some v) := by
  cases v with
  | seq | null => exact (Except.ok.inj h).symm
  | _ => exact absurd h nofun

theorem eq_of_applyEntry {p : PostfixEntry} (h : applyEntry folder es p = .ok es') :
    es' = (es.swapRemove (.string p.base)).insert (.string p.base)
      (.seq (applyPostfix (itemsOf (es.getText? p.base)) (itemsOf (some p.value)) p.op)) := by
  obtain ⟨items, hitems, h⟩ := bind_eq_ok_iff.mp h
  dsimp only at h
  rw [← items_of_asList hitems]
  split at h
  · next v hv =>
    obtain ⟨current, hcurrent, h⟩ := bind_eq_ok_iff.mp h
    rw [hv, ← items_of_asList hcurrent]
    exact (Except.ok.inj h).symm
  · next hnone =>
    rw [hnone]
    exact (Except.ok.inj h).symm

/-- One postfix entry: it has its effect on its base key and leaves the other texts alone. -/
theorem getText?_of_applyEntry {p : PostfixEntry} (hes : es.keys.Nodup)
    (h : applyEntry folder es p = .ok es') :
    es'.keys.Nodup ∧ ∀ k, es'.getText? k = p.effect some k (es.getText? k) := by
  have hkept : (es.swapRemove (.string p.base)).keys.Nodup :=
    Entries.nodup_keys_swapRemove rfl hes
  rw [eq_of_applyEntry h]
  refine ⟨Entries.nodup_keys_insert hkept _ _, fun k => ?_⟩
  rw [PostfixEntry.effect]
  split
  · next hk => exact hk ▸ Entries.get?_insert_self _ _ _
  · next hk =>
    have hne : Yaml.string k ≠ .string p.base := fun heq => hk (Yaml.string.inj heq).symm
    rw [Entries.getText?, Entries.get?_insert_of_ne rfl hne,
      Entries.get?_swapRemove_of_ne rfl rfl hne hes, Entries.getText?]

/-- All postfix entries: the value under a key is what their effects make of it in their order. -/
theorem getText?_of_foldlM_applyEntry {post : List PostfixEntry} (hes : es.keys.Nodup)
    (h : post.foldlM (applyEntry folder) es = .ok es') (k : String) :
    es'.getText? k = post.foldl (PostfixEntry.effect some k) (es.getText? k) := by
  induction post generalizing es with
  | nil =>
    rw [List.foldlM_nil] at h
    rw [← Except.ok.inj h, List.foldl_nil]
  | cons p post ih =>
    rw [List.foldlM_cons, bind_eq_ok_iff] at h
    obtain ⟨next, hnext, h⟩ := h
    obtain ⟨hkept, hvalue⟩ := getText?_of_applyEntry hes hnext
    rw [ih hkept h, hvalue, List.foldl_cons]

/-! ## The entries of a mapping -/

theorem ofEntry?_string (k : String) (v : Yaml) :
    PostfixEntry.ofEntry? (.string k, v) =
      (splitPostfix? k).map fun (base, op) => ⟨base, op, v⟩ :=
  rfl

/-- Puts an entry with the other entries or with the postfix entries. -/
def splitStep (parts : Entries × List PostfixEntry) (e : Yaml × Yaml) :
    Entries × List PostfixEntry :=
  match PostfixEntry.ofEntry? e with
  | some p => (parts.1, parts.2 ++ [p])
  | none => (parts.1.insert e.1 e.2, parts.2)

theorem splitEntries_eq_foldl (es : Entries) :
    splitEntries es = es.foldl splitStep ([], []) := by
  rw [splitEntries]
  congr 1
  funext ⟨plain, post⟩ ⟨k, v⟩
  dsimp only [splitStep, PostfixEntry.ofEntry?]
  cases k.asString?.bind splitPostfix? <;> rfl

theorem snd_splitEntries (es : Entries) : (splitEntries es).2 = postfixes es := by
  have hfold : ∀ parts, (es.foldl splitStep parts).2 = parts.2 ++ postfixes es := by
    induction es with
    | nil => exact fun parts => (List.append_nil _).symm
    | cons e es ih =>
      intro parts
      rw [List.foldl_cons, ih, splitStep, postfixes, postfixes, List.filterMap_cons]
      cases PostfixEntry.ofEntry? e with
      | none => rfl
      | some p => exact List.append_assoc _ [p] _
  rw [splitEntries_eq_foldl, hfold, List.nil_append]

theorem nodup_keys_splitEntries (es : Entries) : (splitEntries es).1.keys.Nodup := by
  have hfold : ∀ parts : Entries × List PostfixEntry, parts.1.keys.Nodup →
      (es.foldl splitStep parts).1.keys.Nodup := by
    induction es with
    | nil => exact fun parts h => h
    | cons e es ih =>
      intro parts h
      rw [List.foldl_cons]
      refine ih _ ?_
      rw [splitStep]
      split
      · exact h
      · exact Entries.nodup_keys_insert h _ _
  exact splitEntries_eq_foldl es ▸ hfold _ List.nodup_nil

theorem getText?_cons_of_ne {e : Yaml × Yaml} (h : e.1 ≠ .string k) (es : Entries) :
    Entries.getText? k (e :: es) = es.getText? k :=
  if_neg fun heq => h ((Yaml.equal_string k e.1).mp heq)

/-- Each entry gives its own key a value, unless it has a postfix, and no other text. -/
theorem baseValue?_cons {e : Yaml × Yaml} (h : e.1 ∉ es.keys) :
    baseValue? some k (e :: es) = (baseValue? some k es).or (baseValue? some k [e]) := by
  rw [baseValue?, baseValue?, baseValue?]
  split
  · rfl
  · by_cases hkey : e.1 = .string k
    · have hnone : es.getText? k = none := by
        rw [Entries.getText?, Option.eq_none_iff_forall_ne_some]
        exact fun v hv => h (hkey ▸ List.mem_map_of_mem (Entries.mem_of_get?_eq_some rfl hv))
      have hself : ∀ es', Entries.getText? k (e :: es') = some e.2 := fun es' =>
        if_pos ((Yaml.equal_string k e.1).mpr hkey)
      rw [hnone, hself, hself]
      rfl
    · rw [getText?_cons_of_ne hkey, getText?_cons_of_ne hkey]
      exact Option.or_none.symm

theorem getText?_splitStep (parts : Entries × List PostfixEntry) (e : Yaml × Yaml) :
    (splitStep parts e).1.getText? k = (baseValue? some k [e]).or (parts.1.getText? k) := by
  by_cases hkey : e.1 = .string k
  · obtain ⟨key, v⟩ := e
    subst hkey
    rw [splitStep, ofEntry?_string, baseValue?]
    cases splitPostfix? k with
    | some => rfl
    | none =>
      have hself : Entries.getText? k [(.string k, v)] = some v := if_pos (Yaml.equal_self _)
      rw [hself]
      exact Entries.get?_insert_self _ _ _
  · have hbase : baseValue? some k [e] = none := by
      rw [baseValue?, getText?_cons_of_ne hkey]
      exact ite_self none
    rw [hbase, Option.none_or, splitStep]
    split
    · rfl
    · exact Entries.get?_insert_of_ne rfl (Ne.symm hkey) _ _

/-- The other entries of a mapping hold the values of its base keys. -/
theorem getText?_splitEntries (hes : es.keys.Nodup) :
    (splitEntries es).1.getText? k = baseValue? some k es := by
  have hfold : ∀ parts, (es.foldl splitStep parts).1.getText? k =
      (baseValue? some k es).or (parts.1.getText? k) := by
    induction es with
    | nil =>
      intro parts
      have hbase : baseValue? some k [] = none := ite_self none
      rw [hbase, Option.none_or, List.foldl_nil]
    | cons e es ih =>
      rw [Entries.keys_cons, List.nodup_cons] at hes
      intro parts
      rw [List.foldl_cons, ih hes.2, getText?_splitStep, baseValue?_cons hes.1, Option.or_assoc]
  rw [splitEntries_eq_foldl, hfold]
  exact Option.or_none

theorem resolvePostfixes_eq (folder : String) (es : Entries) :
    resolvePostfixes folder es =
      (splitEntries es).2.foldlM (applyEntry folder) (splitEntries es).1 :=
  rfl

/-- The rule of a folder holds, under each key, what the postfix entries make of its value. -/
theorem getText?_of_resolvePostfixes (hes : es.keys.Nodup)
    (h : resolvePostfixes folder es = .ok es') (k : String) :
    es'.getText? k = act some k (baseValue? some k es) es := by
  rw [resolvePostfixes_eq] at h
  rw [getText?_of_foldlM_applyEntry (nodup_keys_splitEntries es) h, snd_splitEntries,
    getText?_splitEntries hes, act]

/-! ## Merged values -/

/-- Whether the values are merged before the entries act, or each as it acts, does not matter. -/
theorem act_of_mergeValues {merged : Entries} (h : Yaml.mergeValues es = some merged) (k : String)
    (v : Option Yaml) : act some k v merged = act Yaml.applyMerges k v es := by
  induction es generalizing merged v with
  | nil => exact Option.some_inj.mp h ▸ rfl
  | cons e es ih =>
    obtain ⟨w, rest, hw, hrest, rfl⟩ := Yaml.mergeValues_cons_eq_some_iff.mp h
    rw [act, act, postfixes, postfixes, List.filterMap_cons, List.filterMap_cons, ← postfixes,
      ← postfixes, PostfixEntry.ofEntry?, PostfixEntry.ofEntry?]
    cases e.1.asString?.bind splitPostfix? with
    | none => exact ih hrest v
    | some split =>
      obtain ⟨base, op⟩ := split
      have heffect : PostfixEntry.effect some k v ⟨base, op, w⟩ =
          PostfixEntry.effect Yaml.applyMerges k v ⟨base, op, e.2⟩ := by
        rw [PostfixEntry.effect, PostfixEntry.effect, hw]
      dsimp only [Option.map_some]
      rw [List.foldl_cons, List.foldl_cons, heffect]
      exact ih hrest _

theorem baseValue?_of_mergeValues {merged : Entries} (h : Yaml.mergeValues es = some merged)
    (k : String) : baseValue? some k merged = baseValue? Yaml.applyMerges k es := by
  rw [baseValue?, baseValue?, Entries.getText?, Yaml.get?_of_mergeValues h,
    Option.bind_fun_some, Entries.getText?]

end

/-! ## Acting in another order -/

/-- An entry is a postfix entry for the base key `k`. -/
def ActsOn (k : String) (e : Yaml × Yaml) : Prop :=
  ∃ p, PostfixEntry.ofEntry? e = some p ∧ p.base = k

section

variable {read : Yaml → Option Yaml} {k : String} {es mid : Entries} {v : Option Yaml}

theorem act_append (read : Yaml → Option Yaml) (k : String) (v : Option Yaml) (es es' : Entries) :
    act read k v (es ++ es') = act read k (act read k v es) es' := by
  rw [act, act, act, postfixes, List.filterMap_append, List.foldl_append, ← postfixes, ← postfixes]

theorem act_cons (read : Yaml → Option Yaml) (k : String) (v : Option Yaml) (e : Yaml × Yaml)
    (es : Entries) : act read k v (e :: es) = act read k (act read k v [e]) es :=
  act_append read k v [e] es

theorem act_singleton_of_not_actsOn {e : Yaml × Yaml} (h : ¬ActsOn k e) :
    act read k v [e] = v := by
  rw [act, postfixes, List.filterMap_cons, List.filterMap_nil]
  split
  · rfl
  · next p hp => exact if_neg fun hbase => h ⟨p, hp, hbase⟩

theorem act_of_not_actsOn (h : ∀ e ∈ es, ¬ActsOn k e) : act read k v es = v := by
  induction es with
  | nil => rfl
  | cons e es ih =>
    rw [act_cons, act_singleton_of_not_actsOn (h e List.mem_cons_self),
      ih fun e he => h e (List.mem_cons_of_mem _ he)]

/-- An entry may change places with others unless it and one of them act on the key. -/
theorem act_move_last {last : Yaml × Yaml} (h : ActsOn k last → ∀ e ∈ mid, ¬ActsOn k e) :
    act read k v (last :: mid) = act read k v (mid ++ [last]) := by
  rw [act_cons, act_append]
  by_cases hlast : ActsOn k last
  · rw [act_of_not_actsOn (h hlast), act_of_not_actsOn (h hlast)]
  · rw [act_singleton_of_not_actsOn hlast, act_singleton_of_not_actsOn hlast]

end

end BuildMatrix.Manifest
