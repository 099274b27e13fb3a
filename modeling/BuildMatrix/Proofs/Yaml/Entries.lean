import BuildMatrix.Yaml.Basic

/-!
# Entries of mappings

What a mapping holds after an entry was added or removed. Values are compared up to the order of
mappings, so look-ups are described for keys that are texts: such a key equals nothing but itself.

* `Yaml.equal_self`, `Yaml.equal_iff_of_text`: equality of values, and of texts.
* `Entries.get?_eq_some_iff`: where no key stands twice, a look-up finds the entry with the key.
* `Entries.swapRemove_perm`, `Entries.swapRemove_append`: which entries are left after a removal,
  and in which order.
* `Entries.get?_insert_self`, `Entries.get?_insert_of_ne`, `Entries.get?_swapRemove_of_ne`: look-ups
  after a change.
-/

namespace BuildMatrix

/-! ## Equality -/

namespace Yaml

mutual

theorem equal_self : ∀ v : Yaml, v.equal v = true
  | null => rfl
  | bool b => by simp [equal]
  | number (.int n) => by simp [equal, Number.equal]
  | number (.float t) => by simp [equal, Number.equal]
  | string s => by simp
  | seq items => by simp [equal, equalItems_self items]
  | map es => by simp [equal, containsEntries_of_subset es (List.Subset.refl es)]
  | tagged t v => by simp [equal, equal_self v]

theorem equalItems_self : ∀ vs : List Yaml, equalItems vs vs = true
  | [] => rfl
  | v :: vs => by simp [equalItems, equal_self v, equalItems_self vs]

theorem containsEntries_of_subset {bs : List (Yaml × Yaml)} :
    ∀ as : List (Yaml × Yaml), as ⊆ bs → containsEntries bs as = true
  | [], _ => rfl
  | (k, v) :: as, h => by
    have hmem : (k, v) ∈ bs := h List.mem_cons_self
    have hany : (bs.any fun e => equal k e.1 && equal v e.2) = true :=
      List.any_eq_true.mpr ⟨(k, v), hmem, by simp [equal_self k, equal_self v]⟩
    have has : as ⊆ bs := fun e he => h (List.mem_cons_of_mem _ he)
    rw [containsEntries, hany, containsEntries_of_subset as has]
    rfl

end

/-- A text, whatever its tags, equals nothing but itself. -/
theorem equal_iff_of_text {s : String} : ∀ {k k' : Yaml}, k.asString? = some s →
    (k.equal k' = true ↔ k' = k)
  | string t, k', _ => equal_string t k'
  | tagged t v, k', h => by
    have hv : v.asString? = some s := h
    cases k' with
    | tagged t' v' =>
      rw [equal, Bool.and_eq_true, beq_iff_eq, equal_iff_of_text hv, tagged.injEq]
      exact ⟨fun h => ⟨h.1.symm, h.2⟩, fun h => ⟨h.1.symm, h.2⟩⟩
    | _ => simp [equal]

theorem equal_iff_of_text_right {s : String} : ∀ {k k' : Yaml}, k'.asString? = some s →
    (k.equal k' = true ↔ k = k')
  | k, string t, _ => by cases k <;> simp [equal]
  | k, tagged t v, h => by
    have hv : v.asString? = some s := h
    cases k with
    | tagged t' v' =>
      rw [equal, Bool.and_eq_true, beq_iff_eq, equal_iff_of_text_right hv, tagged.injEq]
    | _ => simp [equal]

/-- Values that are equal are the same text, or none of them is one. -/
theorem asString?_eq_of_equal {k k' : Yaml} (h : k.equal k' = true) :
    k.asString? = k'.asString? := by
  cases hk : k.asString? with
  | some s => rw [(equal_iff_of_text hk).mp h, hk]
  | none =>
    cases hk' : k'.asString? with
    | none => rfl
    | some s =>
      rw [(equal_iff_of_text_right hk').mp h, hk'] at hk
      exact absurd hk nofun

end Yaml

namespace Entries

/-- The keys of a mapping in their stored order. -/
def keys (es : Entries) : List Yaml :=
  es.map Prod.fst

/-- The entries of a mapping without those of a key. -/
def without (k : Yaml) (es : Entries) : Entries :=
  es.filter fun e => !k.equal e.1

variable {k k' v : Yaml} {s s' : String} {es es' : Entries}

@[simp] theorem keys_cons (e : Yaml × Yaml) (es : Entries) : keys (e :: es) = e.1 :: keys es :=
  rfl

@[simp] theorem keys_append (es es' : Entries) : (es ++ es').keys = es.keys ++ es'.keys :=
  List.map_append

/-! ## Look-ups -/

theorem get?_append (es es' : Entries) : (es ++ es').get? k = (es.get? k).or (es'.get? k) := by
  induction es with
  | nil => rfl
  | cons e es ih =>
    rw [List.cons_append, get?, get?]
    split
    · rfl
    · exact ih

theorem get?_eq_none_iff : es.get? k = none ↔ ∀ e ∈ es, k.equal e.1 = false := by
  induction es with
  | nil => simp [get?]
  | cons e es ih =>
    rw [get?]
    split
    · next h => simp [h]
    · next h => simp [ih, h]

theorem get?_cons_eq_none_iff {e : Yaml × Yaml} :
    get? k (e :: es) = none ↔ k.equal e.1 = false ∧ es.get? k = none := by
  rw [get?_eq_none_iff, get?_eq_none_iff, List.forall_mem_cons]

/-- A key that is missing is not among the keys, whatever it is. -/
theorem not_mem_keys_of_get?_eq_none (h : es.get? k = none) : k ∉ es.keys := by
  intro hmem
  obtain ⟨e, he, rfl⟩ := List.mem_map.mp hmem
  exact absurd (get?_eq_none_iff.mp h e he) (by simp [Yaml.equal_self])

theorem get?_eq_none_of_not_mem_keys (hk : k.asString? = some s) (h : k ∉ es.keys) :
    es.get? k = none := by
  rw [get?_eq_none_iff]
  intro e he
  rw [Bool.eq_false_iff]
  intro heq
  exact h ((Yaml.equal_iff_of_text hk).mp heq ▸ List.mem_map_of_mem he)

/-- The entry with a key divides a mapping. -/
theorem exists_eq_append_of_get?_eq_some (hk : k.asString? = some s) (h : es.get? k = some v) :
    ∃ before after, es = before ++ (k, v) :: after ∧ before.get? k = none := by
  induction es with
  | nil => exact absurd h nofun
  | cons e es ih =>
    rw [get?] at h
    split at h
    · next heq =>
      rw [← Option.some_inj.mp h, ← (Yaml.equal_iff_of_text hk).mp heq]
      exact ⟨[], es, rfl, rfl⟩
    · next hne =>
      obtain ⟨before, after, rfl, hbefore⟩ := ih h
      exact ⟨e :: before, after, rfl, by rw [get?, if_neg hne, hbefore]⟩

theorem mem_of_get?_eq_some (hk : k.asString? = some s) (h : es.get? k = some v) :
    (k, v) ∈ es := by
  obtain ⟨before, after, rfl, -⟩ := exists_eq_append_of_get?_eq_some hk h
  exact List.mem_append_right before List.mem_cons_self

/-- Where no key stands twice, a look-up finds the entry with the key. -/
theorem get?_eq_some_iff (hk : k.asString? = some s) (hes : es.keys.Nodup) :
    es.get? k = some v ↔ (k, v) ∈ es := by
  refine ⟨mem_of_get?_eq_some hk, fun hmem => ?_⟩
  induction es with
  | nil => exact absurd hmem nofun
  | cons e es ih =>
    rw [keys_cons, List.nodup_cons] at hes
    rw [get?]
    rcases List.mem_cons.mp hmem with rfl | hmem
    · rw [if_pos (Yaml.equal_self k)]
    · have hne : ¬k.equal e.1 = true := fun heq =>
        hes.1 ((Yaml.equal_iff_of_text hk).mp heq ▸ List.mem_map_of_mem hmem)
      rw [if_neg hne]
      exact ih hes.2 hmem

/-- The order of the entries does not matter to a look-up. -/
theorem get?_eq_of_perm (hk : k.asString? = some s) (hes : es.keys.Nodup) (h : es.Perm es') :
    es.get? k = es'.get? k := by
  have hes' : es'.keys.Nodup := (h.map Prod.fst).nodup_iff.mp hes
  refine Option.ext fun v => ?_
  rw [get?_eq_some_iff hk hes, get?_eq_some_iff hk hes', h.mem_iff]

/-! ## Additions -/

theorem get?_insert_self (k v : Yaml) (es : Entries) : (es.insert k v).get? k = some v := by
  induction es with
  | nil => exact if_pos (Yaml.equal_self k)
  | cons e es ih =>
    rw [insert]
    split
    · next h => exact if_pos h
    · next h => rw [get?, if_neg h, ih]

theorem get?_insert_of_ne (hk' : k'.asString? = some s') (h : k' ≠ k) (v : Yaml)
    (es : Entries) : (es.insert k v).get? k' = es.get? k' := by
  have hne : ¬k'.equal k = true := fun heq => h ((Yaml.equal_iff_of_text hk').mp heq).symm
  induction es with
  | nil => exact if_neg hne
  | cons e es ih =>
    rw [insert]
    split
    · next heq =>
      have hkey : ¬k'.equal e.1 = true := fun he =>
        h ((Yaml.equal_iff_of_text_right hk').mp ((Yaml.equal_iff_of_text hk').mp he ▸ heq)).symm
      rw [get?, get?, if_neg hkey, if_neg hkey]
    · rw [get?, get?, ih]

theorem insert_of_get?_eq_none (h : es.get? k = none) (v : Yaml) :
    es.insert k v = es ++ [(k, v)] := by
  induction es with
  | nil => rfl
  | cons e es ih =>
    obtain ⟨hne, hes⟩ := get?_cons_eq_none_iff.mp h
    rw [insert, if_neg (by simp [hne]), ih hes, List.cons_append]

theorem mem_of_mem_insert {e : Yaml × Yaml} (hk : k.asString? = some s)
    (h : e ∈ es.insert k v) : e ∈ es ∨ e = (k, v) := by
  induction es with
  | nil => exact Or.inr (List.mem_singleton.mp h)
  | cons x es ih =>
    obtain ⟨k', v'⟩ := x
    rw [insert] at h
    split at h
    · next heq =>
      rcases List.mem_cons.mp h with rfl | h
      · rw [(Yaml.equal_iff_of_text hk).mp heq]
        exact Or.inr rfl
      · exact Or.inl (List.mem_cons_of_mem _ h)
    · rcases List.mem_cons.mp h with rfl | h
      · exact Or.inl List.mem_cons_self
      · rcases ih h with h | h
        · exact Or.inl (List.mem_cons_of_mem _ h)
        · exact Or.inr h

theorem keys_insert_of_get?_ne_none (h : es.get? k ≠ none) (v : Yaml) :
    (es.insert k v).keys = es.keys := by
  induction es with
  | nil => exact absurd rfl h
  | cons e es ih =>
    rw [get?] at h
    rw [insert]
    split
    · rfl
    · next hne =>
      rw [if_neg hne] at h
      rw [keys_cons, keys_cons, ih h]

/-- What does not tell equal keys apart holds of all keys after an addition if it holds of the new
one and of those before. -/
theorem forall_keys_insert_iff {P : Yaml → Prop}
    (hP : ∀ {a b : Yaml}, a.equal b = true → (P a ↔ P b)) :
    (∀ key ∈ (es.insert k v).keys, P key) ↔ P k ∧ ∀ key ∈ es.keys, P key := by
  induction es with
  | nil => simp [insert, keys]
  | cons e es ih =>
    rw [insert]
    split
    · next heq =>
      rw [keys_cons, keys_cons, List.forall_mem_cons, hP heq]
      exact ⟨fun h => ⟨h.1, h⟩, fun h => h.2⟩
    · rw [keys_cons, keys_cons, List.forall_mem_cons, List.forall_mem_cons, ih, and_left_comm]

theorem nodup_keys_append_singleton (hes : es.keys.Nodup) (h : es.get? k = none) (v : Yaml) :
    (es ++ [(k, v)]).keys.Nodup := by
  rw [keys_append, List.nodup_append]
  refine ⟨hes, by simp [keys], fun a ha b hb => ?_⟩
  obtain rfl : b = k := List.mem_singleton.mp hb
  exact fun heq => not_mem_keys_of_get?_eq_none h (heq ▸ ha)

theorem nodup_keys_insert (hes : es.keys.Nodup) (k v : Yaml) : (es.insert k v).keys.Nodup := by
  by_cases h : es.get? k = none
  · rw [insert_of_get?_eq_none h]
    exact nodup_keys_append_singleton hes h v
  · rw [keys_insert_of_get?_ne_none h]
    exact hes

/-- The entries that are taken over stand at the end. -/
theorem exists_addMissing_eq_append (es more : Entries) :
    ∃ taken, es.addMissing more = es ++ taken ∧ ∀ e ∈ taken, e ∈ more := by
  induction more generalizing es with
  | nil => exact ⟨[], (List.append_nil es).symm, nofun⟩
  | cons e more ih =>
    rw [addMissing, List.foldl_cons, ← addMissing]
    split
    · obtain ⟨taken, heq, hmem⟩ := ih es
      exact ⟨taken, heq, fun x hx => List.mem_cons_of_mem _ (hmem x hx)⟩
    · obtain ⟨taken, heq, hmem⟩ := ih (es ++ [e])
      refine ⟨e :: taken, by rw [heq, List.append_assoc, List.singleton_append], fun x hx => ?_⟩
      rcases List.mem_cons.mp hx with rfl | hx
      · exact List.mem_cons_self
      · exact List.mem_cons_of_mem _ (hmem x hx)

theorem nodup_keys_addMissing (hes : es.keys.Nodup) (more : Entries) :
    (es.addMissing more).keys.Nodup := by
  induction more generalizing es with
  | nil => exact hes
  | cons e more ih =>
    rw [addMissing, List.foldl_cons, ← addMissing]
    split
    · exact ih hes
    · next h =>
      rw [hasKey, Bool.not_eq_true, Option.isSome_eq_false_iff, Option.isNone_iff_eq_none] at h
      exact ih (nodup_keys_append_singleton hes h e.2)

/-- What is taken over is found where there was nothing. -/
theorem get?_addMissing (hk : k.asString? = some s) (es more : Entries) :
    (es.addMissing more).get? k = (es.get? k).or (more.get? k) := by
  induction more generalizing es with
  | nil => exact Option.or_none.symm
  | cons e more ih =>
    rw [addMissing, List.foldl_cons, ← addMissing, ih]
    by_cases hkey : k.equal e.1 = true
    · have hmore : get? k (e :: more) = some e.2 := if_pos hkey
      have hsingle : get? k [e] = some e.2 := if_pos hkey
      rw [hmore, (Yaml.equal_iff_of_text hk).mp hkey, hasKey]
      cases hes : es.get? k with
      | none => rw [if_neg nofun, get?_append, hes, hsingle]; rfl
      | some v => rw [if_pos Option.isSome_some, hes]; rfl
    · have hmore : get? k (e :: more) = get? k more := if_neg hkey
      have hsingle : get? k [e] = none := if_neg hkey
      rw [hmore]
      split
      · rfl
      · rw [get?_append, hsingle, Option.or_none]

/-! ## Removals -/

/-- Without the entries of a text other texts keep theirs. -/
theorem get?_without_of_ne (hk : k.asString? = some s) (hk' : k'.asString? = some s')
    (h : k' ≠ k) (es : Entries) : (es.without k).get? k' = es.get? k' := by
  induction es with
  | nil => rfl
  | cons e es ih =>
    rw [without, List.filter_cons]
    split
    · rw [get?, get?, ← without, ih]
    · next heq =>
      rw [Bool.not_eq_true, Bool.not_eq_false', Yaml.equal_iff_of_text hk] at heq
      have hne : ¬k'.equal e.1 = true := fun he =>
        h ((Yaml.equal_iff_of_text hk').mp he ▸ heq)
      rw [get?, if_neg hne]
      exact ih

theorem get?_without_self (k : Yaml) (es : Entries) : (es.without k).get? k = none := by
  rw [get?_eq_none_iff]
  intro e he
  have hother := (List.mem_filter.mp he).2
  rwa [Bool.not_eq_true'] at hother

theorem without_of_get?_eq_none (h : es.get? k = none) : es.without k = es :=
  List.filter_eq_self.mpr fun e he => by rw [get?_eq_none_iff.mp h e he]; rfl

/-- Entries before the first one of a key stay where they are. -/
theorem swapRemove_append_left {before : Entries} (h : before.get? k = none) (es : Entries) :
    (before ++ es).swapRemove k = before ++ es.swapRemove k := by
  induction before with
  | nil => rfl
  | cons e before ih =>
    obtain ⟨hne, hbefore⟩ := get?_cons_eq_none_iff.mp h
    rw [List.cons_append, swapRemove, if_neg (by simp [hne]), ih hbefore, List.cons_append]

theorem swapRemove_of_get?_eq_none (h : es.get? k = none) : es.swapRemove k = es := by
  have hall := swapRemove_append_left h []
  rwa [swapRemove, List.append_nil] at hall

/-- An entry at the end is removed without a change of order. -/
theorem swapRemove_append_singleton {before : Entries} (h : before.get? k = none) (v : Yaml) :
    (before ++ [(k, v)]).swapRemove k = before := by
  have hlast : swapRemove k [(k, v)] = [] := if_pos (Yaml.equal_self k)
  rw [swapRemove_append_left h, hlast, List.append_nil]

/-- The last entry takes the place of the one that is removed. -/
theorem swapRemove_append {before : Entries} (h : before.get? k = none) (v : Yaml)
    (mid : Entries) (last : Yaml × Yaml) :
    (before ++ (k, v) :: (mid ++ [last])).swapRemove k = before ++ last :: mid := by
  rw [swapRemove_append_left h, swapRemove, if_pos (Yaml.equal_self k), List.getLast?_concat,
    List.dropLast_concat]

/-- Where no key stands twice, neither side of an entry holds its key. -/
theorem get?_sides_eq_none (hk : k.asString? = some s) {before after : Entries}
    (h : (before ++ (k, v) :: after).keys.Nodup) :
    before.get? k = none ∧ after.get? k = none := by
  rw [keys_append, keys_cons, List.perm_middle.nodup_iff, List.nodup_cons, List.mem_append,
    not_or] at h
  exact ⟨get?_eq_none_of_not_mem_keys hk h.1.1, get?_eq_none_of_not_mem_keys hk h.1.2⟩

theorem without_append (hk : k.asString? = some s) {before after : Entries}
    (h : (before ++ (k, v) :: after).keys.Nodup) :
    (before ++ (k, v) :: after).without k = before ++ after := by
  obtain ⟨hbefore, hafter⟩ := get?_sides_eq_none hk h
  rw [without, List.filter_append, List.filter_cons_of_neg (by simp [Yaml.equal_self])]
  exact congr (congrArg _ (without_of_get?_eq_none hbefore)) (without_of_get?_eq_none hafter)

/-- Where no key stands twice, a removal leaves the other entries, perhaps in another order. -/
theorem swapRemove_perm (hk : k.asString? = some s) (hes : es.keys.Nodup) :
    (es.swapRemove k).Perm (es.without k) := by
  cases h : es.get? k with
  | none => rw [swapRemove_of_get?_eq_none h, without_of_get?_eq_none h]
  | some v =>
    obtain ⟨before, after, rfl, hbefore⟩ := exists_eq_append_of_get?_eq_some hk h
    rw [without_append hk hes]
    rcases List.eq_nil_or_concat after with rfl | ⟨mid, last, rfl⟩
    · rw [swapRemove_append_singleton hbefore, List.append_nil]
    · rw [List.concat_eq_append, swapRemove_append hbefore]
      exact (List.perm_append_singleton last mid).symm.append_left before

/-- What holds of the removed text holds of all keys if it holds of those that are left. -/
theorem forall_keys_without_iff {P : Yaml → Prop} (hs : P (.string s)) :
    (∀ key ∈ (es.without (.string s)).keys, P key) ↔ ∀ key ∈ es.keys, P key := by
  rw [keys, keys, List.forall_mem_map, List.forall_mem_map]
  constructor
  · intro h e he
    by_cases heq : (Yaml.string s).equal e.1 = true
    · rwa [(Yaml.equal_string s e.1).mp heq]
    · rw [Bool.not_eq_true] at heq
      exact h e (List.mem_filter.mpr ⟨he, by rw [heq]; rfl⟩)
  · exact fun h e he => h e (List.mem_filter.mp he).1

theorem forall_keys_swapRemove_iff {P : Yaml → Prop} (hs : P (.string s)) (hes : es.keys.Nodup) :
    (∀ key ∈ (es.swapRemove (.string s)).keys, P key) ↔ ∀ key ∈ es.keys, P key := by
  have hperm := (swapRemove_perm (k := .string s) rfl hes).map Prod.fst
  refine Iff.trans ?_ (forall_keys_without_iff hs)
  exact forall_congr' fun key => imp_congr_left hperm.mem_iff

theorem nodup_keys_swapRemove (hk : k.asString? = some s) (hes : es.keys.Nodup) :
    (es.swapRemove k).keys.Nodup :=
  ((swapRemove_perm hk hes).map Prod.fst).nodup_iff.mpr
    (hes.sublist (List.filter_sublist.map Prod.fst))

/-- Other texts than the removed one keep their values. -/
theorem get?_swapRemove_of_ne (hk : k.asString? = some s) (hk' : k'.asString? = some s')
    (h : k' ≠ k) (hes : es.keys.Nodup) : (es.swapRemove k).get? k' = es.get? k' := by
  rw [get?_eq_of_perm hk' (nodup_keys_swapRemove hk hes) (swapRemove_perm hk hes),
    get?_without_of_ne hk hk' h]

end Entries

end BuildMatrix
