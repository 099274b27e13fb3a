import BuildMatrix.Proofs.Yaml.Load
import BuildMatrix.Yaml.Merge

/-!
# What merging makes of a mapping

A mapping loses its merge key and takes over entries behind its own ones; then the values of all its
entries are merged in the same way.

* `Yaml.exists_mergeItems_of_mergeOwn`: a merge key acts as a list of values.
* `Yaml.exists_mergeOwn_eq`: the entries of a mapping after its own merge key has been applied.
* `Yaml.mem_mergeOwn`: where each of them comes from.
* `Yaml.nodup_keys_mergeOwn`, `Yaml.KeysOnce.of_mem_mergeOwn`: no key stands twice afterwards.
* `Yaml.mergeLevels_of_height_le`: more levels than a value has change nothing.
* `Yaml.applyMerges_map`: merging goes through a mapping level by level.
* `Yaml.exists_mem_of_mergeValues`: where the entries come from that merging leads to.
-/

namespace BuildMatrix

/-- Removing an entry adds none. -/
theorem Entries.mem_of_mem_swapRemove {k : Yaml} {es : Entries} {e : Yaml × Yaml}
    (h : e ∈ es.swapRemove k) : e ∈ es := by
  induction es with
  | nil => exact h
  | cons x es ih =>
    rw [swapRemove] at h
    split at h
    · split at h
      · next last hlast =>
        rcases List.mem_cons.mp h with rfl | h
        · exact List.mem_cons_of_mem _ (List.mem_of_getLast? hlast)
        · exact List.mem_cons_of_mem _ (List.dropLast_subset es h)
      · exact absurd h List.not_mem_nil
    · rcases List.mem_cons.mp h with rfl | h
      · exact List.mem_cons_self
      · exact List.mem_cons_of_mem _ (ih h)

namespace Yaml

/-! ## One mapping -/

/-- The value of a merge key holds a mapping: it is this mapping, or a list with it. -/
inductive Offers : Yaml → Entries → Prop
  | map (more : Entries) : Offers (map more) more
  | seq {items : List Yaml} {more : Entries} (h : map more ∈ items) : Offers (seq items) more

/-- The mapping that a value without a tag is. -/
def bareMap? : Yaml → Option Entries
  | map es => some es
  | _ => none

/-- The mappings that a mapping takes over, in their order. -/
def mergedIn (es : Entries) : List Entries :=
  match es.get? mergeKey with
  | some (map more) => [more]
  | some (seq items) => items.filterMap bareMap?
  | _ => []

section

variable {es stored : Entries} {e : Yaml × Yaml}

/-- A merge key acts as a list of values: as none where there is no merge key, and as a single one
where it holds a mapping. -/
theorem exists_mergeItems_of_mergeOwn (h : mergeOwn es = some stored) :
    ∃ items, mergeItems (es.swapRemove mergeKey) items = some stored ∧
      items.filterMap bareMap? = mergedIn es ∧
      ∀ more, map more ∈ items → ∃ m, (mergeKey, m) ∈ es ∧ Offers m more := by
  rw [mergedIn]
  rw [mergeOwn] at h
  split at h
  · next hnone =>
    refine ⟨[], ?_, by rw [hnone]; rfl, nofun⟩
    rw [Entries.swapRemove_of_get?_eq_none hnone]
    exact h
  · next more hmore =>
    refine ⟨[map more], h, by rw [hmore]; rfl, fun source hsource => ?_⟩
    obtain rfl := Yaml.map.inj (List.mem_singleton.mp hsource)
    exact ⟨map source, Entries.mem_of_get?_eq_some rfl hmore, .map source⟩
  · next items hitems =>
    refine ⟨items, h, by rw [hitems], fun source hsource => ?_⟩
    exact ⟨seq items, Entries.mem_of_get?_eq_some rfl hitems, .seq hsource⟩
  · exact absurd h nofun

theorem exists_mergeItems_eq {items : List Yaml} (h : mergeItems es items = some stored) :
    ∃ taken, stored = es ++ taken ∧ ∀ e ∈ taken, ∃ more, map more ∈ items ∧ e ∈ more := by
  induction items generalizing es with
  | nil => exact ⟨[], by rw [List.append_nil, ← Option.some_inj.mp h], nofun⟩
  | cons item items ih =>
    cases item with
    | map more =>
      obtain ⟨first, heq, hfirst⟩ := es.exists_addMissing_eq_append more
      have hitems : mergeItems (es.addMissing more) items = some stored := h
      obtain ⟨later, rfl, hlater⟩ := ih hitems
      refine ⟨first ++ later, by rw [heq, List.append_assoc], fun e he => ?_⟩
      rcases List.mem_append.mp he with he | he
      · exact ⟨more, List.mem_cons_self, hfirst e he⟩
      · obtain ⟨source, hsource, he⟩ := hlater e he
        exact ⟨source, List.mem_cons_of_mem _ hsource, he⟩
    | _ => exact absurd h nofun

/-- What a mapping takes over stands behind its own entries, the last of which has taken the place
of the merge key. -/
theorem exists_mergeOwn_eq (h : mergeOwn es = some stored) :
    ∃ taken, stored = es.swapRemove mergeKey ++ taken ∧
      ∀ e ∈ taken, ∃ m more, (mergeKey, m) ∈ es ∧ Offers m more ∧ e ∈ more := by
  obtain ⟨items, hitems, -, hsources⟩ := exists_mergeItems_of_mergeOwn h
  obtain ⟨taken, heq, htaken⟩ := exists_mergeItems_eq hitems
  refine ⟨taken, heq, fun e he => ?_⟩
  obtain ⟨more, hmore, he⟩ := htaken e he
  obtain ⟨m, hm, hoffers⟩ := hsources more hmore
  exact ⟨m, more, hm, hoffers, he⟩

theorem mem_mergeOwn (h : mergeOwn es = some stored) (he : e ∈ stored) :
    e ∈ es ∨ ∃ m more, (mergeKey, m) ∈ es ∧ Offers m more ∧ e ∈ more := by
  obtain ⟨taken, rfl, htaken⟩ := exists_mergeOwn_eq h
  rcases List.mem_append.mp he with he | he
  · exact .inl (Entries.mem_of_mem_swapRemove he)
  · exact .inr (htaken e he)

theorem nodup_keys_mergeItems {items : List Yaml} (hes : es.keys.Nodup)
    (h : mergeItems es items = some stored) : stored.keys.Nodup := by
  induction items generalizing es with
  | nil => exact Option.some_inj.mp h ▸ hes
  | cons item items ih =>
    cases item with
    | map more => exact ih (Entries.nodup_keys_addMissing hes more) h
    | _ => exact absurd h nofun

/-- No key of a mapping stands twice after merging if none does before. -/
theorem nodup_keys_mergeOwn (hes : es.keys.Nodup) (h : mergeOwn es = some stored) :
    stored.keys.Nodup := by
  obtain ⟨items, hitems, -⟩ := exists_mergeItems_of_mergeOwn h
  exact nodup_keys_mergeItems (Entries.nodup_keys_swapRemove rfl hes) hitems

theorem get?_mergeItems {items : List Yaml} {k : Yaml} {s : String} (hk : k.asString? = some s)
    (h : mergeItems es items = some stored) :
    stored.get? k =
      (es.get? k).or ((items.filterMap bareMap?).findSome? (Entries.get? k)) := by
  induction items generalizing es with
  | nil => rw [← Option.some_inj.mp h]; exact Option.or_none.symm
  | cons item items ih =>
    cases item with
    | map more =>
      have hitems : mergeItems (es.addMissing more) items = some stored := h
      have hmaps : (map more :: items).filterMap bareMap? = more :: items.filterMap bareMap? := rfl
      rw [ih hitems, Entries.get?_addMissing hk, Option.or_assoc, hmaps, List.findSome?_cons]
      cases Entries.get? k more <;> rfl
    | _ => exact absurd h nofun

/-- A text has its own value, or else the one of the first merged mapping that holds it. -/
theorem get?_mergeOwn {k : Yaml} {s : String} (hk : k.asString? = some s)
    (h : mergeOwn es = some stored) :
    stored.get? k =
      ((es.swapRemove mergeKey).get? k).or ((mergedIn es).findSome? (Entries.get? k)) := by
  obtain ⟨items, hitems, hmerged, -⟩ := exists_mergeItems_of_mergeOwn h
  rw [← hmerged]
  exact get?_mergeItems hk hitems

theorem KeysOnce.nodup_keys (h : KeysOnce (.map es)) : es.keys.Nodup := by
  cases h with
  | map hkeys => exact hkeys

theorem KeysOnce.of_mem (h : KeysOnce (.map es)) (he : e ∈ es) : KeysOnce e.2 := by
  cases h with
  | map _ hvalues => exact hvalues e he

theorem KeysOnce.of_offers {m : Yaml} {more : Entries} (h : KeysOnce m) (hm : Offers m more) :
    KeysOnce (.map more) := by
  cases hm with
  | map => exact h
  | seq hmem =>
    cases h with
    | seq hitems => exact hitems _ hmem

theorem KeysOnce.of_mem_mergeOwn (h : KeysOnce (.map es)) (hown : mergeOwn es = some stored)
    (he : e ∈ stored) : KeysOnce e.2 := by
  rcases mem_mergeOwn hown he with he | ⟨m, more, hm, hoffers, he⟩
  · exact h.of_mem he
  · exact ((h.of_mem hm).of_offers hoffers).of_mem he

end

/-! ## All levels -/

/-- Computations that agree on the members of a list agree on the list. -/
theorem mapM_congr_of_mem {α β : Type} {f g : α → Option β} {as : List α}
    (h : ∀ a ∈ as, f a = g a) : as.mapM f = as.mapM g := by
  induction as with
  | nil => rfl
  | cons a as ih =>
    rw [List.mapM_cons, List.mapM_cons, h a List.mem_cons_self,
      ih fun b hb => h b (List.mem_cons_of_mem a hb)]

theorem height_le_heightItems {v : Yaml} {vs : List Yaml} (h : v ∈ vs) :
    height v ≤ heightItems vs := by
  induction vs with
  | nil => exact absurd h nofun
  | cons w vs ih =>
    rw [heightItems]
    rcases List.mem_cons.mp h with rfl | h
    · exact Nat.le_max_left _ _
    · exact Nat.le_trans (ih h) (Nat.le_max_right _ _)

theorem height_le_heightEntries {e : Yaml × Yaml} {es : Entries} (h : e ∈ es) :
    height e.2 ≤ heightEntries es := by
  induction es with
  | nil => exact absurd h nofun
  | cons x es ih =>
    rw [heightEntries]
    rcases List.mem_cons.mp h with rfl | h
    · exact Nat.le_max_left _ _
    · exact Nat.le_trans (ih h) (Nat.le_max_right _ _)

theorem Offers.height_lt {m : Yaml} {more : Entries} (h : Offers m more) {e : Yaml × Yaml}
    (he : e ∈ more) : height e.2 < height m := by
  have hle : height e.2 ≤ heightEntries more := height_le_heightEntries he
  cases h with
  | map => exact Nat.lt_succ_of_le hle
  | @seq items _ hmem =>
    have hmap : heightEntries more + 1 ≤ heightItems items := height_le_heightItems hmem
    exact Nat.lt_succ_of_le (by omega)

/-- Merging makes the values of a mapping no higher. -/
theorem height_le_of_mem_mergeOwn {es stored : Entries} (h : mergeOwn es = some stored)
    {e : Yaml × Yaml} (he : e ∈ stored) : height e.2 ≤ heightEntries es := by
  rcases mem_mergeOwn h he with he | ⟨m, more, hm, hoffers, he⟩
  · exact height_le_heightEntries he
  · exact Nat.le_trans (Nat.le_of_lt (hoffers.height_lt he)) (height_le_heightEntries hm)

theorem mergeLevels_atom {v : Yaml} (n : Nat) (h : height v = 0) : mergeLevels n v = some v := by
  cases n with
  | zero => rfl
  | succ n =>
    cases v with
    | seq | map | tagged => exact absurd h (Nat.succ_ne_zero _)
    | _ => rfl

/-- One level more than a value has changes nothing. -/
theorem mergeLevels_succ {n : Nat} {v : Yaml} (h : height v ≤ n) :
    mergeLevels (n + 1) v = mergeLevels n v := by
  induction n generalizing v with
  | zero => rw [mergeLevels_atom _ (Nat.le_zero.mp h), mergeLevels_atom _ (Nat.le_zero.mp h)]
  | succ n ih =>
    cases v with
    | seq items =>
      have hitems : ∀ v ∈ items, mergeLevels (n + 1) v = mergeLevels n v := fun v hv =>
        ih (Nat.le_trans (height_le_heightItems hv) (Nat.le_of_succ_le_succ h))
      rw [mergeLevels, mergeLevels, mapM_congr_of_mem hitems]
    | map es =>
      rw [mergeLevels, mergeLevels]
      cases hown : mergeOwn es with
      | none => rfl
      | some stored =>
        have hvalues : ∀ e ∈ stored, mergeLevels (n + 1) e.2 = mergeLevels n e.2 := fun e he =>
          ih (Nat.le_trans (height_le_of_mem_mergeOwn hown he) (Nat.le_of_succ_le_succ h))
        dsimp only
        rw [mapM_congr_of_mem fun e he => by rw [hvalues e he]]
    | tagged t v => rw [mergeLevels, mergeLevels, ih (Nat.le_of_succ_le_succ h)]
    | _ => rfl

/-- More levels than a value has change nothing. -/
theorem mergeLevels_of_height_le {n : Nat} {v : Yaml} (h : height v ≤ n) :
    mergeLevels n v = applyMerges v := by
  induction h with
  | refl => rfl
  | step h ih => rw [mergeLevels_succ h, ih]

/-- The entries of a mapping with their values merged. -/
def mergeValues (es : Entries) : Option Entries :=
  es.mapM fun e => (applyMerges e.2).map fun v => (e.1, v)

/-- Merging goes through a mapping level by level. -/
theorem applyMerges_map (es : Entries) :
    applyMerges (map es) = (mergeOwn es).bind fun stored => (mergeValues stored).map map := by
  rw [applyMerges, height, mergeLevels]
  cases hown : mergeOwn es with
  | none => rfl
  | some stored =>
    have hvalues : ∀ e ∈ stored, mergeLevels (heightEntries es) e.2 = applyMerges e.2 :=
      fun e he => mergeLevels_of_height_le (height_le_of_mem_mergeOwn hown he)
    dsimp only [Option.bind_some]
    rw [mapM_congr_of_mem fun e he => by rw [hvalues e he], mergeValues]

theorem mergeValues_cons_eq_some_iff {e : Yaml × Yaml} {es merged : Entries} :
    mergeValues (e :: es) = some merged ↔
      ∃ v rest, applyMerges e.2 = some v ∧ mergeValues es = some rest ∧
        merged = (e.1, v) :: rest := by
  rw [mergeValues, List.mapM_cons, ← mergeValues]
  cases applyMerges e.2 <;> cases mergeValues es <;> simp [eq_comm]

theorem keys_of_mergeValues {es merged : Entries} (h : mergeValues es = some merged) :
    merged.keys = es.keys := by
  induction es generalizing merged with
  | nil => exact Option.some_inj.mp h ▸ rfl
  | cons e es ih =>
    obtain ⟨v, rest, -, hrest, rfl⟩ := mergeValues_cons_eq_some_iff.mp h
    rw [Entries.keys_cons, Entries.keys_cons, ih hrest]

theorem mem_of_mergeValues {e : Yaml × Yaml} {es merged : Entries} (he : e ∈ es)
    (h : mergeValues es = some merged) : ∃ v, applyMerges e.2 = some v ∧ (e.1, v) ∈ merged := by
  induction es generalizing merged with
  | nil => exact absurd he nofun
  | cons x es ih =>
    obtain ⟨w, rest, hw, hrest, rfl⟩ := mergeValues_cons_eq_some_iff.mp h
    rcases List.mem_cons.mp he with rfl | he
    · exact ⟨w, hw, List.mem_cons_self⟩
    · obtain ⟨v, hv, hmem⟩ := ih he hrest
      exact ⟨v, hv, List.mem_cons_of_mem _ hmem⟩

theorem get?_of_mergeValues {es merged : Entries} (h : mergeValues es = some merged) (k : Yaml) :
    merged.get? k = (es.get? k).bind applyMerges := by
  induction es generalizing merged with
  | nil => exact Option.some_inj.mp h ▸ rfl
  | cons e es ih =>
    obtain ⟨v, rest, hv, hrest, rfl⟩ := mergeValues_cons_eq_some_iff.mp h
    rw [Entries.get?, Entries.get?]
    split
    · exact hv.symm
    · exact ih hrest

/-- Only mappings are merged to mappings. -/
theorem exists_eq_map_of_applyMerges {v : Yaml} {merged : Entries}
    (h : applyMerges v = some (map merged)) : ∃ es, v = map es := by
  cases v with
  | map es => exact ⟨es, rfl⟩
  | seq items =>
    rw [applyMerges, height, mergeLevels] at h
    obtain ⟨items', -, heq⟩ := Option.map_eq_some_iff.mp h
    cases heq
  | tagged t w =>
    rw [applyMerges, height, mergeLevels] at h
    obtain ⟨w', -, heq⟩ := Option.map_eq_some_iff.mp h
    cases heq
  | _ => cases h

theorem exists_mem_of_mergeValues {es merged : Entries} (h : mergeValues es = some merged)
    {e : Yaml × Yaml} (he : e ∈ merged) : ∃ v, (e.1, v) ∈ es ∧ applyMerges v = some e.2 := by
  induction es generalizing merged with
  | nil =>
    rw [← Option.some_inj.mp h] at he
    exact absurd he List.not_mem_nil
  | cons x es ih =>
    obtain ⟨v, rest, hv, hrest, rfl⟩ := mergeValues_cons_eq_some_iff.mp h
    rcases List.mem_cons.mp he with rfl | he
    · exact ⟨x.2, List.mem_cons_self, hv⟩
    · obtain ⟨w, hw, heq⟩ := ih hrest he
      exact ⟨w, List.mem_cons_of_mem x hw, heq⟩

end Yaml

end BuildMatrix
