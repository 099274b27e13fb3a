import BuildMatrix.Proofs.Manifest.Postfix
import BuildMatrix.Proofs.Manifest.Reading

/-!
# Lists that are taken apart and put together again

A postfix list takes the list that it acts on apart, into mappings with an `if` key, other mappings and
texts, even if it has nothing to say about them. What is put together again is read as the list was,
but for two things. A clause whose `if` key has a tag is not seen to have one, and is put behind the
others. And every item that is no mapping becomes a text, so that a list of dependencies is no longer
refused for items such as null.

* `Manifest.rearranged`: what a list becomes.
* `Dependency.exists_ofYaml_rearranged_iff`: when a list of dependencies is accepted.
* `Dependency.resolvesAlike_of_rearranged`: it resolves as before.
* `Rule.Rearranges`: the list under one key of a mapping is rearranged.
* `Rule.Rearranges.exists_isReadFrom_iff`: then the mapping has a rule if and only if it had one,
  unless a list that was refused is accepted.
* `Rule.Rearranges.sameUpTo`: the rules say the same.
-/

namespace BuildMatrix

/-! ## Lists -/

namespace Manifest

section

variable {items : List Yaml} {e : Yaml}

/-- What a list becomes when it is taken apart and put together again. -/
def rearranged (items : List Yaml) : List Yaml :=
  (items.foldl Parts.start {}).toList

theorem rearranged_of_maps (h : ∀ e ∈ items, e.isMap = true) :
    rearranged items = (items.filter fun e => (ifKey? e).isSome) ++
      items.filter fun e => !(ifKey? e).isSome := by
  have htexts : (items.foldl Parts.start {}).texts = [] := by
    refine List.eq_nil_iff_forall_not_mem.mpr fun s hs => ?_
    obtain ⟨e, he, htext⟩ := (Parts.mem_texts_foldl_start_iff items).mp hs
    rw [textOf?_of_isMap (h e he)] at htext
    exact absurd htext nofun
  have hmappings : (items.foldl Parts.start {}).mappings =
      items.filter fun e => !(ifKey? e).isSome := by
    rw [Parts.mappings_foldl_start]
    exact List.filter_congr fun e he => by rw [h e he, Bool.true_and]
  rw [rearranged, Parts.toList, Parts.conditional_foldl_start, hmappings, htexts, List.map_nil,
    List.append_nil]

theorem rearranged_of_texts (h : ∀ e ∈ items, e.isMap = false) :
    rearranged items = (items.foldl Parts.start {}).texts.map Yaml.string := by
  have hconditional : (items.filter fun e => (ifKey? e).isSome) = [] :=
    List.filter_eq_nil_iff.mpr fun e he => by rw [ifKey?_eq_none (h e he)]; exact nofun
  have hmappings : (items.filter fun e => e.isMap && !(ifKey? e).isSome) = [] :=
    List.filter_eq_nil_iff.mpr fun e he => by rw [h e he]; exact nofun
  rw [rearranged, Parts.toList, Parts.conditional_foldl_start, Parts.mappings_foldl_start,
    hconditional, hmappings]
  rfl

/-- Mappings stay, and other items become texts. -/
theorem mem_rearranged_iff : e ∈ rearranged items ↔
    (e ∈ items ∧ e.isMap = true) ∨ ∃ v ∈ items, ∃ s, textOf? v = some s ∧ e = .string s := by
  rw [rearranged, Parts.toList, Parts.conditional_foldl_start, Parts.mappings_foldl_start,
    List.mem_append, List.mem_append, List.mem_filter, List.mem_filter, List.mem_map]
  simp only [Parts.mem_texts_foldl_start_iff]
  constructor
  · rintro ((⟨he, hkey⟩ | ⟨he, hmap⟩) | ⟨s, ⟨v, hv, htext⟩, rfl⟩)
    · obtain ⟨key, hkey⟩ := Option.isSome_iff_exists.mp hkey
      exact Or.inl ⟨he, isMap_of_ifKey? hkey⟩
    · exact Or.inl ⟨he, (Bool.and_eq_true_iff.mp hmap).1⟩
    · exact Or.inr ⟨v, hv, s, htext, rfl⟩
  · rintro (⟨he, hmap⟩ | ⟨v, hv, s, htext, rfl⟩)
    · cases hkey : ifKey? e with
      | some key => exact Or.inl (Or.inl ⟨he, rfl⟩)
      | none => exact Or.inl (Or.inr ⟨he, by rw [hmap]; rfl⟩)
    · exact Or.inr ⟨s, ⟨v, hv, htext⟩, rfl⟩

theorem forall_isMap_rearranged_iff :
    (∀ e ∈ rearranged items, e.isMap = true) ↔ ∀ e ∈ items, e.isMap = true := by
  constructor
  · intro h e he
    by_contra hmap
    have htext := textOf?_of_not_isMap (Bool.not_eq_true _ ▸ hmap)
    exact absurd (h (.string (scalarText e)) (mem_rearranged_iff.mpr
      (Or.inr ⟨e, he, _, htext, rfl⟩))) Bool.false_ne_true
  · intro h e he
    rcases mem_rearranged_iff.mp he with ⟨-, hmap⟩ | ⟨v, hv, s, htext, -⟩
    · exact hmap
    · rw [textOf?_of_isMap (h v hv)] at htext
      exact absurd htext nofun

theorem rearranged_perm (h : ∀ e ∈ items, e.isMap = true) : (rearranged items).Perm items := by
  rw [rearranged_of_maps h]
  exact List.filter_append_perm _ items

/-- Nothing changes in a list whose items are all seen to have an `if` key. -/
theorem rearranged_of_conditions (h : ∀ e ∈ items, (ifKey? e).isSome) :
    rearranged items = items := by
  have hmaps : ∀ e ∈ items, e.isMap = true := by
    intro e he
    obtain ⟨key, hkey⟩ := Option.isSome_iff_exists.mp (h e he)
    exact isMap_of_ifKey? hkey
  have hrest : (items.filter fun e => !(ifKey? e).isSome) = [] :=
    List.filter_eq_nil_iff.mpr fun e he => by rw [h e he]; exact nofun
  rw [rearranged_of_maps hmaps, List.filter_eq_self.mpr h, hrest, List.append_nil]

end

end Manifest

/-! ## Dependencies -/

namespace Dependency

open Manifest

section

variable {key : String} {items : List Yaml} {x : Dependency} {ss : List String}

/-- A switch is the same when it is rearranged. -/
theorem ofYaml_rearranged_of_maps (h : ∀ v ∈ items, v.isMap = true) :
    ofYaml key (rearranged items) = .ok x ↔ ofYaml key items = .ok x := by
  by_cases hnil : items = []
  · rw [hnil]
    rfl
  have hmaps := forall_isMap_rearranged_iff.mpr h
  have hperm := rearranged_perm h
  have hnil' : rearranged items ≠ [] := fun h => hnil (List.nil_perm.mp (h ▸ hperm))
  -- Entries are read one by one, and whether one has a condition is seen before and after.
  have hread : ∀ {entries}, items.mapM (readEntry key) = .ok entries →
      (rearranged items).mapM (readEntry key) =
        .ok ((entries.filter fun entry => entry.case?.isSome) ++
          entries.filter fun entry => !entry.case?.isSome) := by
    intro entries hentries
    have hforall := mapM_eq_ok_iff_forall₂.mp hentries
    rw [mapM_eq_ok_iff_forall₂, rearranged_of_maps h]
    refine List.rel_append (List.rel_filter (fun v entry hv => ?_) hforall)
      (List.rel_filter (fun v entry hv => ?_) hforall)
    · beta_reduce
      rw [isSome_ifKey?_of_readEntry hv]
    · beta_reduce
      rw [isSome_ifKey?_of_readEntry hv]
  rw [ofYaml_of_maps hnil h, ofYaml_of_maps hnil' hmaps, readCases_eq_ok_iff h,
    readCases_eq_ok_iff hmaps]
  constructor
  · rintro ⟨entries', hentries', rfl⟩
    obtain ⟨entries, hentries, -⟩ := exists_perm_of_mapM_eq_ok hperm.symm hentries'
    rw [hread hentries] at hentries'
    exact ⟨entries, hentries, by rw [← Except.ok.inj hentries', switchOf_filter]⟩
  · rintro ⟨entries, hentries, rfl⟩
    exact ⟨_, hread hentries, switchOf_filter [] [] entries⟩

/-- A list without mappings becomes a list of texts. -/
theorem ofYaml_rearranged_of_texts (key : String) (h : ∀ v ∈ items, v.isMap = false) :
    ofYaml key (rearranged items) = .ok (.flat (items.foldl Parts.start {}).texts) := by
  rw [rearranged_of_texts h, ofYaml_of_texts, mapM_readItem_string]
  · rfl
  · intro v hv
    obtain ⟨s, -, rfl⟩ := List.mem_map.mp hv
    rfl

/-- The texts of a list that can be read are its items. -/
theorem mem_texts_iff_of_ofYaml (h : ∀ v ∈ items, v.isMap = false)
    (hread : items.mapM (readItem key) = .ok ss) (s : String) :
    s ∈ (items.foldl Parts.start {}).texts ↔ s ∈ ss := by
  have htext : ∀ {v : Yaml}, v ∈ items → (textOf? v = some s ↔ readItem key v = .ok s) := by
    intro v hv
    rw [textOf?_of_not_isMap (h v hv), Option.some_inj]
    obtain ⟨t, ht⟩ := exists_mapM_eq_ok_iff.mp ⟨ss, hread⟩ v hv
    have hscalar : scalarText v = t := by
      obtain rfl | ⟨n, rfl, rfl⟩ := readItem_eq_ok_iff.mp ht <;> rfl
    rw [ht, hscalar, Except.ok.injEq]
  rw [Parts.mem_texts_foldl_start_iff, mem_of_mapM_eq_ok hread]
  exact exists_congr fun v => and_congr_right htext

theorem exists_ofYaml_rearranged_iff : (∃ y, ofYaml key (rearranged items) = .ok y) ↔
    (∃ x, ofYaml key items = .ok x) ∨
      (∀ v ∈ items, v.isMap = false) ∧ ∃ v ∈ items, ¬ IsText v := by
  constructor
  · rintro ⟨y, hy⟩
    rcases uniform_of_ofYaml hy with hmaps | htexts
    · rw [forall_isMap_rearranged_iff] at hmaps
      exact Or.inl ⟨y, (ofYaml_rearranged_of_maps hmaps).mp hy⟩
    · have htexts : ∀ v ∈ items, v.isMap = false := by
        intro v hv
        by_contra hmap
        rw [Bool.not_eq_false] at hmap
        exact absurd ((htexts v (mem_rearranged_iff.mpr (Or.inl ⟨hv, hmap⟩))).symm.trans hmap)
          Bool.false_ne_true
      by_cases hall : ∀ v ∈ items, IsText v
      · obtain ⟨ss, hss⟩ := (exists_mapM_eq_ok_iff (f := readItem key)).mpr fun v hv =>
          exists_readItem_iff.mpr (hall v hv)
        exact Or.inl ⟨flat ss, by rw [ofYaml_of_texts htexts, hss]; rfl⟩
      · rw [not_forall] at hall
        obtain ⟨v, hv⟩ := hall
        exact Or.inr ⟨htexts, v, Classical.not_imp.mp hv⟩
  · rintro (⟨x, hx⟩ | ⟨htexts, -⟩)
    · rcases uniform_of_ofYaml hx with hmaps | htexts
      · exact ⟨x, (ofYaml_rearranged_of_maps hmaps).mpr hx⟩
      · exact ⟨_, ofYaml_rearranged_of_texts key htexts⟩
    · exact ⟨_, ofYaml_rearranged_of_texts key htexts⟩

/-- Whether two outcomes are the same error, or lists with the same members. -/
inductive SameMembers : Except EvalError (List String) → Except EvalError (List String) → Prop
  | error (e : EvalError) : SameMembers (.error e) (.error e)
  | ok {ss ts : List String} (h : ∀ s, s ∈ ss ↔ s ∈ ts) : SameMembers (.ok ss) (.ok ts)

theorem SameMembers.refl : ∀ x, SameMembers x x
  | .error e => .error e
  | .ok _ => .ok fun _ => Iff.rfl

/-- Whether two lists of dependencies resolve in every context to the same ones. -/
def ResolvesAlike (x y : Dependency) : Prop :=
  ∀ ctx, SameMembers (x.resolve ctx) (y.resolve ctx)

theorem ResolvesAlike.refl (x : Dependency) : x.ResolvesAlike x :=
  fun _ => .refl _

theorem resolvesAlike_of_rearranged {y : Dependency} (hx : ofYaml key items = .ok x)
    (hy : ofYaml key (rearranged items) = .ok y) : x.ResolvesAlike y := by
  rcases uniform_of_ofYaml hx with hmaps | htexts
  · rw [ofYaml_rearranged_of_maps hmaps, hx] at hy
    exact Except.ok.inj hy ▸ .refl x
  · rw [ofYaml_rearranged_of_texts key htexts] at hy
    rw [ofYaml_of_texts htexts] at hx
    obtain ⟨ss, hss, rfl⟩ := map_eq_ok_iff.mp hx
    obtain rfl := Except.ok.inj hy
    exact fun ctx => .ok fun s => (mem_texts_iff_of_ofYaml htexts hss s).symm

end

end Dependency

/-! ## Clauses -/

namespace Rule

open Manifest

section

variable {key : String} {items : List Yaml} {v : Yaml} {c : Clause} {cs ds : List Clause}

theorem isMap_of_readClause (h : readClause key v = .ok c) : v.isMap = true := by
  unfold readClause at h
  cases hmap : v.asMap? with
  | none =>
    rw [hmap] at h
    exact absurd h nofun
  | some es =>
    rw [Yaml.isMap, hmap]
    rfl

theorem isMap_of_mapM_readClause (h : items.mapM (readClause key) = .ok cs) :
    ∀ v ∈ items, v.isMap = true := by
  intro v hv
  obtain ⟨c, hc⟩ := exists_mapM_eq_ok_iff.mp ⟨cs, h⟩ v hv
  exact isMap_of_readClause hc

/-- A list of clauses that is rearranged has the same clauses. -/
theorem exists_mapM_readClause_rearranged_iff :
    (∃ ds, (rearranged items).mapM (readClause key) = .ok ds) ↔
      ∃ cs, items.mapM (readClause key) = .ok cs := by
  constructor
  · rintro ⟨ds, hds⟩
    have hmaps := forall_isMap_rearranged_iff.mp (isMap_of_mapM_readClause hds)
    obtain ⟨cs, hcs, -⟩ := exists_perm_of_mapM_eq_ok (rearranged_perm hmaps).symm hds
    exact ⟨cs, hcs⟩
  · rintro ⟨cs, hcs⟩
    have hmaps := isMap_of_mapM_readClause hcs
    obtain ⟨ds, hds, -⟩ := exists_perm_of_mapM_eq_ok (rearranged_perm hmaps) hcs
    exact ⟨ds, hds⟩

theorem perm_of_mapM_readClause (hcs : items.mapM (readClause key) = .ok cs)
    (hds : (rearranged items).mapM (readClause key) = .ok ds) : cs.Perm ds := by
  have hmaps := isMap_of_mapM_readClause hcs
  obtain ⟨ds', hds', hperm⟩ := exists_perm_of_mapM_eq_ok (rearranged_perm hmaps) hcs
  rw [hds] at hds'
  exact (Except.ok.inj hds' ▸ hperm).symm

end

/-! ## Rules -/

section

variable {es es' : Entries} {k key : String} {items as bs : List Yaml} {r s : Rule}

/-- Whether two mappings have the same values under other keys, and under `k` one has a list and the
other the list that it becomes when it is rearranged. -/
structure Rearranges (k : String) (es es' : Entries) (items : List Yaml) : Prop where
  known : HasKnownKeys es' ↔ HasKnownKeys es
  getText?_eq : ∀ key ∈ keys, key ≠ k → es'.getText? key = es.getText? key
  list : listOf es k = .ok items
  list' : listOf es' k = .ok (rearranged items)

/-- Whether rearranging the list under a key hides what is wrong with it: it is one of dependencies
without mappings, and an item is no text. -/
def HidesItems (k : String) (es : Entries) : Prop :=
  k ∈ dependencyKeys ∧ (∀ v ∈ itemsOf (es.getText? k), v.isMap = false) ∧
    ∃ v ∈ itemsOf (es.getText? k), ¬ Dependency.IsText v

instance (k : String) (es : Entries) : Decidable (HidesItems k es) :=
  inferInstanceAs (Decidable (_ ∧ _ ∧ _))

/-- Whether the items of the list under a key, if it is one of clauses, are seen to have an `if`
key. -/
def ShowsConditions (k : String) (es : Entries) : Prop :=
  k ∈ clauseKeys → ∀ v ∈ itemsOf (es.getText? k), (ifKey? v).isSome

/-- Whether two rules have the same clauses, where lists of clauses are compared by `R`, and the same
dependencies. -/
structure SameUpTo (R : List Clause → List Clause → Prop) (r s : Rule) : Prop where
  enable : R r.enable s.enable
  disable : R r.disable s.disable
  disableTest : R r.disableTest s.disableTest
  components : r.components.ResolvesAlike s.components
  filePatterns : r.filePatterns.ResolvesAlike s.filePatterns

theorem itemsOf_of_listOf (h : listOf es k = .ok items) : itemsOf (es.getText? k) = items := by
  rw [listOf] at h
  cases hget : es.getText? k with
  | none =>
    rw [hget] at h
    exact Except.ok.inj h
  | some v =>
    rw [hget] at h
    cases v with
    | null | seq items => exact Except.ok.inj h
    | _ => cases h

/-- A mapping that hides something has no rule. -/
theorem HidesItems.not_isReadFrom (h : HidesItems k es) : ¬ IsReadFrom r es := by
  intro hr
  obtain ⟨hk, htexts, v, hv, htext⟩ := h
  obtain ⟨items, hitems, hread⟩ := readDependency_eq_ok_iff.mp (hr.dependencies k hk)
  rw [itemsOf_of_listOf hitems] at htexts hv
  rw [Dependency.ofYaml_of_texts htexts] at hread
  obtain ⟨ss, hss, -⟩ := map_eq_ok_iff.mp hread
  exact htext (Dependency.exists_readItem_iff.mp (exists_mapM_eq_ok_iff.mp ⟨ss, hss⟩ v hv))

/-- What hides something is a list. -/
theorem HidesItems.exists_listOf (h : HidesItems k es) : ∃ items, listOf es k = .ok items := by
  obtain ⟨-, -, v, hv, -⟩ := h
  rw [listOf]
  cases hget : es.getText? k with
  | none => exact ⟨[], rfl⟩
  | some w =>
    rw [hget] at hv
    cases w with
    | seq items => exact ⟨items, rfl⟩
    | _ => exact absurd hv List.not_mem_nil

namespace Rearranges

section

variable (h : Rearranges k es es' items) (hkeys : key ∈ keys)
include h hkeys

/-- Under each key there is the same list, or one list is the other one rearranged. -/
theorem list_cases (has : listOf es key = .ok as) (hbs : listOf es' key = .ok bs) :
    bs = as ∨ key = k ∧ bs = rearranged as := by
  by_cases hkey : key = k
  · subst hkey
    rw [h.list] at has
    rw [h.list'] at hbs
    rw [← Except.ok.inj has, ← Except.ok.inj hbs]
    exact Or.inr ⟨rfl, rfl⟩
  · rw [listOf_congr (h.getText?_eq key hkeys hkey), has] at hbs
    exact Or.inl (Except.ok.inj hbs).symm

theorem exists_readClauses_iff :
    (∃ cs, readClauses es' key = .ok cs) ↔ ∃ cs, readClauses es key = .ok cs := by
  by_cases hkey : key = k
  · subst hkey
    simp only [readClauses_eq_ok_iff, h.list, h.list', Except.ok.injEq, exists_eq_left']
    exact exists_mapM_readClause_rearranged_iff
  · simp only [readClauses_eq_ok_iff, listOf_congr (h.getText?_eq key hkeys hkey)]

theorem exists_readDependency_iff : (∃ x, readDependency es' key = .ok x) ↔
    (∃ x, readDependency es key = .ok x) ∨
      key = k ∧ (∀ v ∈ items, v.isMap = false) ∧ ∃ v ∈ items, ¬ Dependency.IsText v := by
  by_cases hkey : key = k
  · subst hkey
    simp only [readDependency_eq_ok_iff, h.list, h.list', Except.ok.injEq, exists_eq_left',
      true_and]
    exact Dependency.exists_ofYaml_rearranged_iff
  · simp only [readDependency_eq_ok_iff, listOf_congr (h.getText?_eq key hkeys hkey), hkey,
      false_and, or_false]

theorem perm_of_readClauses {cs ds : List Clause} (hcs : readClauses es key = .ok cs)
    (hds : readClauses es' key = .ok ds) : cs.Perm ds := by
  obtain ⟨as, has, hcs⟩ := readClauses_eq_ok_iff.mp hcs
  obtain ⟨bs, hbs, hds⟩ := readClauses_eq_ok_iff.mp hds
  rcases h.list_cases hkeys has hbs with rfl | ⟨-, rfl⟩
  · rw [hcs] at hds
    rw [Except.ok.inj hds]
  · exact perm_of_mapM_readClause hcs hds

theorem resolvesAlike_of_readDependency {x y : Dependency} (hx : readDependency es key = .ok x)
    (hy : readDependency es' key = .ok y) : x.ResolvesAlike y := by
  obtain ⟨as, has, hx⟩ := readDependency_eq_ok_iff.mp hx
  obtain ⟨bs, hbs, hy⟩ := readDependency_eq_ok_iff.mp hy
  rcases h.list_cases hkeys has hbs with rfl | ⟨-, rfl⟩
  · rw [hx] at hy
    exact Except.ok.inj hy ▸ .refl x
  · exact Dependency.resolvesAlike_of_rearranged hx hy

end

theorem eq_of_readClauses (h : Rearranges k es es' items) (hshows : ShowsConditions k es)
    (hkey : key ∈ clauseKeys) {cs ds : List Clause} (hcs : readClauses es key = .ok cs)
    (hds : readClauses es' key = .ok ds) : cs = ds := by
  obtain ⟨as, has, hcs⟩ := readClauses_eq_ok_iff.mp hcs
  obtain ⟨bs, hbs, hds⟩ := readClauses_eq_ok_iff.mp hds
  have hsame : bs = as := by
    rcases h.list_cases (mem_keys_iff.mpr (Or.inl hkey)) has hbs with heq | ⟨rfl, rfl⟩
    · exact heq
    · have hconditions := hshows hkey
      rw [itemsOf_of_listOf has] at hconditions
      exact rearranged_of_conditions hconditions
  rw [hsame, hcs] at hds
  exact Except.ok.inj hds

/-- A mapping whose list is rearranged has a rule if and only if it had one before, unless something
is hidden. -/
theorem exists_isReadFrom_iff (h : Rearranges k es es' items) (hhides : ¬ HidesItems k es) :
    (∃ r, IsReadFrom r es') ↔ ∃ r, IsReadFrom r es := by
  rw [Rule.exists_isReadFrom_iff, Rule.exists_isReadFrom_iff, h.known]
  refine and_congr_right fun _ => and_congr ?_ ?_
  · exact forall₂_congr fun key hkey => h.exists_readClauses_iff (mem_keys_iff.mpr (Or.inl hkey))
  · refine forall₂_congr fun key hkey => ?_
    rw [h.exists_readDependency_iff (mem_keys_iff.mpr (Or.inr hkey)), or_iff_left]
    rintro ⟨rfl, htexts⟩
    rw [← itemsOf_of_listOf h.list] at htexts
    exact hhides ⟨hkey, htexts⟩

/-- A mapping that hides something has a rule, when its list is rearranged, if and only if it has one
without the list. -/
theorem exists_isReadFrom_iff_without (h : Rearranges k es es' items) (hhides : HidesItems k es) :
    (∃ r, IsReadFrom r es') ↔ ∃ r, IsReadFrom r (es.without (.string k)) := by
  have hk := hhides.1
  have hknown : HasKnownKeys (es.without (.string k)) ↔ HasKnownKeys es :=
    Entries.forall_keys_without_iff (isKnown_string (mem_keys_iff.mpr (Or.inr hk)))
  rw [Rule.exists_isReadFrom_iff, Rule.exists_isReadFrom_iff, h.known, hknown]
  refine and_congr_right fun _ => and_congr ?_ ?_
  · refine forall₂_congr fun key hkey => ?_
    have hne : key ≠ k := by
      rintro rfl
      exact not_mem_dependencyKeys hkey hk
    rw [h.exists_readClauses_iff (mem_keys_iff.mpr (Or.inl hkey)), readClauses_without hne]
  · refine forall₂_congr fun key hkey => ?_
    rw [h.exists_readDependency_iff (mem_keys_iff.mpr (Or.inr hkey))]
    by_cases hne : key = k
    · subst hne
      have hright := hhides.2
      rw [itemsOf_of_listOf h.list] at hright
      exact iff_of_true (Or.inr ⟨rfl, hright⟩) ⟨_, readDependency_without_self key es⟩
    · rw [readDependency_without hne, or_iff_left fun hself => hne hself.1]

/-- The rules before and after a list is rearranged say the same. -/
theorem sameUpTo (h : Rearranges k es es' items) {R : List Clause → List Clause → Prop}
    (hR : ∀ key ∈ clauseKeys, ∀ cs ds, readClauses es key = .ok cs →
      readClauses es' key = .ok ds → R cs ds)
    (hr : IsReadFrom r es) (hs : IsReadFrom s es') : r.SameUpTo R s := by
  have hclauses : ∀ key ∈ clauseKeys, R (r.clausesUnder key) (s.clausesUnder key) :=
    fun key hkey => hR key hkey _ _ (hr.clauses key hkey) (hs.clauses key hkey)
  have hdependencies : ∀ key ∈ dependencyKeys,
      (r.dependencyUnder key).ResolvesAlike (s.dependencyUnder key) :=
    fun key hkey => h.resolvesAlike_of_readDependency (mem_keys_iff.mpr (Or.inr hkey))
      (hr.dependencies key hkey) (hs.dependencies key hkey)
  exact ⟨hclauses "enable" (by decide), hclauses "disable" (by decide),
    hclauses "disable_test" (by decide), hdependencies "depends_components" (by decide),
    hdependencies "depends_filepatterns" (by decide)⟩

theorem sameUpTo_perm (h : Rearranges k es es' items) (hr : IsReadFrom r es)
    (hs : IsReadFrom s es') : r.SameUpTo List.Perm s :=
  h.sameUpTo (fun _ hkey _ _ => h.perm_of_readClauses (mem_keys_iff.mpr (Or.inl hkey))) hr hs

theorem sameUpTo_eq (h : Rearranges k es es' items) (hshows : ShowsConditions k es)
    (hr : IsReadFrom r es) (hs : IsReadFrom s es') : r.SameUpTo Eq s :=
  h.sameUpTo (fun _ hkey _ _ => h.eq_of_readClauses hshows hkey) hr hs

end Rearranges

end

end Rule

end BuildMatrix
