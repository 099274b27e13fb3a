import BuildMatrix.Proofs.Manifest.PostfixList
import BuildMatrix.Proofs.Outcome
import BuildMatrix.Proofs.Yaml.Entries
import BuildMatrix.Manifest.Rule

/-!
# What the entries of a rule are read as

A rule is read list by list, and each list from the value under its key alone. A list of dependencies
is read item by item if it has no mappings; a list of mappings is a switch, of which each mapping says
a case or the default. The cases keep their order, and the last default counts, so that a default may
stand anywhere among the cases.

* `Dependency.readEntry`: what a mapping of a switch says.
* `Dependency.readCases_eq_ok_iff`: a switch is what its mappings say.
* `Dependency.uniform_of_ofYaml`: mappings and other items are not mixed.
* `Rule.IsReadFrom`: a rule is what the entries of a mapping say.
* `Rule.ofYaml_eq_ok_iff`, `Rule.exists_isReadFrom_iff`: which rule a mapping has, and when it has one.
-/

namespace BuildMatrix

namespace Dependency

open Manifest

/-! ## Mappings of a switch -/

section

variable {es : Entries}

/-- The texts that the keys of a mapping are. -/
def keyTexts (es : Entries) : List String :=
  es.filterMap fun e => e.1.asString?

/-- Whether the keys of a mapping are those of a case: there is an `if` key, and at most a `content`
key with it. -/
def hasCaseKeys (es : Entries) : Bool :=
  (keyTexts es).contains "if" && (keyTexts es).all fun k => k == "if" || k == "content"

/-- The content of a case. -/
def caseContent (key : String) (es : Entries) : Except DependencyError (List String) :=
  match es.getText? "content" with
  | some v => readContent key v
  | .none => .ok []

theorem getText?_eq_none_of_keyTexts {k : String} (h : k ∉ keyTexts es) :
    es.getText? k = .none := by
  refine Entries.get?_eq_none_of_not_mem_keys rfl fun hk => h ?_
  obtain ⟨e, he, hkey⟩ := List.mem_map.mp hk
  exact List.mem_filterMap.mpr ⟨e, he, by rw [hkey]; rfl⟩

theorem readCase_of_default (key : String) (hlength : (keyTexts es).length = es.length)
    (hdefault : keyTexts es = ["default"]) (cs : List SwitchCase) (d : List String) :
    readCase key cs d es =
      (readContent key ((es.getText? "default").getD .null)).map (cs, ·) := by
  rw [readCase, ← keyTexts, if_neg (not_not_intro hlength), if_pos hdefault]
  rfl

theorem readCase_of_stmt (key : String) {stmt : String}
    (hlength : (keyTexts es).length = es.length) (hdefault : keyTexts es ≠ ["default"])
    (hcase : hasCaseKeys es = true) (hstmt : ((es.getText? "if").getD .null).asString? = some stmt)
    (cs : List SwitchCase) (d : List String) :
    readCase key cs d es =
      ((Clause.make stmt false .none).mapError DependencyError.clause >>= fun clause =>
        (caseContent key es).map fun content => (cs ++ [⟨clause, content⟩], d)) := by
  rw [readCase, ← keyTexts, if_neg (not_not_intro hlength), if_neg hdefault, ← hasCaseKeys,
      if_pos hcase, hstmt,
    caseContent]
  cases es.getText? "content" <;> rfl

/-- A mapping is refused, or it sets the default, or it adds a case, whatever was read before. -/
theorem readCase_cases (key : String) (es : Entries) :
    (∃ e, ∀ cs d, readCase key cs d es = .error e) ∨
      (es.getText? "if" = .none ∧
        ∃ content, ∀ cs d, readCase key cs d es = .ok (cs, content)) ∨
      ((es.getText? "if").isSome ∧ ∃ c, ∀ cs d, readCase key cs d es = .ok (cs ++ [c], d)) := by
  -- Which check fails does not depend on the cases read so far, so one outcome holds for all.
  by_cases hlength : (keyTexts es).length = es.length
  swap
  · exact Or.inl ⟨.keyNotText key, fun cs d => by rw [readCase, ← keyTexts, if_pos hlength]; rfl⟩
  by_cases hdefault : keyTexts es = ["default"]
  · have hif : es.getText? "if" = .none :=
      getText?_eq_none_of_keyTexts (by rw [hdefault]; decide)
    have hread := readCase_of_default key hlength hdefault
    cases hcontent : readContent key ((es.getText? "default").getD .null) with
    | error e => exact Or.inl ⟨e, fun cs d => by rw [hread, hcontent]; rfl⟩
    | ok content => exact Or.inr (Or.inl ⟨hif, content, fun cs d => by rw [hread, hcontent]; rfl⟩)
  by_cases hcase : hasCaseKeys es = true
  swap
  · refine Or.inl ⟨.unknownKeys key (keyTexts es), fun cs d => ?_⟩
    rw [readCase, ← keyTexts, if_neg (not_not_intro hlength), if_neg hdefault, ← hasCaseKeys,
      if_neg hcase]
    rfl
  cases hstmt : ((es.getText? "if").getD .null).asString? with
  | none =>
    refine Or.inl ⟨.conditionNotText key, fun cs d => ?_⟩
    rw [readCase, ← keyTexts, if_neg (not_not_intro hlength), if_neg hdefault, ← hasCaseKeys,
      if_pos hcase, hstmt]
    rfl
  | some stmt =>
    have hif : (es.getText? "if").isSome := by
      cases hget : es.getText? "if" with
      | none =>
        rw [hget] at hstmt
        exact absurd hstmt nofun
      | some v => rfl
    have hread := readCase_of_stmt key hlength hdefault hcase hstmt
    cases hclause : (Clause.make stmt false .none).mapError DependencyError.clause with
    | error e => exact Or.inl ⟨e, fun cs d => by rw [hread, hclause]; rfl⟩
    | ok clause =>
      cases hcontent : caseContent key es with
      | error e => exact Or.inl ⟨e, fun cs d => by rw [hread, hclause, hcontent]; rfl⟩
      | ok content =>
        refine Or.inr (Or.inr ⟨hif, ⟨clause, content⟩, fun cs d => ?_⟩)
        rw [hread, hclause, hcontent]
        rfl

end

/-- What a mapping of a switch says. -/
inductive SwitchEntry
  | case (c : SwitchCase)
  | default (content : List String)

namespace SwitchEntry

/-- The case that is added. -/
def case? : SwitchEntry → Option SwitchCase
  | case c => some c
  | default _ => .none

/-- The default that is set. -/
def default? : SwitchEntry → Option (List String)
  | case _ => .none
  | default content => some content

end SwitchEntry

section

variable {key : String} {v : Yaml} {vs : List Yaml} {entry : SwitchEntry} {x : Dependency}
  {cs : List SwitchCase} {d : List String}

/-- Reads what an item of a switch says. -/
def readEntry (key : String) (v : Yaml) : Except DependencyError SwitchEntry :=
  (readCase key [] [] (v.asMap?.getD [])).map fun
    | (c :: _, _) => .case c
    | ([], content) => .default content

theorem readEntry_cases (key : String) (v : Yaml) :
    (∃ e, readEntry key v = .error e ∧
        ∀ cs d, readCase key cs d (v.asMap?.getD []) = .error e) ∨
      ∃ entry, readEntry key v = .ok entry ∧ (ifKey? v).isSome = entry.case?.isSome ∧
        ∀ cs d, readCase key cs d (v.asMap?.getD []) =
          .ok (cs ++ entry.case?.toList, entry.default?.getD d) := by
  rw [readEntry, isSome_ifKey?]
  obtain ⟨e, herror⟩ | ⟨hif, content, hdefault⟩ | ⟨hif, c, hcase⟩ :=
    readCase_cases key (v.asMap?.getD [])
  · exact Or.inl ⟨e, by rw [herror]; rfl, herror⟩
  · refine Or.inr ⟨.default content, by rw [hdefault]; rfl, by rw [hif]; rfl, fun cs d => ?_⟩
    rw [hdefault]
    simp [SwitchEntry.case?, SwitchEntry.default?]
  · exact Or.inr ⟨.case c, by rw [hcase]; rfl, by rw [hif]; rfl, hcase⟩

/-- Mappings that have an `if` key add a case, and the others set the default. -/
theorem isSome_ifKey?_of_readEntry (h : readEntry key v = .ok entry) :
    (ifKey? v).isSome = entry.case?.isSome := by
  obtain ⟨e, herror, -⟩ | ⟨entry', hentry, hif, -⟩ := readEntry_cases key v
  · rw [herror] at h
    exact absurd h nofun
  · rw [hentry] at h
    exact Except.ok.inj h ▸ hif

/-! ## Switches -/

/-- The switch that entries make up: the cases in their order, and the last default. -/
def switchOf (cs : List SwitchCase) (d : List String) (entries : List SwitchEntry) : Dependency :=
  .switch (cs ++ entries.filterMap SwitchEntry.case?)
    ((entries.filterMap SwitchEntry.default?).getLast?.getD d)

theorem switchOf_cons (cs : List SwitchCase) (d : List String) (entry : SwitchEntry)
    (rest : List SwitchEntry) : switchOf cs d (entry :: rest) =
      switchOf (cs ++ entry.case?.toList) (entry.default?.getD d) rest := by
  cases entry <;> simp [switchOf, SwitchEntry.case?, SwitchEntry.default?, List.filterMap_cons,
    List.getLast?_cons]

theorem readCases_cons_eq_ok_iff (hv : v.isMap = true) :
    readCases key cs d (v :: vs) = .ok x ↔ ∃ entry, readEntry key v = .ok entry ∧
      readCases key (cs ++ entry.case?.toList) (entry.default?.getD d) vs = .ok x := by
  obtain ⟨es, hes⟩ := Option.isSome_iff_exists.mp hv
  have hread : readCases key cs d (v :: vs) =
      readCase key cs d (v.asMap?.getD []) >>= fun p => readCases key p.1 p.2 vs := by
    rw [readCases, hes]
    rfl
  rw [hread]
  obtain ⟨e, herror, hcase⟩ | ⟨entry, hentry, -, hcase⟩ := readEntry_cases key v
  · rw [herror, hcase]
    exact ⟨nofun, fun ⟨_, h, _⟩ => absurd h nofun⟩
  · rw [hentry, hcase]
    exact ⟨fun h => ⟨entry, rfl, h⟩, fun ⟨entry', hentry', h⟩ => Except.ok.inj hentry' ▸ h⟩

/-- A list of mappings is read as the switch that its entries make up. -/
theorem readCases_eq_ok_iff (h : ∀ v ∈ vs, v.isMap = true) :
    readCases key cs d vs = .ok x ↔
      ∃ entries, vs.mapM (readEntry key) = .ok entries ∧ switchOf cs d entries = x := by
  induction vs generalizing cs d with
  | nil =>
    have hnil : switchOf cs d [] = .switch cs d := by simp [switchOf]
    constructor
    · intro hread
      exact ⟨[], rfl, hnil.trans (Except.ok.inj hread)⟩
    · rintro ⟨entries, hentries, rfl⟩
      obtain rfl : [] = entries := Except.ok.inj hentries
      rw [hnil]
      rfl
  | cons v vs ih =>
    rw [List.forall_mem_cons] at h
    rw [readCases_cons_eq_ok_iff h.1]
    constructor
    · rintro ⟨entry, hentry, hread⟩
      obtain ⟨rest, hrest, hswitch⟩ := (ih h.2).mp hread
      exact ⟨entry :: rest, mapM_cons_eq_ok_iff.mpr ⟨entry, rest, hentry, hrest, rfl⟩,
        (switchOf_cons cs d entry rest).trans hswitch⟩
    · rintro ⟨entries, hentries, hswitch⟩
      obtain ⟨entry, rest, hentry, hrest, rfl⟩ := mapM_cons_eq_ok_iff.mp hentries
      exact ⟨entry, hentry,
        (ih h.2).mpr ⟨rest, hrest, (switchOf_cons cs d entry rest).symm.trans hswitch⟩⟩

/-- Cases before defaults make up the same switch. -/
theorem switchOf_filter (cs : List SwitchCase) (d : List String) (entries : List SwitchEntry) :
    switchOf cs d ((entries.filter fun entry => entry.case?.isSome) ++
      entries.filter fun entry => !entry.case?.isSome) = switchOf cs d entries := by
  -- Each entry is a case or a default, so each filter keeps one kind whole and none of the other.
  have hcase : (fun entry : SwitchEntry => if entry.case?.isSome then entry.case? else .none) =
      SwitchEntry.case? := by
    funext entry
    cases entry <;> rfl
  have hcase' : (fun entry : SwitchEntry => if !entry.case?.isSome then entry.case? else .none) =
      fun _ => .none := by
    funext entry
    cases entry <;> rfl
  have hdefault : (fun entry : SwitchEntry => if entry.case?.isSome then entry.default? else .none) =
      fun _ => .none := by
    funext entry
    cases entry <;> rfl
  have hdefault' : (fun entry : SwitchEntry => if !entry.case?.isSome then entry.default?
      else .none) = SwitchEntry.default? := by
    funext entry
    cases entry <;> rfl
  have hnone : ∀ {β : Type}, entries.filterMap (fun _ => (.none : Option β)) = [] :=
    List.filterMap_eq_nil_iff.mpr fun _ _ => rfl
  rw [switchOf, switchOf, List.filterMap_append, List.filterMap_append, List.filterMap_filter,
    List.filterMap_filter, List.filterMap_filter, List.filterMap_filter, hcase, hcase', hdefault,
    hdefault', hnone, hnone, List.append_nil, List.nil_append]

end

/-! ## Lists of dependencies -/

section

variable {key : String} {items : List Yaml} {x : Dependency}

/-- A list of mappings is read as a switch, unless it is empty. -/
theorem ofYaml_of_maps (hne : items ≠ []) (h : ∀ v ∈ items, v.isMap = true) :
    ofYaml key items = readCases key [] [] items := by
  have hany : items.any Yaml.isMap = true := by
    obtain ⟨v, rest, rfl⟩ := List.exists_cons_of_ne_nil hne
    rw [List.any_cons, h v List.mem_cons_self, Bool.true_or]
  rw [ofYaml, if_pos hany, if_pos (List.all_eq_true.mpr h)]

/-- A list without mappings is read item by item. -/
theorem ofYaml_of_texts (h : ∀ v ∈ items, v.isMap = false) :
    ofYaml key items = (items.mapM (readItem key)).map flat := by
  rw [ofYaml, if_neg fun hany => ?_]
  obtain ⟨v, hv, hmap⟩ := List.any_eq_true.mp hany
  exact absurd ((h v hv).symm.trans hmap) Bool.false_ne_true

/-- Mappings and other items are not mixed. -/
theorem uniform_of_ofYaml (h : ofYaml key items = .ok x) :
    (∀ v ∈ items, v.isMap = true) ∨ ∀ v ∈ items, v.isMap = false := by
  rw [ofYaml] at h
  split at h
  · split at h
    · next hall => exact Or.inl (List.all_eq_true.mp hall)
    · exact absurd h nofun
  · next hany =>
    rw [List.any_eq_true] at hany
    exact Or.inr fun v hv => Bool.eq_false_iff.mpr fun hmap => hany ⟨v, hv, hmap⟩

/-- Whether an item of a list is read as a text. -/
def IsText (v : Yaml) : Prop :=
  (∃ s, v = .string s) ∨ ∃ n, v = .number n

instance (v : Yaml) : Decidable (IsText v) :=
  match v with
  | .string s => .isTrue (Or.inl ⟨s, rfl⟩)
  | .number n => .isTrue (Or.inr ⟨n, rfl⟩)
  | .null | .bool _ | .seq _ | .map _ | .tagged .. => .isFalse (by simp [IsText])

theorem readItem_eq_ok_iff {v : Yaml} {s : String} : readItem key v = .ok s ↔
    v = .string s ∨ ∃ n, v = .number n ∧ n.render = s := by
  cases v <;> simp [readItem]

theorem exists_readItem_iff {v : Yaml} : (∃ s, readItem key v = .ok s) ↔ IsText v := by
  simp [readItem_eq_ok_iff, IsText, exists_or]

theorem mapM_readItem_string (key : String) (ss : List String) :
    (ss.map Yaml.string).mapM (readItem key) = .ok ss := by
  rw [mapM_eq_ok_iff_forall₂, List.forall₂_map_left_iff, List.forall₂_same]
  exact fun s _ => rfl

end

end Dependency

/-! ## Rules -/

namespace Rule

section

variable {folder file : Path} {es es' : Entries} {r : Rule} {k key : String}

/-- The keys of clauses. -/
def clauseKeys : List String :=
  ["enable", "disable", "disable_test"]

/-- The keys of dependencies. -/
def dependencyKeys : List String :=
  ["depends_components", "depends_filepatterns"]

theorem mem_keys_iff : key ∈ keys ↔ key ∈ clauseKeys ∨ key ∈ dependencyKeys := by
  simp [keys, clauseKeys, dependencyKeys, or_assoc]

theorem not_mem_dependencyKeys (h : key ∈ clauseKeys) : key ∉ dependencyKeys := by
  revert key
  decide

/-- The clauses of a rule under a key. -/
def clausesUnder (r : Rule) (key : String) : List Clause :=
  if key = "enable" then r.enable else if key = "disable" then r.disable else r.disableTest

/-- The dependencies of a rule under a key. -/
def dependencyUnder (r : Rule) (key : String) : Dependency :=
  if key = "depends_components" then r.components else r.filePatterns

/-- Whether a key is one of a rule, whatever its tag. -/
def IsKnown (key : Yaml) : Prop :=
  key.asString?.any keys.contains = true

theorem isKnown_string (h : k ∈ keys) : IsKnown (.string k) :=
  List.contains_iff_mem.mpr h

theorem isKnown_congr {a b : Yaml} (h : a.equal b = true) : IsKnown a ↔ IsKnown b := by
  rw [IsKnown, IsKnown, Yaml.asString?_eq_of_equal h]

/-- Whether all keys of a mapping are those of a rule. -/
def HasKnownKeys (es : Entries) : Prop :=
  ∀ key ∈ es.keys, IsKnown key

theorem find?_unknown_eq_none_iff :
    (es.find? fun e => !(e.1.asString?.any keys.contains)) = none ↔ HasKnownKeys es := by
  rw [List.find?_eq_none, HasKnownKeys, Entries.keys]
  simp [IsKnown]

theorem listOf_congr (h : es.getText? key = es'.getText? key) : listOf es key = listOf es' key := by
  rw [listOf, listOf, h]

theorem readClauses_eq_ok_iff {cs : List Clause} : readClauses es key = .ok cs ↔
    ∃ items, listOf es key = .ok items ∧ items.mapM (readClause key) = .ok cs :=
  bind_eq_ok_iff

theorem readDependency_eq_ok_iff {x : Dependency} : readDependency es key = .ok x ↔
    ∃ items, listOf es key = .ok items ∧ Dependency.ofYaml key items = .ok x := by
  rw [readDependency, bind_eq_ok_iff]
  simp only [mapError_eq_ok_iff]

theorem listOf_without (h : key ≠ k) : listOf (es.without (.string k)) key = listOf es key := by
  have hne : Yaml.string key ≠ .string k := fun heq => h (Yaml.string.inj heq)
  exact listOf_congr (Entries.get?_without_of_ne rfl rfl hne es)

theorem readClauses_without (h : key ≠ k) :
    readClauses (es.without (.string k)) key = readClauses es key := by
  rw [readClauses, readClauses, listOf_without h]

theorem readDependency_without (h : key ≠ k) :
    readDependency (es.without (.string k)) key = readDependency es key := by
  rw [readDependency, readDependency, listOf_without h]

theorem readDependency_without_self (k : String) (es : Entries) :
    readDependency (es.without (.string k)) k = .ok (.flat []) := by
  have hnone : (es.without (.string k)).getText? k = none := Entries.get?_without_self _ es
  rw [readDependency, listOf, hnone]
  rfl

/-- Whether a rule is what the entries of a mapping say. -/
structure IsReadFrom (r : Rule) (es : Entries) : Prop where
  known : HasKnownKeys es
  clauses : ∀ key ∈ clauseKeys, readClauses es key = .ok (r.clausesUnder key)
  dependencies : ∀ key ∈ dependencyKeys, readDependency es key = .ok (r.dependencyUnder key)

theorem isReadFrom_iff : IsReadFrom r es ↔ HasKnownKeys es ∧
    readClauses es "enable" = .ok r.enable ∧ readClauses es "disable" = .ok r.disable ∧
      readClauses es "disable_test" = .ok r.disableTest ∧
        readDependency es "depends_components" = .ok r.components ∧
          readDependency es "depends_filepatterns" = .ok r.filePatterns := by
  constructor
  · rintro ⟨hknown, hclauses, hdependencies⟩
    exact ⟨hknown, hclauses "enable" (by decide), hclauses "disable" (by decide),
      hclauses "disable_test" (by decide), hdependencies "depends_components" (by decide),
      hdependencies "depends_filepatterns" (by decide)⟩
  · rintro ⟨hknown, henable, hdisable, htest, hcomponents, hpatterns⟩
    refine ⟨hknown, ?_, ?_⟩
    · simp [clauseKeys, clausesUnder, henable, hdisable, htest]
    · simp [dependencyKeys, dependencyUnder, hcomponents, hpatterns]

/-- Under each key of a rule there is a list, if anything. -/
theorem IsReadFrom.exists_listOf (h : IsReadFrom r es) (hk : k ∈ keys) :
    ∃ items, listOf es k = .ok items := by
  rcases mem_keys_iff.mp hk with hclause | hdependency
  · obtain ⟨items, hitems, -⟩ := readClauses_eq_ok_iff.mp (h.clauses k hclause)
    exact ⟨items, hitems⟩
  · obtain ⟨items, hitems, -⟩ := readDependency_eq_ok_iff.mp (h.dependencies k hdependency)
    exact ⟨items, hitems⟩

theorem readEntries_eq_ok_iff : readEntries folder file es = .ok r ↔
    r.IsReadFrom es ∧ r.folder = folder ∧ r.file = some file := by
  rw [readEntries]
  split
  · next e he =>
    refine iff_of_false nofun fun h => ?_
    rw [find?_unknown_eq_none_iff.mpr h.1.known] at he
    exact absurd he nofun
  · next hfind =>
    simp only [bind_eq_ok_iff, isReadFrom_iff]
    constructor
    · rintro ⟨enable, henable, disable, hdisable, disableTest, htest, components, hcomponents,
        patterns, hpatterns, hr⟩
      obtain rfl := Except.ok.inj hr
      exact ⟨⟨find?_unknown_eq_none_iff.mp hfind, henable, hdisable, htest, hcomponents, hpatterns⟩,
        rfl, rfl⟩
    · rintro ⟨⟨-, henable, hdisable, htest, hcomponents, hpatterns⟩, rfl, hfile⟩
      exact ⟨_, henable, _, hdisable, _, htest, _, hcomponents, _, hpatterns, by rw [← hfile]; rfl⟩

theorem ofYaml_eq_ok_iff : ofYaml folder (some es) file = .ok r ↔
    r.IsReadFrom es ∧ r.folder = folder ∧ r.file = some file := by
  rw [ofYaml, mapError_eq_ok_iff, Option.getD_some, readEntries_eq_ok_iff]

/-- A folder and a file have no part in whether a mapping has a rule. -/
theorem exists_ofYaml_iff (folder file : Path) (es : Entries) :
    (∃ r, ofYaml folder (some es) file = .ok r) ↔ ∃ r, IsReadFrom r es := by
  simp only [ofYaml_eq_ok_iff]
  constructor
  · rintro ⟨r, hr, -⟩
    exact ⟨r, hr⟩
  · rintro ⟨r, hknown, hclauses, hdependencies⟩
    exact ⟨{ r with folder := folder, file := some file }, ⟨hknown, hclauses, hdependencies⟩, rfl,
      rfl⟩

/-- A mapping has a rule if its keys are known and each of its lists can be read. -/
theorem exists_isReadFrom_iff : (∃ r, IsReadFrom r es) ↔ HasKnownKeys es ∧
    (∀ key ∈ clauseKeys, ∃ cs, readClauses es key = .ok cs) ∧
      ∀ key ∈ dependencyKeys, ∃ x, readDependency es key = .ok x := by
  constructor
  · rintro ⟨r, hknown, hclauses, hdependencies⟩
    exact ⟨hknown, fun key hkey => ⟨_, hclauses key hkey⟩,
      fun key hkey => ⟨_, hdependencies key hkey⟩⟩
  · rintro ⟨hknown, hclauses, hdependencies⟩
    obtain ⟨enable, henable⟩ := hclauses "enable" (by decide)
    obtain ⟨disable, hdisable⟩ := hclauses "disable" (by decide)
    obtain ⟨disableTest, htest⟩ := hclauses "disable_test" (by decide)
    obtain ⟨components, hcomponents⟩ := hdependencies "depends_components" (by decide)
    obtain ⟨patterns, hpatterns⟩ := hdependencies "depends_filepatterns" (by decide)
    exact ⟨⟨⟨""⟩, enable, disable, disableTest, components, patterns, none⟩,
      isReadFrom_iff.mpr ⟨hknown, henable, hdisable, htest, hcomponents, hpatterns⟩⟩

end

end Rule

end BuildMatrix
