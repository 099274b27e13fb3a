import BuildMatrix.Proofs.Manifest.Loaded

/-!
# What manifest files declare

The files of a manifest declare folders, and the first declaration of a folder counts. A reader
looks for earlier ones in two places, among the rules of the same file and among those of the files
before. A later declaration in the same file is not even read, one in a later file is read and
dropped.

* `Manifest.declarations`: the declarations of some files, in order.
* `Manifest.Reads`, `Manifest.readFolders_eq_ok_iff`: how the declarations of one file are read.
* `Manifest.Carries`: rules are those of the first declarations of their folders.
* `Manifest.mem_addRules`: the rules of a file are added to those of the files before.
* `Manifest.carries_of_readFiles`: the rules that are read carry the declarations.
-/

namespace BuildMatrix

namespace Manifest

variable {α : Type} {d : Disk} {file root : Path} {strict : Bool} {r : Rule}
  {rules new rs : List Rule}

/-! ## Folders in lists -/

/-- Whether some entry of a list has a path, whatever its spelling. -/
def Occurs (key : α → Path) (l : List α) (p : Path) : Prop :=
  ∃ a ∈ l, (key a).components = p.components

/-- Whether the entries of a list have different paths. -/
def Distinct (key : α → Path) (l : List α) : Prop :=
  l.Pairwise fun a b => (key a).components ≠ (key b).components

theorem occurs_cons {key : α → Path} {a : α} {l : List α} {p : Path} :
    Occurs key (a :: l) p ↔ (key a).components = p.components ∨ Occurs key l p := by
  simp [Occurs]

theorem occurs_append {key : α → Path} {l m : List α} {p : Path} :
    Occurs key (l ++ m) p ↔ Occurs key l p ∨ Occurs key m p := by
  simp [Occurs, or_and_right, exists_or]

theorem occurs_iff_isSome {key : α → Path} {l : List α} {p : Path} :
    Occurs key l p ↔ (l.find? fun a => (key a).same p).isSome = true := by
  simp [Occurs, Path.same_iff]

theorem mem_insertNew_iff (h : ¬ Occurs Rule.folder rules r.folder) {s : Rule} :
    s ∈ Path.insertNew Rule.folder r rules ↔ s = r ∨ s ∈ rules := by
  constructor
  · exact Path.mem_insertNew
  · rintro (rfl | hs)
    · exact Path.self_mem_insertNew fun b hb hfolder => absurd ⟨b, hb, hfolder.symm⟩ h
    · exact Path.mem_insertNew_of_mem hs

/-! ## Declarations -/

/-- A folder that a manifest file declares, with what the file says about it. -/
structure Declaration where
  folder : Path
  value : Yaml
  file : Path

/-- The rule that a declaration reads as. -/
def Declaration.rule (x : Declaration) : Except ManifestError Rule :=
  Rule.ofYaml x.folder x.value.asMap? x.file

theorem Declaration.folder_of_rule {x : Declaration} (h : x.rule = .ok r) : r.folder = x.folder :=
  Rule.folder_of_ofYaml h

/-- The declarations of a document: its entries that have a text for a key. -/
def declared (file root : Path) (es : Entries) : List Declaration :=
  es.filterMap fun e => e.1.asString?.map fun name => ⟨Path.absolutize ⟨name⟩ root, e.2, file⟩

/-- The document in a file. -/
def documentOf (d : Disk) (file : Path) : Except ManifestError Entries :=
  (d.readText file).mapError .disk >>= loadDocument file

/-- The declarations of some files, in the order of the files. -/
def declarations (d : Disk) (root : Path) : List Path → Except ManifestError (List Declaration)
  | [] => .ok []
  | file :: files =>
    documentOf d file >>= fun es => (declarations d root files).map (declared file root es ++ ·)

variable {ds es : List Declaration} {x y : Declaration}

/-- Whether a declaration is the first one of its folder. -/
def IsFirst (ds : List Declaration) (x : Declaration) : Prop :=
  ds.find? (fun y => y.folder.same x.folder) = some x

theorem exists_isFirst (h : y ∈ ds) :
    ∃ x, IsFirst ds x ∧ x.folder.components = y.folder.components := by
  cases hfind : ds.find? fun z => z.folder.same y.folder with
  | none => exact absurd (Path.same_iff.mpr rfl) (List.find?_eq_none.mp hfind y h)
  | some x =>
    have hxy : x.folder.components = y.folder.components := by
      simpa [Path.same_iff] using List.find?_some hfind
    refine ⟨x, ?_, hxy⟩
    rw [IsFirst, ← hfind]
    simp only [Path.same, hxy]

theorem IsFirst.mem (h : IsFirst ds x) : x ∈ ds :=
  List.mem_of_find?_eq_some h

theorem IsFirst.eq_of_components_eq (hx : IsFirst ds x) (hy : IsFirst ds y)
    (h : x.folder.components = y.folder.components) : x = y := by
  rw [IsFirst] at hx hy
  simp only [Path.same, h] at hx
  exact Option.some_inj.mp (hx.symm.trans hy)

/-- The first declarations of two lists are those of the first list, and those of the second one
whose folders the first one does not have. -/
theorem isFirst_append_iff : IsFirst (ds ++ es) x ↔
    IsFirst ds x ∨ (¬ Occurs Declaration.folder ds x.folder ∧ IsFirst es x) := by
  rw [IsFirst, IsFirst, List.find?_append, occurs_iff_isSome]
  cases ds.find? fun y => y.folder.same x.folder <;> simp [IsFirst]

/-! ## Reading the declarations of a file -/

/-- How the declarations of a file are read, after some rules of the same file. -/
inductive Reads (d : Disk) (strict : Bool) : List Rule → List Declaration → List Rule → Prop
  | done {rules : List Rule} : Reads d strict rules [] rules
  | skip {rules rs : List Rule} {x : Declaration} {ds : List Declaration}
      (hlenient : strict = false) (hoccurs : Occurs Rule.folder rules x.folder)
      (hreads : Reads d strict rules ds rs) : Reads d strict rules (x :: ds) rs
  | add {rules rs : List Rule} {x : Declaration} {ds : List Declaration} {r : Rule}
      (hexists : strict = true → d.pathExists x.folder = true)
      (hnew : ¬ Occurs Rule.folder rules x.folder) (hrule : x.rule = .ok r)
      (hreads : Reads d strict (rules ++ [r]) ds rs) : Reads d strict rules (x :: ds) rs

theorem reads_cons_iff : Reads d strict rules (x :: ds) rs ↔
    (strict = false ∧ Occurs Rule.folder rules x.folder ∧ Reads d strict rules ds rs) ∨
      ((strict = true → d.pathExists x.folder = true) ∧ ¬ Occurs Rule.folder rules x.folder ∧
        ∃ r, x.rule = .ok r ∧ Reads d strict (rules ++ [r]) ds rs) := by
  constructor
  · intro h
    cases h with
    | skip hlenient hoccurs hreads => exact Or.inl ⟨hlenient, hoccurs, hreads⟩
    | add hexists hnew hrule hreads => exact Or.inr ⟨hexists, hnew, _, hrule, hreads⟩
  · rintro (⟨hlenient, hoccurs, hreads⟩ | ⟨hexists, hnew, r, hrule, hreads⟩)
    · exact .skip hlenient hoccurs hreads
    · exact .add hexists hnew hrule hreads

/-- What the reader does with a declaration: it is left out, or it is read and the rule is put at
the end. -/
theorem readFolders_cons_eq_ok_iff {key value : Yaml} {es : Entries} {name : String}
    (hkey : key.asString? = some name) :
    readFolders d file root strict rules ((key, value) :: es) = .ok rs ↔
      (strict = false ∧ Occurs Rule.folder rules (Path.absolutize ⟨name⟩ root) ∧
        readFolders d file root strict rules es = .ok rs) ∨
      ((strict = true → d.pathExists (Path.absolutize ⟨name⟩ root) = true) ∧
        ¬ Occurs Rule.folder rules (Path.absolutize ⟨name⟩ root) ∧
        ∃ r, Rule.ofYaml (Path.absolutize ⟨name⟩ root) value.asMap? file = .ok r ∧
          readFolders d file root strict (rules ++ [r]) es = .ok rs) := by
  rw [readFolders, hkey]
  dsimp only
  generalize Path.absolutize ⟨name⟩ root = folder
  rw [occurs_iff_isSome]
  cases rules.find? fun r => r.folder.same folder with
  | some first => cases strict <;> cases d.pathExists folder <;> simp
  | none =>
    cases Rule.ofYaml folder value.asMap? file <;> cases strict <;>
      cases d.pathExists folder <;> simp

/-- The reader of documents reads their declarations. -/
theorem readFolders_eq_ok_iff {es : Entries} : readFolders d file root strict rules es = .ok rs ↔
    Reads d strict rules (declared file root es) rs := by
  induction es generalizing rules with
  | nil =>
    rw [readFolders, Except.ok.injEq]
    constructor
    · rintro rfl
      exact .done
    · rintro ⟨⟩
      rfl
  | cons e es ih =>
    obtain ⟨key, value⟩ := e
    cases hkey : key.asString? with
    | none =>
      rw [readFolders, hkey, declared, List.filterMap_cons_none (by rw [hkey]; rfl)]
      exact ih
    | some name =>
      rw [readFolders_cons_eq_ok_iff hkey, declared, List.filterMap_cons_some (by rw [hkey]; rfl),
        reads_cons_iff]
      simp only [ih]
      rfl

/-! ## The first declarations -/

/-- Whether rules are those of the first declarations of their folders. -/
structure Carries (ds : List Declaration) (rules : List Rule) : Prop where
  exists_rule : ∀ x, IsFirst ds x → ∃ r ∈ rules, x.rule = .ok r
  exists_first : ∀ r ∈ rules, ∃ x, IsFirst ds x ∧ x.rule = .ok r

theorem carries_nil : Carries [] [] :=
  ⟨fun _ h => absurd h nofun, nofun⟩

theorem carries_singleton (h : x.rule = .ok r) : Carries [x] [r] := by
  have hfirst : IsFirst [x] x := by simp [IsFirst, Path.same]
  refine ⟨fun y hy => ?_, fun s hs => ?_⟩
  · rw [List.mem_singleton.mp hy.mem]
    exact ⟨r, List.mem_singleton_self r, h⟩
  · rw [List.mem_singleton.mp hs]
    exact ⟨x, hfirst, h⟩

namespace Carries

/-- The rules have the folders that are declared. -/
theorem occurs_iff (h : Carries ds rules) {p : Path} :
    Occurs Rule.folder rules p ↔ Occurs Declaration.folder ds p := by
  constructor
  · rintro ⟨r, hr, hp⟩
    obtain ⟨x, hx, hrule⟩ := h.exists_first r hr
    exact ⟨x, hx.mem, by rw [← Declaration.folder_of_rule hrule, hp]⟩
  · rintro ⟨y, hy, hp⟩
    obtain ⟨x, hx, hxy⟩ := exists_isFirst hy
    obtain ⟨r, hr, hrule⟩ := h.exists_rule x hx
    exact ⟨r, hr, by rw [Declaration.folder_of_rule hrule, hxy, hp]⟩

/-- There is one rule for each folder. -/
theorem eq_of_components_eq (h : Carries ds rules) {s : Rule} (hr : r ∈ rules) (hs : s ∈ rules)
    (hrs : r.folder.components = s.folder.components) : r = s := by
  obtain ⟨x, hx, hxr⟩ := h.exists_first r hr
  obtain ⟨y, hy, hys⟩ := h.exists_first s hs
  rw [Declaration.folder_of_rule hxr, Declaration.folder_of_rule hys] at hrs
  obtain rfl := hx.eq_of_components_eq hy hrs
  exact Except.ok.inj (hxr.symm.trans hys)

/-- A further declaration of a folder makes no difference. -/
theorem skip (h : Carries ds rules) (hoccurs : Occurs Rule.folder rules x.folder) :
    Carries (ds ++ [x]) rules := by
  -- The further declaration is not the first one of its folder.
  have hfirst : ∀ y, IsFirst (ds ++ [x]) y ↔ IsFirst ds y := by
    intro y
    rw [isFirst_append_iff]
    refine or_iff_left ?_
    rintro ⟨hnew, hy⟩
    rw [List.mem_singleton.mp hy.mem, ← h.occurs_iff] at hnew
    exact hnew hoccurs
  exact ⟨fun y hy => h.exists_rule y ((hfirst y).mp hy), fun r hr =>
    (h.exists_first r hr).imp fun y hy => ⟨(hfirst y).mpr hy.1, hy.2⟩⟩

/-- Rules that carry further declarations are added, apart from those whose folders there are rules
for. -/
theorem append (h : Carries ds rules) (hnew : Carries es new)
    (hrs : ∀ r, r ∈ rs ↔ r ∈ rules ∨ (r ∈ new ∧ ¬ Occurs Rule.folder rules r.folder)) :
    Carries (ds ++ es) rs := by
  refine ⟨fun x hx => ?_, fun r hr => ?_⟩
  · rcases isFirst_append_iff.mp hx with hx | ⟨hx, hfirst⟩
    · obtain ⟨r, hr, hrule⟩ := h.exists_rule x hx
      exact ⟨r, (hrs r).mpr (Or.inl hr), hrule⟩
    · obtain ⟨r, hr, hrule⟩ := hnew.exists_rule x hfirst
      rw [← h.occurs_iff, ← Declaration.folder_of_rule hrule] at hx
      exact ⟨r, (hrs r).mpr (Or.inr ⟨hr, hx⟩), hrule⟩
  · rcases (hrs r).mp hr with hr | ⟨hr, hx⟩
    · obtain ⟨x, hfirst, hrule⟩ := h.exists_first r hr
      exact ⟨x, isFirst_append_iff.mpr (Or.inl hfirst), hrule⟩
    · obtain ⟨x, hfirst, hrule⟩ := hnew.exists_first r hr
      rw [h.occurs_iff, Declaration.folder_of_rule hrule] at hx
      exact ⟨x, isFirst_append_iff.mpr (Or.inr ⟨hx, hfirst⟩), hrule⟩

end Carries

/-- What is read of a file carries its declarations after the ones before. -/
theorem Reads.carries (h : Reads d strict rules es rs) (hrules : Carries ds rules) :
    Carries (ds ++ es) rs := by
  induction h generalizing ds with
  | done => rwa [List.append_nil]
  | skip _ hoccurs _ ih =>
    rw [List.append_cons]
    exact ih (hrules.skip hoccurs)
  | @add rules rs x es r _ hnew hrule _ ih =>
    rw [List.append_cons]
    refine ih (hrules.append (carries_singleton hrule) fun s => ?_)
    rw [List.mem_append, List.mem_singleton]
    refine or_congr_right (iff_self_and.mpr ?_)
    rintro rfl
    rwa [Declaration.folder_of_rule hrule]

/-- The rules of a file have different folders. -/
theorem Reads.distinct (h : Reads d strict rules es rs) (hrules : Distinct Rule.folder rules) :
    Distinct Rule.folder rs := by
  induction h with
  | done => exact hrules
  | skip _ _ _ ih => exact ih hrules
  | @add rules rs x es r _ hnew hrule _ ih =>
    refine ih (List.pairwise_append.mpr ⟨hrules, List.pairwise_singleton _ _, fun s hs t ht => ?_⟩)
    rw [List.mem_singleton.mp ht, Declaration.folder_of_rule hrule]
    exact fun hst => hnew ⟨s, hs, hst⟩

/-! ## Adding the rules of a file -/

theorem addRules_cons_eq_ok_iff : addRules file strict rules (r :: new) = .ok rs ↔
    (strict = false ∧ Occurs Rule.folder rules r.folder ∧
      addRules file strict rules new = .ok rs) ∨
    (¬ Occurs Rule.folder rules r.folder ∧
      addRules file strict (Path.insertNew Rule.folder r rules) new = .ok rs) := by
  rw [addRules, occurs_iff_isSome]
  cases rules.find? fun s => s.folder.same r.folder <;> cases strict <;> simp

theorem occurs_insertNew_iff (h : ¬ Occurs Rule.folder rules r.folder) {p : Path} :
    Occurs Rule.folder (Path.insertNew Rule.folder r rules) p ↔
      r.folder.components = p.components ∨ Occurs Rule.folder rules p := by
  rw [← occurs_cons]
  simp only [Occurs, mem_insertNew_iff h, List.mem_cons]

/-- The rules of a file are added, apart from those whose folders there are rules for. -/
theorem mem_addRules (h : addRules file strict rules new = .ok rs)
    (hnew : ∀ r ∈ new, ∀ s ∈ new, r.folder.components = s.folder.components → r = s) (s : Rule) :
    s ∈ rs ↔ s ∈ rules ∨ (s ∈ new ∧ ¬ Occurs Rule.folder rules s.folder) := by
  induction new generalizing rules with
  | nil =>
    rw [← Except.ok.inj h]
    simp
  | cons r new ih =>
    have htail : ∀ r ∈ new, ∀ s ∈ new, r.folder.components = s.folder.components → r = s :=
      fun r hr s hs => hnew r (List.mem_cons_of_mem _ hr) s (List.mem_cons_of_mem _ hs)
    rcases addRules_cons_eq_ok_iff.mp h with ⟨-, hoccurs, h⟩ | ⟨hfresh, h⟩
    · rw [ih h htail, List.mem_cons, or_and_right]
      refine or_congr_right (or_iff_right ?_).symm
      rintro ⟨rfl, hs⟩
      exact hs hoccurs
    · rw [ih h htail, mem_insertNew_iff hfresh, occurs_insertNew_iff hfresh, List.mem_cons]
      constructor
      · rintro ((rfl | hs) | ⟨hs, hother⟩)
        · exact Or.inr ⟨Or.inl rfl, hfresh⟩
        · exact Or.inl hs
        · exact Or.inr ⟨Or.inr hs, fun hoccurs => hother (Or.inr hoccurs)⟩
      · rintro (hs | ⟨rfl | hs, hother⟩)
        · exact Or.inl (Or.inr hs)
        · exact Or.inl (Or.inl rfl)
        · -- A later rule with the folder of the first one is the first one, which is added.
          by_cases hrs : r.folder.components = s.folder.components
          · have hself := hnew r List.mem_cons_self s (List.mem_cons_of_mem _ hs) hrs
            exact Or.inl (Or.inl hself.symm)
          · exact Or.inr ⟨hs, fun hoccurs => hoccurs.elim hrs hother⟩

/-! ## Reading files -/

theorem readFile_eq_ok_iff : readFile d file root strict = .ok rs ↔
    ∃ es, documentOf d file = .ok es ∧ Reads d strict [] (declared file root es) rs := by
  simp only [← readFolders_eq_ok_iff, documentOf, bind_eq_ok_iff, mapError_eq_ok_iff]
  rw [readFile]
  cases d.readText file with
  | error e => simp
  | ok content => cases hdoc : loadDocument file content <;> simp [hdoc]

theorem readFiles_cons_eq_ok_iff {files : List Path} :
    readFiles d root strict rules (file :: files) = .ok rs ↔
      ∃ es new merged, documentOf d file = .ok es ∧
        Reads d strict [] (declared file root es) new ∧
        addRules file strict rules new = .ok merged ∧
        readFiles d root strict merged files = .ok rs := by
  rw [readFiles]
  cases hread : readFile d file root strict with
  | error e =>
    refine iff_of_false (by simp) ?_
    rintro ⟨es, new, _, hdoc, hreads, -⟩
    exact absurd (hread.symm.trans (readFile_eq_ok_iff.mpr ⟨es, hdoc, hreads⟩)) (by simp)
  | ok new =>
    obtain ⟨es, hdoc, hreads⟩ := readFile_eq_ok_iff.mp hread
    dsimp only
    constructor
    · intro h
      split at h
      · exact absurd h (by simp)
      · next merged hadd => exact ⟨es, new, merged, hdoc, hreads, hadd, h⟩
    · rintro ⟨es', new', merged, hdoc', hreads', hadd, h⟩
      have hread' := readFile_eq_ok_iff.mpr ⟨es', hdoc', hreads'⟩
      obtain rfl := Except.ok.inj (hread.symm.trans hread')
      rw [hadd]
      exact h

theorem declarations_cons_eq_ok_iff {files : List Path} :
    declarations d root (file :: files) = .ok ds ↔ ∃ es rest, documentOf d file = .ok es ∧
      declarations d root files = .ok rest ∧ declared file root es ++ rest = ds := by
  rw [declarations, bind_eq_ok_iff]
  simp only [map_eq_ok_iff, exists_and_left]

/-- The rules of one more file carry its declarations after those of the files before. -/
theorem carries_of_addRules {merged : List Rule} (hrules : Carries ds rules)
    (hreads : Reads d strict [] es new) (hadd : addRules file strict rules new = .ok merged) :
    Carries (ds ++ es) merged := by
  have hnew : Carries es new := hreads.carries carries_nil
  exact hrules.append hnew (mem_addRules hadd fun r hr s hs => hnew.eq_of_components_eq hr hs)

/-- What is read of files carries their declarations after the ones before. -/
theorem carries_of_readFiles {files : List Path} (hrules : Carries ds rules)
    (h : readFiles d root strict rules files = .ok rs) :
    ∃ rest, declarations d root files = .ok rest ∧ Carries (ds ++ rest) rs := by
  induction files generalizing ds rules with
  | nil =>
    rw [← Except.ok.inj h]
    exact ⟨[], rfl, by rwa [List.append_nil]⟩
  | cons file files ih =>
    obtain ⟨es, new, merged, hdoc, hreads, hadd, h⟩ := readFiles_cons_eq_ok_iff.mp h
    obtain ⟨rest, hrest, hcarries⟩ := ih (carries_of_addRules hrules hreads hadd) h
    refine ⟨_, declarations_cons_eq_ok_iff.mpr ⟨es, rest, hdoc, hrest, rfl⟩, ?_⟩
    rwa [← List.append_assoc]

end Manifest

end BuildMatrix
