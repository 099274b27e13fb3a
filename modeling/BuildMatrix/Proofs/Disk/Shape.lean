import BuildMatrix.Proofs.Disk.Frame

/-!
# Trees of one shape

Paths lead where they do because of the folders and files on their way, whatever the files hold. So
what is written into files that are there changes nothing about where paths lead.

* `FileTree.names?`: the names that make up the shape of a tree.
* `FileTree.get?_put_file`: a tree in which one file is replaced by another.
* `Disk.Wipes`: a disk of the same shape on which empty files stay empty.
* `Disk.Wipes.locate_eq`, `Disk.Wipes.names?_find`: what is the same on disks of one shape.
* `Disk.WipesAt`, `Disk.wipesAt_copyFile`: a file that is copied to its own place is emptied.
* `Disk.isSome_of_locate`: every place on the way of a path is there.
-/

namespace BuildMatrix

namespace FileTree

variable {t c : FileTree} {n : String} {cs : List (String × FileTree)} {at' place : List String}
  {old new : Content}

/-- The names of what a folder holds, in order; a file holds nothing. -/
def names? : FileTree → Option (List String)
  | file _ => none
  | folder cs => some (cs.map Prod.fst)

/-- A child that is replaced keeps its place among the others. -/
theorem map_fst_alterChild {f : Option FileTree → Option FileTree} (hf : ∀ c, (f (some c)).isSome)
    (h : cs.lookup n = some c) : (alterChild n f cs).map Prod.fst = cs.map Prod.fst := by
  induction cs with
  | nil => cases h
  | cons x cs ih =>
    obtain ⟨m, e⟩ := x
    rw [alterChild]
    by_cases hn : n = m
    · obtain ⟨e', he'⟩ := Option.isSome_iff_exists.mp (hf e)
      simp [hn, he']
    · have hbeq : (n == m) = false := beq_eq_false_iff_ne.mpr hn
      rw [List.lookup_cons, hbeq] at h
      have hlater : ¬ (n < m ∧ cs.lookup n = none) := fun hnone =>
        absurd (h.symm.trans hnone.2) (Option.some_ne_none c)
      rw [if_neg hn, if_neg hlater, List.map_cons, List.map_cons, ih h]

theorem names?_put (h : cs.lookup n = some c) (ns : List String) (u : FileTree) :
    ((folder cs).put (n :: ns) u).names? = some (cs.map Prod.fst) := by
  cases ns <;> exact congrArg some (map_fst_alterChild (fun _ => rfl) h)

/-- A tree in which one file is replaced by another: the rest stays, as far as it is no folder around
the file, and such a folder holds the same names. -/
theorem get?_put_file (h : t.get? at' = some (file old)) (hne : place ≠ at') :
    (t.put at' (file new)).get? place = t.get? place ∨
      ∃ cs u, t.get? place = some (folder cs) ∧
        (t.put at' (file new)).get? place = some u ∧ u.names? = some (cs.map Prod.fst) := by
  induction at' generalizing t place with
  | nil =>
    cases place with
    | nil => exact absurd rfl hne
    | cons n ns =>
      rw [Option.some.inj h]
      exact Or.inl rfl
  | cons m ms ih =>
    cases t with
    | file content => exact absurd h nofun
    | folder cs =>
      rw [get?_cons, children] at h
      obtain ⟨e, he, hget⟩ := Option.bind_eq_some_iff.mp h
      cases place with
      | nil => exact Or.inr ⟨cs, _, rfl, rfl, names?_put he ms _⟩
      | cons n ns =>
        by_cases hn : n = m
        · subst hn
          rw [get?_cons, lookup_put_self he, get?_cons, children, he]
          exact ih hget fun heq => hne (heq ▸ rfl)
        · rw [get?_cons, lookup_put_of_ne hn, get?_cons]
          exact Or.inl rfl

end FileTree

namespace Disk

variable {d d' d'' : Disk} {p q : Path} {place : List String}

theorem toOption_find_of_locate (h : d.locate p = .ok place) :
    (d.find p).toOption = d.tree.get? place := by
  simp only [find, h]
  cases d.tree.get? place <;> rfl

/-- Whether a path names a file or a folder, and what this holds, is seen from the shape of what it
names. -/
theorem isFile_eq_names? (d : Disk) (p : Path) :
    d.isFile p = ((d.find p).toOption.map FileTree.names? == some none) := by
  rw [isFile]
  cases d.find p with
  | error e => rfl
  | ok t => cases t <;> rfl

theorem isFolder_eq_names? (d : Disk) (p : Path) :
    d.isFolder p = ((d.find p).toOption.map FileTree.names?).any (·.isSome) := by
  rw [isFolder]
  cases d.find p with
  | error e => rfl
  | ok t => cases t <;> rfl

/-! ## One shape -/

/-- A file that holds nothing. -/
def emptyFile : FileTree :=
  .file (.text "")

/-- Whether a disk has folders with the same names and files where another one has them, and empty
files at least there. -/
structure Wipes (d d' : Disk) : Prop where
  cwd_eq : d'.cwd = d.cwd
  names?_eq : ∀ place, (d'.tree.get? place).map FileTree.names? =
    (d.tree.get? place).map FileTree.names?
  stays_empty : ∀ place, d.tree.get? place = some emptyFile → d'.tree.get? place = some emptyFile

/-- What holds as little as a file is a file. -/
theorem exists_file_of_names?_eq {o o' : Option FileTree}
    (h : o'.map FileTree.names? = o.map FileTree.names?) (ho : ∃ old, o = some (.file old)) :
    ∃ new, o' = some (.file new) := by
  obtain ⟨old, rfl⟩ := ho
  obtain ⟨u, hu, hnames⟩ := Option.map_eq_some_iff.mp h
  cases u with
  | file new => exact ⟨new, hu⟩
  | folder children => exact absurd hnames nofun

theorem exists_folder_of_names?_eq {o o' : Option FileTree}
    (h : o'.map FileTree.names? = o.map FileTree.names?)
    (ho : ∃ children, o = some (.folder children)) : ∃ children, o' = some (.folder children) := by
  obtain ⟨children, rfl⟩ := ho
  obtain ⟨u, hu, hnames⟩ := Option.map_eq_some_iff.mp h
  cases u with
  | file new => exact absurd hnames nofun
  | folder children => exact ⟨children, hu⟩

namespace Wipes

theorem refl (d : Disk) : Wipes d d :=
  ⟨rfl, fun _ => rfl, fun _ h => h⟩

theorem trans (h : Wipes d d') (h' : Wipes d' d'') : Wipes d d'' :=
  ⟨h'.cwd_eq.trans h.cwd_eq, fun place => (h'.names?_eq place).trans (h.names?_eq place),
    fun place hp => h'.stays_empty place (h.stays_empty place hp)⟩

theorem isSome_eq (h : Wipes d d') (place : List String) :
    (d'.tree.get? place).isSome = (d.tree.get? place).isSome := by
  rw [← Option.isSome_map, h.names?_eq, Option.isSome_map]

/-- Paths are followed the same way. -/
theorem follow_eq (h : Wipes d d') (start : List String) (pieces : List (List Char)) :
    follow d'.tree start pieces = follow d.tree start pieces := by
  induction pieces generalizing start with
  | nil => rfl
  | cons piece pieces ih =>
    have hnames := h.names?_eq start
    rw [follow, follow]
    cases hd : d.tree.get? start with
    | none =>
      rw [hd] at hnames
      rw [Option.map_eq_none_iff.mp hnames]
    | some t =>
      cases t with
      | file old =>
        obtain ⟨new, hnew⟩ := exists_file_of_names?_eq hnames ⟨old, hd⟩
        rw [hnew]
      | folder children =>
        obtain ⟨children', hchildren⟩ := exists_folder_of_names?_eq hnames ⟨children, hd⟩
        rw [hchildren]
        exact ih _

theorem locate_eq (h : Wipes d d') (p : Path) : d'.locate p = d.locate p := by
  rw [locate, locate, h.cwd_eq, h.follow_eq]

/-- What a path names has the same shape. -/
theorem names?_find (h : Wipes d d') (p : Path) :
    (d'.find p).toOption.map FileTree.names? = (d.find p).toOption.map FileTree.names? := by
  cases hlocate : d.locate p with
  | error e => rw [find, find, h.locate_eq, hlocate]
  | ok place =>
    rw [toOption_find_of_locate hlocate, toOption_find_of_locate ((h.locate_eq p).trans hlocate),
      h.names?_eq]

theorem isFile_eq (h : Wipes d d') (p : Path) : d'.isFile p = d.isFile p := by
  rw [isFile_eq_names?, isFile_eq_names?, h.names?_find]

theorem isFolder_eq (h : Wipes d d') (p : Path) : d'.isFolder p = d.isFolder p := by
  rw [isFolder_eq_names?, isFolder_eq_names?, h.names?_find]

end Wipes

/-! ## Changes that keep the shape -/

/-- Whether a disk is another one with the file at a place emptied: all other files are as they were. -/
structure WipesAt (d d' : Disk) (place : List String) : Prop where
  wipes : Wipes d d'
  isEmpty : d'.tree.get? place = some emptyFile
  stays : ∀ other content, other ≠ place → d.tree.get? other = some (.file content) →
    d'.tree.get? other = some (.file content)

theorem WipesAt.trans (h : WipesAt d d' place) (h' : WipesAt d' d'' place) : WipesAt d d'' place :=
  ⟨h.wipes.trans h'.wipes, h'.isEmpty, fun other content hne hfile =>
    h'.stays other content hne (h.stays other content hne hfile)⟩

/-- A file is emptied. -/
theorem wipesAt_put {old : Content} (h : d.tree.get? place = some (.file old)) :
    WipesAt d { d with tree := d.tree.put place emptyFile } place := by
  have hself : (d.tree.put place emptyFile).get? place = some emptyFile :=
    FileTree.get?_put_self (Or.inl (by rw [h]; rfl))
  have hstays : ∀ other content, other ≠ place → d.tree.get? other = some (.file content) →
      (d.tree.put place emptyFile).get? other = some (.file content) := by
    intro other content hne hother
    rcases FileTree.get?_put_file h hne with heq | ⟨cs, u, hcs, -⟩
    · exact heq.trans hother
    · exact absurd (hcs.symm.trans hother) nofun
  refine ⟨⟨rfl, fun other => ?_, fun other hother => ?_⟩, hself, hstays⟩
  · by_cases hne : other = place
    · rw [hne, hself, h]
      rfl
    · rcases FileTree.get?_put_file h hne with heq | ⟨cs, u, hcs, hu, hnames⟩
      · exact congrArg _ heq
      · show ((d.tree.put place emptyFile).get? other).map FileTree.names? = _
        rw [hcs, emptyFile, hu, Option.map_some, hnames]
        rfl
  · by_cases hne : other = place
    · exact hne ▸ hself
    · exact hstays other (.text "") hne hother

/-- A file that is written without content is emptied. -/
theorem wipesAt_writeContent {change : Option Content → Content} {old : Content}
    (hchange : ∀ c, change c = .text "") (hlocate : d.locate p = .ok place)
    (hget : d.tree.get? place = some (.file old)) (hwrite : d.writeContent p change = .ok d') :
    WipesAt d d' place := by
  obtain ⟨place', c, hlocate', -, -, rfl⟩ := exists_put_of_writeContent hwrite
  obtain rfl := Except.ok.inj (hlocate.symm.trans hlocate')
  rw [hchange]
  exact wipesAt_put hget

/-- A file that is copied to its own place is emptied. -/
theorem wipesAt_copyFile {source target : Path}
    (hplace : landing d.cwd target.components = landing d.cwd source.components)
    (hcopy : d.copyFile source target = .ok d') :
    WipesAt d d' (landing d.cwd source.components) := by
  rw [copyFile] at hcopy
  split at hcopy
  · cases hcopy
  · cases hcopy
  next old hfind =>
  obtain ⟨emptied, hemptied, hcopy⟩ := bind_eq_ok_iff.mp hcopy
  obtain ⟨place, hsource, hget⟩ := find_eq_ok_iff.mp hfind
  obtain ⟨place', htarget, -⟩ := exists_put_of_writeText hemptied
  rw [← landing_of_locate hsource] at hplace ⊢
  obtain rfl : place = place' := ((landing_of_locate htarget).trans hplace).symm
  have hfirst := wipesAt_writeContent (fun _ => rfl) htarget hget hemptied
  -- what is read of the source now is what has been written to it
  have hagain : emptied.find source = .ok (.file (.text "")) :=
    find_eq_ok_iff.mpr ⟨place, (hfirst.wipes.locate_eq source).trans hsource, hfirst.isEmpty⟩
  rw [hagain] at hcopy
  have hsecond := wipesAt_writeContent (fun _ => rfl)
    ((hfirst.wipes.locate_eq target).trans htarget) hfirst.isEmpty hcopy
  exact hfirst.trans hsecond

/-! ## The way of a path -/

theorem isSome_of_follow {t : FileTree} {start : List String} {pieces : List (List Char)}
    (h : follow t start pieces = .ok place) (hplace : (t.get? place).isSome) {cs : List Component}
    (hcs : cs <+: pieces.filterMap Component.ofPiece?) : (t.get? (landing start cs)).isSome := by
  induction pieces generalizing start cs with
  | nil =>
    rwa [List.prefix_nil.mp hcs, landing_nil, Except.ok.inj h]
  | cons piece pieces ih =>
    obtain ⟨⟨children, hchildren⟩, h⟩ := follow_cons_eq_ok_iff.mp h
    rw [step_eq_landing] at h
    cases hpiece : Component.ofPiece? piece with
    | none =>
      rw [hpiece] at h
      rw [List.filterMap_cons_none hpiece] at hcs
      refine ih ?_ hcs
      rwa [Option.toList_none, landing_nil] at h
    | some c =>
      rw [hpiece] at h
      rw [List.filterMap_cons_some hpiece] at hcs
      rcases List.prefix_cons_iff.mp hcs with rfl | ⟨ds, rfl, hds⟩
      · rw [landing_nil, hchildren]
        rfl
      · rw [← List.singleton_append, landing_append]
        exact ih h hds

/-- Every place on the way to something that a path names is there. -/
theorem isSome_of_locate (h : d.locate p = .ok place) (hplace : (d.tree.get? place).isSome)
    {cs : List Component} (hcs : cs <+: p.components) (hne : cs ≠ []) :
    (d.tree.get? (landing d.cwd cs)).isSome := by
  have h := (locate_eq_ok_iff.mp h).2.2.2
  rw [p.components_eq_bodyPieces] at hcs
  rcases p.start?_cases with habsolute | ⟨hrelative, hstart | hstart⟩
  · rw [Path.start?_of_isAbsolute habsolute] at hcs
    rw [if_pos habsolute] at h
    rcases List.prefix_cons_iff.mp hcs with rfl | ⟨ds, rfl, hds⟩
    · exact absurd rfl hne
    · exact isSome_of_follow h hplace hds
  · rw [hstart] at hcs
    rw [hrelative] at h
    exact isSome_of_follow h hplace hcs
  · rw [hstart] at hcs
    rw [hrelative] at h
    rcases List.prefix_cons_iff.mp hcs with rfl | ⟨ds, rfl, hds⟩
    · exact absurd rfl hne
    · show (d.tree.get? (landing d.cwd ds)).isSome
      exact isSome_of_follow h hplace hds

/-- Where all places on the way of a path are there, no folder is created. -/
theorem createFolders_eq_self (hp : ∀ cs, cs <+: p.components → cs ≠ [] →
      (d.tree.get? (landing d.cwd cs)).isSome) (hcreate : d.createFolders p = .ok d') : d' = d := by
  have hhas : Has d.cwd [] d.tree d := ⟨rfl, rfl⟩
  have hthere : ∀ cs, cs <+: p.components → cs ≠ [] →
      IsThere [] d.tree (landing d.cwd cs) := fun cs hcs hne rest hrest =>
    (show landing d.cwd cs = rest from hrest) ▸ hp cs hcs hne
  obtain ⟨hcwd, htree⟩ := hhas.createFolders hthere hcreate
  obtain ⟨tree, cwd⟩ := d
  obtain ⟨tree', cwd'⟩ := d'
  obtain rfl : tree' = tree := Option.some.inj htree
  obtain rfl : cwd' = cwd := hcwd
  rfl

end Disk

end BuildMatrix
