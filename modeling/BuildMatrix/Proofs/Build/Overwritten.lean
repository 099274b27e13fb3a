import BuildMatrix.Proofs.Build.WorkFolder
import BuildMatrix.Proofs.Disk.Shape

/-!
# An app that is copied over itself

Nothing is copied if the work path and the app's folder have the same components. Two paths that are
spelled otherwise may still lead to one folder, such as `a` and `./a`. Each file of the app is then
copied to its own place, and a file is emptied before it is written: the copy is empty, and it is
the source.

* `Empties`: a task that does nothing but empty the files at certain places.
* `ComesTo`, `mem_namesWalked_iff`: which names the walk through a folder comes to: those that are
  not listed behind a file that is the build path.
* `IsWalked`: what the walk through an app comes to.
* `IsCopied`: a file of an app that the walk comes to.
* `empties_copyFrom`: copying an app to its own folder empties what the walk comes to. The disk keeps
  its shape all the while, so that this is known from the disk as it was.
* `prepareWorkFolder_app`: what preparing a work folder does to the app.
-/

namespace BuildMatrix.Build

/-! ## What a task empties -/

/-- Whether a task does nothing on a disk but empty files at some places, and has emptied all of them
if it succeeds. -/
structure EmptiesFrom (e : Disk) (task : DiskTask Unit) (P : List String → Prop) : Prop where
  wipes : e.Wipes (task.run.run e).2
  isEmpty : (task.run.run e).1 = .ok () →
    ∀ place, P place → (task.run.run e).2.tree.get? place = some Disk.emptyFile
  stays : ∀ place content, ¬ P place → e.tree.get? place = some (.file content) →
    (task.run.run e).2.tree.get? place = some (.file content)

/-- Whether a task does so on every disk that another one has become by having files emptied. -/
def Empties (d : Disk) (task : DiskTask Unit) (P : List String → Prop) : Prop :=
  ∀ e, d.Wipes e → EmptiesFrom e task P

section

variable {d e : Disk} {α : Type} {P Q : List String → Prop}

theorem EmptiesFrom.of_run_eq {task : DiskTask Unit} {result : Except BuildError Unit} {e' : Disk}
    (hrun : task.run.run e = (result, e')) (hwipes : e.Wipes e')
    (hempty : result = .ok () → ∀ place, P place → e'.tree.get? place = some Disk.emptyFile)
    (hstays : ∀ place content, ¬ P place → e.tree.get? place = some (.file content) →
      e'.tree.get? place = some (.file content)) :
    EmptiesFrom e task P := by
  constructor
  · rw [hrun]
    exact hwipes
  · rw [hrun]
    exact hempty
  · rw [hrun]
    exact hstays

theorem emptiesFrom_pure (h : ∀ place, ¬ P place) : EmptiesFrom e (pure ()) P :=
  .of_run_eq rfl (.refl e) (fun _ place hplace => absurd hplace (h place)) fun _ _ _ => id

theorem emptiesFrom_throw (x : BuildError) : EmptiesFrom e (throw x) P :=
  .of_run_eq rfl (.refl e) nofun fun _ _ _ => id

theorem empties_get_bind {next : Disk → DiskTask Unit}
    (h : ∀ e, d.Wipes e → EmptiesFrom e (next e) P) : Empties d (get >>= next) P :=
  fun e he => ⟨(h e he).wipes, (h e he).isEmpty, (h e he).stays⟩

theorem Empties.congr {task : DiskTask Unit} (h : Empties d task Q)
    (hPQ : ∀ place, P place ↔ Q place) : Empties d task P := by
  rwa [funext fun place => propext (hPQ place)]

/-- What the first task has emptied stays empty. -/
theorem Empties.bind {first second : DiskTask Unit} (hfirst : Empties d first P)
    (hsecond : Empties d second Q) :
    Empties d (first >>= fun _ => second) fun place => P place ∨ Q place := by
  intro e he
  obtain ⟨hwipes, hempty, hstays⟩ := hfirst e he
  rcases hrun : first.run.run e with ⟨result, e'⟩
  rw [hrun] at hwipes hempty hstays
  cases result with
  | error x =>
    exact .of_run_eq (run_bind_of_error hrun) hwipes nofun fun place content hplace =>
      hstays place content (not_or.mp hplace).1
  | ok x =>
    have hsecond := hsecond e' (he.trans hwipes)
    refine .of_run_eq (run_bind_of_ok hrun) (hwipes.trans hsecond.wipes)
      (fun hok place hplace => ?_) fun place content hplace hfile => ?_
    · rcases hplace with hplace | hplace
      · exact hsecond.wipes.stays_empty place (hempty rfl place hplace)
      · exact hsecond.isEmpty hok place hplace
    · obtain ⟨hnot, hnot'⟩ := not_or.mp hplace
      exact hsecond.stays place content hnot' (hstays place content hnot hfile)

theorem empties_change {p : Path} {f : Disk → Except DiskError Disk}
    (h : ∀ e e', d.Wipes e → f e = .ok e' → e.Wipes e' ∧
      (∀ place, P place → e'.tree.get? place = some Disk.emptyFile) ∧
      ∀ place content, ¬ P place → e.tree.get? place = some (.file content) →
        e'.tree.get? place = some (.file content)) :
    Empties d (change p f) P := by
  intro e he
  cases hf : f e with
  | error x => exact .of_run_eq (run_change_of_error hf) (.refl e) nofun fun _ _ _ => id
  | ok e' =>
    obtain ⟨hwipes, hempty, hstays⟩ := h e e' he hf
    exact .of_run_eq (run_change_of_ok hf) hwipes (fun _ => hempty) hstays

theorem empties_forM {task : α → DiskTask Unit} {R : α → List String → Prop} {xs : List α}
    (h : ∀ x ∈ xs, Empties d (task x) (R x)) :
    Empties d (xs.forM task) fun place => ∃ x ∈ xs, R x place := by
  induction xs with
  | nil => exact fun _ _ => emptiesFrom_pure fun place ⟨x, hx, _⟩ => absurd hx List.not_mem_nil
  | cons x xs ih =>
    have hrest := ih fun y hy => h y (List.mem_cons_of_mem _ hy)
    exact ((h x List.mem_cons_self).bind hrest).congr fun place => by
      simp only [List.mem_cons, exists_eq_or_imp]

end

/-! ## Copying -/

section

variable {d e : Disk} {a : App} {place names : List String} {t : FileTree}

theorem isLeftOut_eq (h : d.Wipes e) (a : App) (source : Path) :
    isLeftOut e a source = isLeftOut d a source := by
  rw [isLeftOut, isLeftOut, h.isFolder_eq, h.isFile_eq]

/-- What a folder holds is there. -/
theorem isSome_of_mem_namesIn {source : Path} {at' : List String}
    (hsource : d.locate source = .ok at') {n : String} (hn : n ∈ namesIn d source) :
    (d.tree.get? (at' ++ [n])).isSome := by
  obtain ⟨u, hu, hn⟩ := mem_namesIn_iff.mp hn
  obtain ⟨place, hplace, hget⟩ := Disk.find_eq_ok_iff.mp hu
  obtain rfl := Except.ok.inj (hsource.symm.trans hplace)
  rwa [FileTree.get?_append, hget]

theorem namesIn_eq_names? (d : Disk) (source : Path) :
    namesIn d source = ((d.find source).toOption.map FileTree.names?).join.getD [] := by
  rw [namesIn]
  cases d.find source with
  | error e => rfl
  | ok t => cases t <;> rfl

/-- The walk through a folder comes to the same names on disks of one shape. -/
theorem namesWalked_eq (h : d.Wipes e) (a : App) (source : Path) :
    namesWalked e a source = namesWalked d a source := by
  have hnames : namesIn e source = namesIn d source := by
    rw [namesIn_eq_names?, namesIn_eq_names?, h.names?_find]
  simp only [namesWalked, hnames, h.isFile_eq, isLeftOut_eq h]

/-- A list is cut behind a member exactly if nothing up to this member fails. -/
theorem mem_takeWhile_iff {α : Type} {p : α → Bool} {x : α} {xs : List α} :
    x ∈ xs.takeWhile p ↔
      ∃ before after, xs = before ++ x :: after ∧ ∀ y ∈ before ++ [x], p y = true := by
  constructor
  · intro hx
    obtain ⟨before, after, hsplit⟩ := List.append_of_mem hx
    refine ⟨before, after ++ xs.dropWhile p, ?_, fun y hy => ?_⟩
    · rw [← List.cons_append, ← List.append_assoc, ← hsplit, List.takeWhile_append_dropWhile]
    · refine List.mem_takeWhile_imp (l := xs) ?_
      rw [hsplit, List.append_cons]
      exact List.mem_append_left after hy
  · rintro ⟨before, after, rfl, hall⟩
    rw [List.append_cons, List.takeWhile_append_of_pos hall]
    exact List.mem_append_left _ (List.mem_append_right before List.mem_cons_self)

/-- Whether the walk through a folder of an app comes to a name: the folder lists it, and no file that it
lists before, nor the one of this name, is the build path. -/
def ComesTo (d : Disk) (a : App) (folder : Path) (n : String) : Prop :=
  ∃ before after, namesIn d folder = before ++ n :: after ∧
    ∀ m ∈ before ++ [n], d.isFile (folder.child m) = true → (folder.child m).same a.buildPath = false

/-- A file is left out exactly if it is the build path. -/
theorem isLeftOut_of_isFile {source : Path} (h : d.isFile source = true) (a : App) :
    isLeftOut d a source = source.same a.buildPath := by
  have hfolder : d.isFolder source = false := by
    rw [Disk.isFolder_eq_names?]
    rw [Disk.isFile_eq_names?, beq_iff_eq] at h
    rw [h]
    rfl
  rw [isLeftOut, hfolder, Bool.false_and, Bool.or_false]

theorem mem_namesWalked_iff {folder : Path} {n : String} :
    n ∈ namesWalked d a folder ↔ ComesTo d a folder n := by
  have hpass (m : String) : (!(d.isFile (folder.child m) && isLeftOut d a (folder.child m))) = true ↔
      (d.isFile (folder.child m) = true → (folder.child m).same a.buildPath = false) := by
    cases hfile : d.isFile (folder.child m) with
    | false => simp
    | true => simp [isLeftOut_of_isFile hfile]
  rw [namesWalked, mem_takeWhile_iff, ComesTo]
  simp only [hpass]

/-- Whether the walk through an app comes from a place to what names lead to from there: nothing
on the way is left out, and the walk comes to each of the names. -/
def IsWalked (d : Disk) (a : App) (source : Path) : List String → Prop
  | [] => isLeftOut d a source = false
  | n :: names =>
    isLeftOut d a source = false ∧ ComesTo d a source n ∧ IsWalked d a (source.child n) names

instance ComesTo.decidable (d : Disk) (a : App) (folder : Path) (n : String) :
    Decidable (ComesTo d a folder n) :=
  decidable_of_iff _ mem_namesWalked_iff

instance IsWalked.decidable (d : Disk) (a : App) :
    ∀ (source : Path) (names : List String), Decidable (IsWalked d a source names)
  | source, [] => inferInstanceAs (Decidable (isLeftOut d a source = false))
  | source, n :: names =>
    have := IsWalked.decidable d a (source.child n) names
    inferInstanceAs (Decidable (_ ∧ _ ∧ _))

theorem IsWalked.isLeftOut_eq_false {source : Path} (h : IsWalked d a source names) :
    isLeftOut d a source = false := by
  cases names with
  | nil => exact h
  | cons n names => exact h.1

/-- Whether a file of an app is copied from a place that names lead to: the walk through the app
comes to it from there. -/
def IsCopied (d : Disk) (a : App) (place names at' : List String) : Prop :=
  ∃ more content, at' = place ++ (names ++ more) ∧ d.tree.get? at' = some (.file content) ∧
    IsWalked d a (a.folder.descend names) more

/-- Of a file nothing but itself is copied. -/
theorem isCopied_iff_of_file {at' : List String} {old : Content}
    (hfile : d.tree.get? (place ++ names) = some (.file old))
    (hkept : isLeftOut d a (a.folder.descend names) = false) :
    IsCopied d a place names at' ↔ at' = place ++ names := by
  constructor
  · rintro ⟨more, content, rfl, hget, -⟩
    rw [← List.append_assoc, FileTree.get?_append, hfile] at hget
    cases more with
    | nil => rw [List.append_nil]
    | cons n more => exact absurd hget nofun
  · rintro rfl
    exact ⟨[], old, by rw [List.append_nil], hfile, hkept⟩

/-- What is copied from a folder is copied from the children that the walk comes to. -/
theorem isCopied_iff_of_folder {at' : List String} {children : List (String × FileTree)}
    (hfolder : d.tree.get? (place ++ names) = some (.folder children))
    (hkept : isLeftOut d a (a.folder.descend names) = false) :
    IsCopied d a place names at' ↔
      ∃ n ∈ namesWalked d a (a.folder.descend names), IsCopied d a place (names ++ [n]) at' := by
  constructor
  · rintro ⟨more, content, hat, hget, hwalked⟩
    cases more with
    | nil =>
      rw [hat, List.append_nil, hfolder] at hget
      exact absurd hget nofun
    | cons n more =>
      obtain ⟨-, hn, hrest⟩ := hwalked
      rw [Path.child_descend] at hrest
      exact ⟨n, mem_namesWalked_iff.mpr hn, more, content,
        by rw [hat, List.append_assoc names]; rfl, hget, hrest⟩
  · rintro ⟨n, hn, more, content, hat, hget, hwalked⟩
    rw [← Path.child_descend] at hwalked
    exact ⟨n :: more, content, by rw [hat, List.append_assoc names]; rfl, hget, hkept,
      mem_namesWalked_iff.mp hn, hwalked⟩

/-- No folder is created, since each one is there. -/
theorem empties_createFolders (hwork : d.locate a.workPath = .ok place) (htext : a.folder.text ≠ "")
    (hnames : ∀ n ∈ names, (Component.name n).IsStep)
    (hsome : (d.tree.get? (place ++ names)).isSome) :
    Empties d (change (targetOf a (a.folder.descend names))
      (·.createFolders (targetOf a (a.folder.descend names)))) fun _ => False := by
  refine empties_change fun e e' he hcreate => ?_
  obtain rfl : e' = e := by
    refine Disk.createFolders_eq_self (fun cs hcs hne => ?_) hcreate
    rw [components_targetOf htext hnames] at hcs
    rcases Path.prefix_or_of_prefix_append_named hcs with hcs | ⟨above, ⟨more, rfl⟩, rfl⟩
    · refine Disk.isSome_of_locate ((he.locate_eq _).trans hwork) ?_ hcs hne
      rw [he.isSome_eq]
      exact FileTree.isSome_get?_of_append hsome
    · rw [he.isSome_eq, he.cwd_eq, Disk.landing_append_named, ← Disk.landing_of_locate hwork]
      rw [← List.append_assoc] at hsome
      exact FileTree.isSome_get?_of_append hsome
  exact ⟨.refl e', fun _ h => h.elim, fun _ _ _ => id⟩

/-- What is copied from a folder is copied from the children that the walk comes to. -/
theorem empties_folder {depth : Nat} {children : List (String × FileTree)} (hnamed : d.tree.IsNamed)
    (hwork : d.locate a.workPath = .ok place) (htext : a.folder.text ≠ "")
    (hnames : ∀ n ∈ names, (Component.name n).IsStep)
    (hsource : d.locate (a.folder.descend names) = .ok (place ++ names))
    (hchildren : d.tree.get? (place ++ names) = some (.folder children))
    (hkept : isLeftOut d a (a.folder.descend names) = false)
    (hrest : ∀ {names : List String}, (∀ n ∈ names, (Component.name n).IsStep) →
      Empties d (copyFrom depth a (a.folder.descend names)) (IsCopied d a place names)) :
    Empties d (change (targetOf a (a.folder.descend names))
      (·.createFolders (targetOf a (a.folder.descend names))) >>= fun _ =>
        get >>= fun d => (namesWalked d a (a.folder.descend names)).forM fun name =>
          copyFrom depth a ((a.folder.descend names).child name)) (IsCopied d a place names) := by
  have hsome : (d.tree.get? (place ++ names)).isSome := by rw [hchildren]; rfl
  have hcopied : Empties d (get >>= fun d => (namesWalked d a (a.folder.descend names)).forM
      fun name => copyFrom depth a ((a.folder.descend names).child name))
        (IsCopied d a place names) := by
    refine empties_get_bind fun e he => ?_
    rw [namesWalked_eq he]
    have hall : ∀ n ∈ namesWalked d a (a.folder.descend names), Empties d
        (copyFrom depth a ((a.folder.descend names).child n)) (IsCopied d a place (names ++ [n])) := by
      intro n hn
      have hthere := isSome_of_mem_namesIn hsource (mem_namesIn_of_mem_namesWalked hn)
      rw [Path.child_descend]
      refine hrest fun m hm => hnamed.isStep_of_get? hthere m ?_
      rw [List.append_assoc]
      exact List.mem_append_right _ hm
    exact (empties_forM hall).congr (fun q => isCopied_iff_of_folder hchildren hkept) e he
  exact ((empties_createFolders hwork htext hnames hsome).bind hcopied).congr fun q =>
    iff_of_eq (false_or _).symm

/-- A file that is copied over itself is emptied, and no other one is. -/
theorem empties_file {old : Content} (hfolder : d.locate a.folder = .ok place)
    (hwork : d.locate a.workPath = .ok place) (htext : a.folder.text ≠ "")
    (hnames : ∀ n ∈ names, (Component.name n).IsStep)
    (hold : d.tree.get? (place ++ names) = some (.file old))
    (hkept : isLeftOut d a (a.folder.descend names) = false) :
    Empties d (change (targetOf a (a.folder.descend names))
      (·.copyFile (a.folder.descend names) (targetOf a (a.folder.descend names))))
        (IsCopied d a place names) := by
  have hcopied : ∀ q, IsCopied d a place names q ↔ q = place ++ names := fun q =>
    isCopied_iff_of_file hold hkept
  refine empties_change fun e e' he hcopy => ?_
  have hsource : Disk.landing d.cwd (a.folder.descend names).components = place ++ names := by
    rw [Path.components_descend htext hnames, Disk.landing_append_named,
      ← Disk.landing_of_locate hfolder]
  have htarget : Disk.landing d.cwd (targetOf a (a.folder.descend names)).components =
      place ++ names := by
    rw [components_targetOf htext hnames, Disk.landing_append_named,
      ← Disk.landing_of_locate hwork]
  rw [← he.cwd_eq] at hsource htarget
  obtain ⟨hwipes, hempty, hstays⟩ := Disk.wipesAt_copyFile (htarget.trans hsource.symm) hcopy
  rw [hsource] at hempty hstays
  refine ⟨hwipes, fun q hq => ?_, fun q content hq => hstays q content fun heq => ?_⟩
  · rw [(hcopied q).mp hq, hempty]
  · exact hq ((hcopied q).mpr heq)

section

variable (hnamed : d.tree.IsNamed) (hfolder : d.locate a.folder = .ok place)
  (hwork : d.locate a.workPath = .ok place) (htext : a.folder.text ≠ "")
include hnamed hfolder hwork htext

/-- An app whose work path leads to its own folder is copied over itself. -/
theorem empties_copyFrom (depth : Nat) (hnames : ∀ n ∈ names, (Component.name n).IsStep) :
    Empties d (copyFrom depth a (a.folder.descend names)) (IsCopied d a place names) := by
  have hplace := Disk.landing_of_locate hfolder
  induction depth generalizing names with
  | zero => exact empties_get_bind fun e _ => emptiesFrom_throw _
  | succ depth ih =>
    rw [copyFrom_succ]
    refine empties_get_bind fun e he => ?_
    split
    · exact emptiesFrom_throw _
    next u hfind =>
    obtain ⟨at', hlocate, hu⟩ := Disk.find_eq_ok_iff.mp hfind
    -- Files have been emptied on the way here, but paths still lead where they did.
    have hat := Disk.locate_descend htext hnames hlocate
    rw [he.cwd_eq, ← hplace] at hat
    subst hat
    split
    · next hleft =>
      refine emptiesFrom_pure fun q ⟨more, content, _, _, hwalked⟩ => ?_
      have hself := hwalked.isLeftOut_eq_false
      rw [← isLeftOut_eq he, hleft] at hself
      exact absurd hself (by decide)
    next hkept =>
    rw [isLeftOut_eq he, Bool.not_eq_true] at hkept
    cases u with
    | folder children =>
      obtain ⟨children', hchildren⟩ :=
        Disk.exists_folder_of_names?_eq (he.names?_eq _).symm ⟨children, hu⟩
      have hsource := (he.locate_eq _).symm.trans hlocate
      exact empties_folder hnamed hwork htext hnames hsource hchildren hkept ih e he
    | file old =>
      obtain ⟨old', hold'⟩ := Disk.exists_file_of_names?_eq (he.names?_eq _).symm ⟨old, hu⟩
      exact empties_file hfolder hwork htext hnames hold' hkept e he

end

end

/-! ## The work folder and the app -/

/-- **What preparing a work folder does to the app depends on how the two paths are spelled.** The
app's folder stays as it is, whether the preparation succeeds or fails, if the two paths have the same
components or the folders keep out of each other's way. If the paths lead to one folder but are
spelled otherwise, a preparation that succeeds has emptied the files of the app that the walk through it
comes to: all but those in folders that are left out and, where the build path is a file of the app, this
one and those that its folder lists behind it. -/
theorem prepareWorkFolder_app {d d' : Disk} {a : App} {result : Except BuildError Unit}
    (hnamed : d.tree.IsNamed) (hrun : (prepareWorkFolder a).run.run d = (result, d')) :
    (a.workPath.same a.folder = true ∨ KeepsApart d a →
      d'.tree.get? (Disk.landing d.cwd a.folder.components) =
        d.tree.get? (Disk.landing d.cwd a.folder.components)) ∧
    (a.workPath.same a.folder = false → ∀ place, d.locate a.folder = .ok place →
      d.locate a.workPath = .ok place → result = .ok () →
      ∀ names content, d.tree.get? (place ++ names) = some (.file content) →
        d'.tree.get? (place ++ names) =
          some (if IsWalked d a a.folder names then Disk.emptyFile else .file content)) := by
  constructor
  · intro h
    have hkeeps := prepareWorkFolder_keeps_app hnamed h
    rwa [hrun] at hkeeps
  · intro hsame place hfolder hwork hok names content hfile
    have hcopy : (copyFrom (Disk.longestPath + 1) a (a.folder.descend [])).run.run d =
        (result, d') := by
      rw [← hrun, prepareWorkFolder, hsame]
      rfl
    have hsome : (d.tree.get? (place ++ names)).isSome := by rw [hfile]; rfl
    obtain ⟨t, ht⟩ := Option.isSome_iff_exists.mp (FileTree.isSome_get?_of_append hsome)
    have htext : a.folder.text ≠ "" :=
      Disk.text_ne_empty_of_find (Disk.find_eq_ok_iff.mpr ⟨place, hfolder, ht⟩)
    obtain ⟨-, hempty, hstays⟩ := empties_copyFrom hnamed hfolder hwork htext
      (Disk.longestPath + 1) (List.forall_mem_nil _) d (.refl d)
    rw [hcopy] at hempty hstays
    split
    · next hwalked => exact hempty hok _ ⟨names, content, rfl, hfile, hwalked⟩
    · next hwalked =>
      refine hstays _ content (fun hcopied => hwalked ?_) hfile
      obtain ⟨more, _, hat, _, hmore⟩ := hcopied
      rwa [List.append_cancel_left hat]

/-- A folder with the source of an app. -/
def sourceDisk : Disk where
  tree := .folder [("a", .folder [("main.c", .file (.text "int x;"))])]
  cwd := []

/-- The app in that folder, with a work folder. -/
def sourceApp (workDir : String) : App :=
  { folder := ⟨"a"⟩, target := "esp32", workDir := some workDir }

theorem isNamed_sourceDisk : sourceDisk.tree.IsNamed :=
  .folder (by decide) (List.forall_mem_singleton.mpr
    (.folder (by decide) (List.forall_mem_singleton.mpr (.file _))))

/-- The same folder with a file at the build path, which it lists first. -/
def builtDisk : Disk where
  tree := .folder [("a", .folder [("build", .file (.text "")), ("main.c", .file (.text "int x;"))])]
  cwd := []

theorem isNamed_builtDisk : builtDisk.tree.IsNamed :=
  .folder (by decide) (List.forall_mem_singleton.mpr
    (.folder (by decide) (List.forall_mem_cons.mpr
      ⟨.file _, List.forall_mem_singleton.mpr (.file _)⟩)))

/-- The work folder has its place beside the app. -/
theorem keepsApart_sourceApp : KeepsApart sourceDisk (sourceApp "out") := by
  have hfolder : Disk.landing sourceDisk.cwd (sourceApp "out").folder.components = ["a"] := by
    decide +kernel
  have hwork : (sourceApp "out").workPath.components = [.name "out"] := by decide +kernel
  constructor
  · intro cs hcs hne hway
    rw [hfolder] at hway
    rw [hwork, List.prefix_cons_iff] at hcs
    obtain ⟨more, rfl, hmore⟩ := hcs.resolve_left hne
    obtain rfl := List.prefix_nil.mp hmore
    exact absurd hway (by decide +kernel)
  · intro names _ hcopy
    rw [hfolder, hwork] at hcopy
    exact absurd (List.cons_prefix_cons.mp hcopy).1 (by decide)

/-- Only where the paths lead to one folder is something emptied, and not behind the file at the build
path. -/
theorem prepareWorkFolder_app_sample :
    ((prepareWorkFolder (sourceApp "out")).run.run sourceDisk).2.tree.get? ["a"] =
        sourceDisk.tree.get? ["a"] ∧
      ((prepareWorkFolder (sourceApp "./a")).run.run sourceDisk).2.tree.get? ["a", "main.c"] =
        some Disk.emptyFile ∧
      ((prepareWorkFolder (sourceApp "./a")).run.run builtDisk).2.tree.get? ["a", "main.c"] =
        some (.file (.text "int x;")) := by
  refine ⟨?_, ?_, ?_⟩
  · exact (prepareWorkFolder_app isNamed_sourceDisk rfl).1 (Or.inr keepsApart_sourceApp)
  · have hsource : sourceDisk.locate (sourceApp "./a").folder = .ok ["a"] :=
      eq_ok_of_toOption (by decide +kernel)
    have hwork : sourceDisk.locate (sourceApp "./a").workPath = .ok ["a"] :=
      eq_ok_of_toOption (by decide +kernel)
    have hok : ((prepareWorkFolder (sourceApp "./a")).run.run sourceDisk).1 = .ok () :=
      eq_ok_of_toOption (by decide +kernel)
    have hwalked : IsWalked sourceDisk (sourceApp "./a") (sourceApp "./a").folder ["main.c"] := by
      decide +kernel
    have h := (prepareWorkFolder_app isNamed_sourceDisk rfl).2 (by decide +kernel) ["a"] hsource
      hwork hok ["main.c"] (.text "int x;") rfl
    rwa [if_pos hwalked] at h
  · have hsource : builtDisk.locate (sourceApp "./a").folder = .ok ["a"] :=
      eq_ok_of_toOption (by decide +kernel)
    have hwork : builtDisk.locate (sourceApp "./a").workPath = .ok ["a"] :=
      eq_ok_of_toOption (by decide +kernel)
    have hok : ((prepareWorkFolder (sourceApp "./a")).run.run builtDisk).1 = .ok () :=
      eq_ok_of_toOption (by decide +kernel)
    have hwalked : ¬ IsWalked builtDisk (sourceApp "./a") (sourceApp "./a").folder ["main.c"] := by
      decide +kernel
    have h := (prepareWorkFolder_app isNamed_builtDisk rfl).2 (by decide +kernel) ["a"] hsource
      hwork hok ["main.c"] (.text "int x;") rfl
    rwa [if_neg hwalked] at h

/-- The work path leads to the app's folder and is spelled otherwise: the app loses its source. -/
theorem source_lost_to_own_folder :
    sourceDisk.absolute (sourceApp "./a").workPath = sourceDisk.absolute (sourceApp "./a").folder ∧
      (sourceDisk.readText ⟨"a/main.c"⟩).toOption = some "int x;" ∧
      (((prepareWorkFolder (sourceApp "./a")).run.run sourceDisk).2.readText
        ⟨"a/main.c"⟩).toOption = some "" := by
  decide +kernel

end BuildMatrix.Build
