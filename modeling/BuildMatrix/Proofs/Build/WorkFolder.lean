import BuildMatrix.Build.Folder
import BuildMatrix.Proofs.Disk.Names

/-!
# Copying an app to its work folder

Copying looks at the disk that it changes: what a folder holds is looked up when the folder is
reached, and copies may have come in by then. Copying leaves the app alone as long as none of the
copies has its place in the app's folder. What has to be known about the disk that has come so far is
then only that the app's folder is the one of the start, so that all that is copied is part of that.

* `Keeps`: a task keeps a property of the disk, with one lemma for each way to build a task.
* `components_targetOf`: where a file or folder of the app is copied to.
* `KeepsApart`: an app and its work folder keep out of each other's way.
* `prepareWorkFolder_keeps_app`: then preparing the work folder leaves the app as it is.
-/

namespace BuildMatrix.Build

/-! ## Running tasks -/

section

variable {α β : Type} {d d' : Disk} {task : DiskTask α} {next : α → DiskTask β} {p : Path}
  {f : Disk → Except DiskError Disk}

theorem run_bind_of_ok {x : α} (h : task.run.run d = (.ok x, d')) :
    (task >>= next).run.run d = (next x).run.run d' := by
  show (ExceptT.bindCont next (task.run.run d).1).run (task.run.run d).2 = _
  rw [h]
  rfl

theorem run_bind_of_error {e : BuildError} (h : task.run.run d = (.error e, d')) :
    (task >>= next).run.run d = (.error e, d') := by
  show (ExceptT.bindCont next (task.run.run d).1).run (task.run.run d).2 = _
  rw [h]
  rfl

theorem run_get_bind (next : Disk → DiskTask α) (d : Disk) :
    (get >>= next).run.run d = (next d).run.run d :=
  rfl

theorem run_change_of_ok (h : f d = .ok d') : (change p f).run.run d = (.ok (), d') := by
  rw [change, run_get_bind, h]
  rfl

theorem run_change_of_error {e : DiskError} (h : f d = .error e) :
    (change p f).run.run d = (.error (.prepare p e), d) := by
  rw [change, run_get_bind, h]
  rfl

end

/-! ## What a task keeps -/

/-- Whether a task keeps a property of the disk, also when it fails. -/
def Keeps {α : Type} (R : Disk → Prop) (task : DiskTask α) : Prop :=
  ∀ d, R d → R (task.run.run d).2

section

variable {α β : Type} {R : Disk → Prop}

theorem keeps_pure (x : α) : Keeps R (pure x) :=
  fun _ h => h

theorem keeps_bind {task : DiskTask α} {next : α → DiskTask β} (htask : Keeps R task)
    (hnext : ∀ x, Keeps R (next x)) : Keeps R (task >>= next) := by
  intro d hd
  have h := htask d hd
  rcases hrun : task.run.run d with ⟨result, d'⟩
  rw [hrun] at h
  cases result with
  | ok x =>
    rw [run_bind_of_ok hrun]
    exact hnext x d' h
  | error e =>
    rw [run_bind_of_error hrun]
    exact h

/-- A task that looks at the disk first. -/
theorem keeps_get_bind {next : Disk → DiskTask α} (h : ∀ d, R d → R ((next d).run.run d).2) :
    Keeps R (get >>= next) :=
  h

theorem keeps_change {p : Path} {f : Disk → Except DiskError Disk}
    (h : ∀ d d', R d → f d = .ok d' → R d') : Keeps R (change p f) := by
  intro d hd
  cases hf : f d with
  | ok d' =>
    rw [run_change_of_ok hf]
    exact h d d' hd hf
  | error e =>
    rw [run_change_of_error hf]
    exact hd

theorem keeps_forM {task : α → DiskTask PUnit} {xs : List α} (h : ∀ x ∈ xs, Keeps R (task x)) :
    Keeps R (xs.forM task) := by
  induction xs with
  | nil => exact keeps_pure _
  | cons x xs ih =>
    exact keeps_bind (h x List.mem_cons_self) fun _ => ih fun y hy => h y (List.mem_cons_of_mem _ hy)

end

/-! ## Places -/

section

variable {d : Disk} {a : App} {place : List String} {t : FileTree} {names : List String}

/-- The path that a file or folder of an app is copied to. -/
def targetOf (a : App) (source : Path) : Path :=
  a.workPath.join ((source.strip? a.folder).getD source)

/-- What is copied goes on from the work folder by the names that it goes on by from the app's
folder. -/
theorem components_targetOf (hfolder : a.folder.text ≠ "")
    (hnames : ∀ n ∈ names, (Component.name n).IsStep) :
    (targetOf a (a.folder.descend names)).components =
      a.workPath.components ++ Path.named names := by
  obtain ⟨rest, hrest, hrelative, hcomponents⟩ := Path.components_strip?
    (Path.components_ne_nil hfolder) (Path.components_descend hfolder hnames)
  rw [targetOf, hrest, Option.getD_some]
  by_cases hwork : a.workPath.text = ""
  · rw [Path.join_of_text_eq_empty hwork, Path.components_of_text_eq_empty hwork, hcomponents,
      List.nil_append]
  · rw [Path.components_join hwork hrelative, Path.steps_of_components_eq_named hcomponents]

/-- One level of copying: what is left out stays behind, and the rest is copied. -/
theorem copyFrom_succ (depth : Nat) (a : App) (source : Path) :
    copyFrom (depth + 1) a source = (get >>= fun d =>
      match d.find source with
      | .error e => (throw (.walk a.folder source e) : DiskTask Unit)
      | .ok t =>
        if isLeftOut d a source then pure ()
        else if t.isFolder then
          change (targetOf a source) (·.createFolders (targetOf a source)) >>= fun _ =>
            get >>= fun d => (namesWalked d a source).forM fun name =>
              copyFrom depth a (source.child name)
        else change (targetOf a source) (·.copyFile source (targetOf a source))) :=
  rfl

/-- The names of what a folder holds lead on to something. -/
theorem mem_namesIn_iff {source : Path} {n : String} : n ∈ namesIn d source ↔
    ∃ u, d.find source = .ok u ∧ (u.get? [n]).isSome := by
  rw [namesIn]
  cases d.find source with
  | error e => exact iff_of_false List.not_mem_nil fun ⟨u, hu, _⟩ => absurd hu nofun
  | ok u =>
    have hone : ∀ w : FileTree, (w.get? [n]).isSome ↔ n ∈ w.children.map Prod.fst := by
      intro w
      rw [FileTree.get?_cons]
      show ((w.children.lookup n).bind some).isSome ↔ _
      rw [Option.bind_fun_some, List.lookup_isSome_iff, List.mem_map]
      exact ⟨fun ⟨c, hc, hn⟩ => ⟨c, hc, (beq_iff_eq.mp hn).symm⟩,
        fun ⟨c, hc, hn⟩ => ⟨c, hc, beq_iff_eq.mpr hn.symm⟩⟩
    constructor
    · exact fun hn => ⟨u, rfl, (hone u).mpr hn⟩
    · rintro ⟨w, hw, hn⟩
      exact Except.ok.inj hw ▸ (hone w).mp hn

/-- The walk through a folder comes to nothing but what the folder holds. -/
theorem mem_namesIn_of_mem_namesWalked {source : Path} {n : String}
    (h : n ∈ namesWalked d a source) : n ∈ namesIn d source :=
  List.takeWhile_subset _ h

/-- Whether an app and its work folder keep out of each other's way: the way to the work folder
leads through the app's folder only where there is something already, and nothing of the app has its
place in the work folder within the app's folder. -/
structure KeepsApart (d : Disk) (a : App) : Prop where
  way : ∀ cs, cs <+: a.workPath.components → cs ≠ [] →
    Disk.landing d.cwd a.folder.components <+: Disk.landing d.cwd cs →
      (d.tree.get? (Disk.landing d.cwd cs)).isSome
  copies : ∀ names, (d.tree.get? (Disk.landing d.cwd a.folder.components ++ names)).isSome →
    ¬ Disk.landing d.cwd a.folder.components <+: Disk.landing d.cwd a.workPath.components ++ names

section

variable (h : KeepsApart d a)
  (ht : d.tree.get? (Disk.landing d.cwd a.folder.components) = some t)
include h ht

/-- No copy has its place in the app's folder. -/
theorem KeepsApart.not_copied (hsome : (t.get? names).isSome) :
    ¬ Disk.landing d.cwd a.folder.components <+:
      Disk.landing d.cwd (a.workPath.components ++ Path.named names) := by
  rw [Disk.landing_append_named]
  refine h.copies names ?_
  rwa [FileTree.get?_append, ht]

/-- The way to a copy leads through the app's folder only where there is something already. -/
theorem KeepsApart.isThere (hsome : (t.get? names).isSome) {cs : List Component}
    (hcs : cs <+: a.workPath.components ++ Path.named names) (hne : cs ≠ []) :
    Disk.IsThere (Disk.landing d.cwd a.folder.components) t (Disk.landing d.cwd cs) := by
  intro rest hrest
  rcases Path.prefix_or_of_prefix_append_named hcs with hwork | ⟨above, ⟨more, rfl⟩, rfl⟩
  · have hthere := h.way cs hwork hne ⟨rest, hrest.symm⟩
    rwa [hrest, FileTree.get?_append, ht] at hthere
  · exact absurd ⟨rest, hrest.symm⟩ (h.not_copied ht (FileTree.isSome_get?_of_append hsome))

/-- Copying leaves the app's folder as it is, as far as it comes. -/
theorem KeepsApart.keeps_copyFrom (hnamed : t.IsNamed) (hfolder : a.folder.text ≠ "") (depth : Nat)
    (hnames : ∀ n ∈ names, (Component.name n).IsStep) :
    Keeps (Disk.Has d.cwd (Disk.landing d.cwd a.folder.components) t)
      (copyFrom depth a (a.folder.descend names)) := by
  induction depth generalizing names with
  | zero => exact keeps_get_bind fun d' hd' => hd'
  | succ depth ih =>
    rw [copyFrom_succ]
    refine keeps_get_bind fun d' hd' => ?_
    split
    · exact hd'
    next u hfind =>
    -- What is found below the source is in the tree that has been kept so far.
    have hsome : (t.get? names).isSome := by
      rw [hd'.get?_of_find_descend hfolder hnames hfind]
      rfl
    have htarget := components_targetOf hfolder hnames
    split
    · exact hd'
    split
    · refine keeps_bind (keeps_change fun e e' he hcreate => ?_)
        (fun _ => keeps_get_bind fun e he => ?_) d' hd'
      · refine he.createFolders (fun cs hcs => h.isThere ht hsome ?_) hcreate
        rwa [htarget] at hcs
      · refine keeps_forM (fun n hn => ?_) e he
        obtain ⟨w, hw, hn⟩ := mem_namesIn_iff.mp (mem_namesIn_of_mem_namesWalked hn)
        have hget := he.get?_of_find_descend hfolder hnames hw
        rw [Path.child_descend]
        refine ih (hnamed.isStep_of_get? ?_)
        rwa [FileTree.get?_append, hget]
    · refine keeps_change (fun e e' he hcopy => he.copyFile ?_ hcopy) d' hd'
      rw [htarget]
      exact h.not_copied ht hsome

end

end

/-- **Preparing a work folder leaves the app as it is**, whether it succeeds or fails, if the work
path has the components of the app's folder, in which case nothing is copied, or if the two keep out of
each other's way. -/
theorem prepareWorkFolder_keeps_app {d : Disk} {a : App} (hnamed : d.tree.IsNamed)
    (h : a.workPath.same a.folder = true ∨ KeepsApart d a) :
    ((prepareWorkFolder a).run.run d).2.tree.get? (Disk.landing d.cwd a.folder.components) =
      d.tree.get? (Disk.landing d.cwd a.folder.components) := by
  rw [prepareWorkFolder]
  split
  · rfl
  next hsame =>
  have h := h.resolve_left hsame
  cases hfind : d.find a.folder with
  | error e =>
    have hstays : Keeps (· = d) (copyFrom (Disk.longestPath + 1) a a.folder) := by
      rw [copyFrom_succ]
      refine keeps_get_bind fun e he => ?_
      rw [he, hfind]
      rfl
    rw [hstays d rfl]
  | ok t =>
    obtain ⟨place, hplace, ht⟩ := Disk.find_eq_ok_iff.mp hfind
    have hlanding := Disk.landing_of_locate hplace
    subst hlanding
    have hkeeps := h.keeps_copyFrom ht (hnamed.get? ht) (Disk.text_ne_empty_of_find hfind)
      (Disk.longestPath + 1) (List.forall_mem_nil _)
    exact (hkeeps d ⟨rfl, ht⟩).get?_eq.trans ht.symm

end BuildMatrix.Build
