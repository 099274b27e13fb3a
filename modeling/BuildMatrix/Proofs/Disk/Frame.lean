import BuildMatrix.Proofs.Disk.Writing
import BuildMatrix.Proofs.Outcome
import BuildMatrix.Proofs.Path.Place
import BuildMatrix.Proofs.Path.Written

/-!
# What changes leave alone

A path leads to one place at most, whatever is on the disk, and what is written through it changes that
place only. So a tree stays as it is while nothing is written at places in it, and while folders are
created only where it has something already.

* `Disk.landing`: where components lead from the current folder.
* `Disk.landing_of_locate`: the place that a path names is the one that its components lead to.
* `FileTree.get?_put_outside`: a tree with something put outside of it.
* `Disk.Has`: a disk with a tree at a place.
* `Disk.Has.copyFile`, `Disk.Has.createFolders`: changes that leave it there.
-/

namespace BuildMatrix

namespace FileTree

variable {t c new : FileTree} {place at' : List String}

/-- What is at a place that goes on from another one. -/
theorem get?_append (t : FileTree) (ns ms : List String) :
    t.get? (ns ++ ms) = (t.get? ns).bind fun c => c.get? ms := by
  induction ns generalizing t with
  | nil => rfl
  | cons n ns ih =>
    rw [List.cons_append, get?_cons, get?_cons]
    cases t.children.lookup n with
    | none => rfl
    | some c => exact ih c

theorem isSome_get?_of_append {ns ms : List String} (h : (t.get? (ns ++ ms)).isSome) :
    (t.get? ns).isSome := by
  rw [get?_append] at h
  exact Option.isSome_of_isSome_bind h

/-- A tree stays as it is when something that is no folder is replaced outside of it. -/
theorem get?_put_outside (h : t.get? place = some c) (hplace : ¬ place <+: at')
    (hfolder : ∀ cs, t.get? at' ≠ some (folder cs)) : (t.put at' new).get? place = some c := by
  induction at' generalizing t place with
  | nil =>
    cases t with
    | folder cs => exact absurd rfl (hfolder cs)
    | file content =>
      cases place with
      | nil => exact absurd List.nil_prefix hplace
      | cons n ns => exact absurd h nofun
  | cons m ms ih =>
    cases place with
    | nil => exact absurd List.nil_prefix hplace
    | cons n ns =>
      cases t with
      | file content => exact absurd h nofun
      | folder cs =>
        rw [get?_cons, children] at h
        obtain ⟨e, he, hget⟩ := Option.bind_eq_some_iff.mp h
        by_cases hn : n = m
        · subst hn
          have hplace' : ¬ ns <+: ms := fun hstarts =>
            hplace (List.cons_prefix_cons.mpr ⟨rfl, hstarts⟩)
          have hfolder' : ∀ ds, e.get? ms ≠ some (folder ds) := fun ds hds =>
            hfolder ds (by rw [get?_cons, children, he]; exact hds)
          have hrest := ih hget hplace' hfolder'
          rw [get?_cons, lookup_put_self he]
          exact hrest
        · rw [get?_cons, lookup_put_of_ne hn, he]
          exact hget

end FileTree

namespace Disk

variable {d d' : Disk} {p q : Path} {place : List String}

/-! ## Where paths lead -/

/-- The place that components lead to from the current folder, if every place on the way is a
folder. -/
def landing (cwd : List String) (cs : List Component) : List String :=
  (cs.foldl Component.move cwd.reverse).reverse

theorem landing_nil (cwd : List String) : landing cwd [] = cwd :=
  List.reverse_reverse cwd

theorem landing_append (cwd : List String) (cs ds : List Component) :
    landing cwd (cs ++ ds) = landing (landing cwd cs) ds := by
  rw [landing, landing, landing, List.foldl_append, List.reverse_reverse]

theorem landing_named (cwd names : List String) :
    landing cwd (names.map Component.name) = cwd ++ names := by
  induction names generalizing cwd with
  | nil => rw [List.map_nil, landing_nil, List.append_nil]
  | cons n names ih =>
    have hone : landing cwd [.name n] = cwd ++ [n] := by simp [landing, Component.move]
    rw [List.map_cons, ← List.singleton_append, landing_append, hone, ih, List.append_assoc,
      List.singleton_append]

theorem step_eq_landing (place : List String) (piece : List Char) :
    step place piece = landing place (Component.ofPiece? piece).toList := by
  rw [step]
  cases hpiece : Component.ofPiece? piece with
  | none => exact (landing_nil place).symm
  | some c =>
    have hpiece' := Component.toList_render_of_ofPiece? hpiece
    cases c with
    | root => subst hpiece'; exact absurd hpiece (by decide)
    | current => subst hpiece'; exact absurd hpiece (by decide)
    | parent => simp [landing, Component.move]
    | name s => simp [landing, Component.move]

theorem follow_eq {t : FileTree} {start : List String} {pieces : List (List Char)}
    (h : follow t start pieces = .ok place) :
    place = landing start (pieces.filterMap Component.ofPiece?) := by
  induction pieces generalizing start with
  | nil =>
    rw [← Except.ok.inj h, List.filterMap_nil, landing_nil]
  | cons piece pieces ih =>
    rw [ih (follow_cons_eq_ok_iff.mp h).2, step_eq_landing, ← landing_append]
    cases hpiece : Component.ofPiece? piece with
    | none => rw [List.filterMap_cons_none hpiece]; rfl
    | some c => rw [List.filterMap_cons_some hpiece]; rfl

/-- The place that a path names is the one that its components lead to. -/
theorem landing_of_locate (h : d.locate p = .ok place) : place = landing d.cwd p.components := by
  rw [follow_eq (locate_eq_ok_iff.mp h).2.2.2, p.components_eq_bodyPieces, landing_append]
  congr 1
  rcases p.start?_cases with habsolute | ⟨hrelative, hstart | hstart⟩
  · rw [if_pos habsolute, Path.start?_of_isAbsolute habsolute]
    rfl
  · rw [hrelative, hstart]
    exact (landing_nil d.cwd).symm
  · rw [hrelative, hstart]
    exact (landing_nil d.cwd).symm

/-- What a path names is at the place that it names. -/
theorem find_eq_ok_iff {t : FileTree} :
    d.find p = .ok t ↔ ∃ place, d.locate p = .ok place ∧ d.tree.get? place = some t := by
  constructor
  · intro h
    rw [find] at h
    split at h
    · cases h
    next place hplace =>
    split at h
    · next u hu => exact ⟨place, hplace, Except.ok.inj h ▸ hu⟩
    · cases h
  · rintro ⟨place, hplace, ht⟩
    simp only [find, hplace, ht]

theorem components_ne_nil_of_createFolder (h : d.createFolder p = .ok d') : p.components ≠ [] := by
  intro hnil
  have hempty : (withoutTail p).text = "" := Decidable.byContradiction fun hne =>
    Path.components_ne_nil hne ((Path.components_withoutTail p).trans hnil)
  have hlocate : d.locate (withoutTail p) = .error .notFound := by
    rw [locate, hempty]
    rfl
  rw [createFolder, hlocate] at h
  cases h

/-! ## Changes elsewhere -/

/-- A disk with its current folder at a place and a tree at another one. -/
structure Has (cwd place : List String) (t : FileTree) (d : Disk) : Prop where
  cwd_eq : d.cwd = cwd
  get?_eq : d.tree.get? place = some t

/-- Whether a tree at `place` has something at another place if that lies in it. -/
def IsThere (place : List String) (t : FileTree) (at' : List String) : Prop :=
  ∀ rest, at' = place ++ rest → (t.get? rest).isSome

namespace Has

variable {cwd at' : List String} {t new : FileTree} {change : Option Content → Content}

theorem get?_append (h : Has cwd place t d) (names : List String) :
    d.tree.get? (place ++ names) = t.get? names := by
  rw [FileTree.get?_append, h.get?_eq]
  rfl

theorem put (h : Has cwd place t d) (hplace : ¬ place <+: at')
    (hfolder : ∀ cs, d.tree.get? at' ≠ some (.folder cs)) :
    Has cwd place t { d with tree := d.tree.put at' new } :=
  ⟨h.cwd_eq, FileTree.get?_put_outside h.get?_eq hplace hfolder⟩

theorem writeContent (h : Has cwd place t d) (hp : ¬ place <+: landing cwd p.components)
    (hwrite : d.writeContent p change = .ok d') : Has cwd place t d' := by
  obtain ⟨at', c, hlocate, hfolder, -, rfl⟩ := exists_put_of_writeContent hwrite
  rw [← h.cwd_eq, ← landing_of_locate hlocate] at hp
  exact h.put hp hfolder

/-- A file that is copied to a place outside of a tree leaves the tree as it is. -/
theorem copyFile (h : Has cwd place t d) (hq : ¬ place <+: landing cwd q.components)
    (hcopy : d.copyFile p q = .ok d') : Has cwd place t d' := by
  rw [Disk.copyFile] at hcopy
  split at hcopy
  · exact absurd hcopy nofun
  · exact absurd hcopy nofun
  · obtain ⟨emptied, hemptied, hcopy⟩ := bind_eq_ok_iff.mp hcopy
    have hemptied := h.writeContent hq hemptied
    split at hcopy
    · exact hemptied.writeContent hq hcopy
    · exact Except.ok.inj hcopy ▸ hemptied

/-- A folder is created only where there is nothing. -/
theorem createFolder (h : Has cwd place t d)
    (hp : p.components ≠ [] → IsThere place t (landing cwd p.components))
    (hcreate : d.createFolder p = .ok d') : Has cwd place t d' := by
  have hp := hp (components_ne_nil_of_createFolder hcreate)
  rw [Disk.createFolder] at hcreate
  split at hcreate
  · exact absurd hcreate nofun
  next at' hlocate =>
  have hat := landing_of_locate hlocate
  rw [Path.components_withoutTail, h.cwd_eq] at hat
  split at hcreate
  · exact absurd hcreate nofun
  · next hnone _ =>
    rw [← Except.ok.inj hcreate]
    refine h.put ?_ fun cs hcs => absurd (hnone.symm.trans hcs) nofun
    rintro ⟨rest, rfl⟩
    have hsome := hp rest hat.symm
    rw [← h.get?_append, hnone] at hsome
    exact absurd hsome (by decide)
  · exact absurd hcreate nofun
  · exact absurd hcreate nofun

theorem createFoldersWithin {depth : Nat} (h : Has cwd place t d)
    (hp : ∀ cs, cs <+: p.components → cs ≠ [] → IsThere place t (landing cwd cs))
    (hcreate : Disk.createFoldersWithin depth d p = .ok d') : Has cwd place t d' := by
  induction depth generalizing d d' p with
  | zero => exact h.createFolder (hp _ List.prefix_rfl) hcreate
  | succ depth ih =>
    have hself := hp _ List.prefix_rfl
    rw [Disk.createFoldersWithin] at hcreate
    split at hcreate
    · exact Except.ok.inj hcreate ▸ h
    split at hcreate
    · next created hcreated =>
      exact Except.ok.inj hcreate ▸ h.createFolder hself hcreated
    · split at hcreate
      · exact absurd hcreate nofun
      next q hq =>
      split at hcreate
      · exact absurd hcreate nofun
      next around haround =>
      -- What is on the way to the folder around is on the way to the folder.
      have hway : ∀ cs, cs <+: q.components → cs ≠ [] → IsThere place t (landing cwd cs) :=
        fun cs hcs => hp cs (hcs.trans (Path.components_parent? hq))
      have haround : Has cwd place t around := ih h hway haround
      split at hcreate
      · next created hcreated =>
        exact Except.ok.inj hcreate ▸ haround.createFolder hself hcreated
      · split at hcreate
        · exact Except.ok.inj hcreate ▸ haround
        · exact absurd hcreate nofun
    · split at hcreate
      · exact Except.ok.inj hcreate ▸ h
      · exact absurd hcreate nofun

/-- Folders that are created on the way of a path leave a tree as it is, if that has something
wherever the way leads through it. -/
theorem createFolders (h : Has cwd place t d)
    (hp : ∀ cs, cs <+: p.components → cs ≠ [] → IsThere place t (landing cwd cs))
    (hcreate : d.createFolders p = .ok d') : Has cwd place t d' :=
  h.createFoldersWithin hp hcreate

end Has

end Disk

end BuildMatrix
