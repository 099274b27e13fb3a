import BuildMatrix.Disk.Basic

/-!
# Reading what was written

A text that was written to a file is the text that the same path reads afterwards.

* `FileTree.get?_put_self`: what is put at a place that has a folder around it is found there.
* `FileTree.get?_put_folder`: folders stay folders when a file is put somewhere.
* `Disk.readText_of_writeText`: the path of a written file leads to the written text.
-/

namespace BuildMatrix

namespace FileTree

/-! ## Children -/

variable {name n : String} {f : Option FileTree → Option FileTree}

/-- The child that is changed, where a change never takes a child away. -/
theorem lookup_alterChild_self (hf : ∀ c, (f (some c)).isSome) (cs : List (String × FileTree)) :
    (alterChild name f cs).lookup name = f (cs.lookup name) := by
  induction cs with
  | nil =>
    rw [alterChild, List.lookup_nil]
    cases f none <;> simp
  | cons x cs ih =>
    obtain ⟨m, c⟩ := x
    rw [alterChild]
    by_cases hm : name = m
    · subst hm
      obtain ⟨d, hd⟩ := Option.isSome_iff_exists.mp (hf c)
      simp [hd, List.lookup_cons_self]
    · have hbeq : (name == m) = false := beq_eq_false_iff_ne.mpr hm
      have hskip : ((m, c) :: cs).lookup name = cs.lookup name := by
        rw [List.lookup_cons, hbeq]
      rw [if_neg hm, hskip]
      split
      · next h =>
        rw [h.2]
        cases hnone : f none with
        | none => simpa [hskip] using h.2
        | some d => simp
      · rw [List.lookup_cons, hbeq]
        exact ih

theorem lookup_alterChild_of_ne (h : n ≠ name) (cs : List (String × FileTree)) :
    (alterChild name f cs).lookup n = cs.lookup n := by
  have hbeq : (n == name) = false := beq_eq_false_iff_ne.mpr h
  have hnew : ∀ (o : Option FileTree) (ds : List (String × FileTree)),
      (o.toList.map (name, ·) ++ ds).lookup n = ds.lookup n := by
    intro o ds
    cases o <;> simp [List.lookup_cons, hbeq]
  induction cs with
  | nil => simpa [alterChild] using hnew (f none) []
  | cons x cs ih =>
    obtain ⟨m, c⟩ := x
    rw [alterChild]
    split
    · next hm => rw [hnew, ← hm, List.lookup_cons, hbeq]
    · split
      · exact hnew _ _
      · rw [List.lookup_cons, List.lookup_cons, ih]

/-! ## Places -/

variable {t new : FileTree} {place : List String}

theorem get?_cons (t : FileTree) (n : String) (ns : List String) :
    t.get? (n :: ns) = (t.children.lookup n).bind fun c => c.get? ns := by
  rw [get?]
  cases t.children.lookup n <;> rfl

theorem get?_file_cons (content : Content) (ns : List String) :
    (file content).get? (n :: ns) = none := rfl

/-- What is put further down is put into a child. -/
theorem lookup_put_self {cs : List (String × FileTree)} {c : FileTree} (h : cs.lookup n = some c)
    (ns : List String) :
    ((folder cs).put (n :: ns) new).children.lookup n = some (c.put ns new) := by
  cases ns with
  | nil => exact lookup_alterChild_self (fun _ => rfl) cs
  | cons m ms => exact (lookup_alterChild_self (fun _ => rfl) cs).trans (by rw [h]; rfl)

theorem lookup_put_of_ne {m : String} (h : n ≠ m) (cs : List (String × FileTree))
    (ms : List String) : ((folder cs).put (m :: ms) new).children.lookup n = cs.lookup n := by
  cases ms <;> exact lookup_alterChild_of_ne h cs

/-- What is put at a place is found there, if there is something already or a folder to put it
into. -/
theorem get?_put_self
    (h : (t.get? place).isSome ∨ ∃ cs, t.get? place.dropLast = some (folder cs)) :
    (t.put place new).get? place = some new := by
  induction place generalizing t with
  | nil => rfl
  | cons n ns ih =>
    cases t with
    | file content =>
      rcases h with h | ⟨cs, h⟩
      · exact absurd h (by simp [get?_file_cons])
      · cases ns with
        | nil => exact absurd h (by simp [get?])
        | cons m ms => exact absurd h (by simp [get?_file_cons])
    | folder cs =>
      cases ns with
      | nil =>
        show ((folder _).get? [n]) = _
        rw [get?_cons, children, lookup_alterChild_self (fun _ => rfl)]
        rfl
      | cons m ms =>
        -- the way goes on through a child, which is there in both cases
        have hchild : ∃ c, cs.lookup n = some c ∧
            ((c.get? (m :: ms)).isSome ∨ ∃ ds, c.get? (m :: ms).dropLast = some (folder ds)) := by
          rw [List.dropLast_cons_of_ne_nil (List.cons_ne_nil m ms), get?_cons, get?_cons] at h
          simp only [children] at h
          cases hc : cs.lookup n with
          | none => rw [hc] at h; simp at h
          | some c => rw [hc] at h; exact ⟨c, rfl, h⟩
        obtain ⟨c, hc, hplace⟩ := hchild
        rw [get?_cons, lookup_put_self hc]
        exact ih hplace

/-- Folders stay folders when something is put at a place where no folder is. -/
theorem get?_put_folder (hplace : ∀ cs, t.get? place ≠ some (folder cs)) {q : List String}
    {cs : List (String × FileTree)} (h : t.get? q = some (folder cs)) :
    ∃ ds, (t.put place new).get? q = some (folder ds) := by
  induction place generalizing t q with
  | nil =>
    cases t with
    | folder ds => exact absurd rfl (hplace ds)
    | file content => cases q <;> simp [get?, children] at h
  | cons n ns ih =>
    cases t with
    | file content => cases q <;> simp [get?, children] at h
    | folder ds =>
      cases q with
      | nil => cases ns <;> exact ⟨_, rfl⟩
      | cons m ms =>
        rw [get?_cons, children] at h
        obtain ⟨c, hc, hget⟩ := Option.bind_eq_some_iff.mp h
        -- The two places go on in the same child, or they part here.
        by_cases hm : m = n
        · subst hm
          cases ns with
          | nil =>
            have hfile : ∀ es, c ≠ folder es := fun es hes =>
              hplace es (by rw [get?_cons, children, hc, hes]; rfl)
            cases c with
            | folder es => exact absurd rfl (hfile es)
            | file content => cases ms <;> simp [get?, children] at hget
          | cons k ks =>
            have hc' : ∀ es, c.get? (k :: ks) ≠ some (folder es) := fun es hes =>
              hplace es (by rw [get?_cons, children, hc]; exact hes)
            obtain ⟨es, hes⟩ := ih hc' hget
            refine ⟨es, ?_⟩
            rw [get?_cons, lookup_put_self hc]
            exact hes
        · refine ⟨cs, ?_⟩
          rw [get?_cons, lookup_put_of_ne hm, hc]
          exact hget

end FileTree

namespace Disk

/-- A path goes on from folders only. -/
theorem follow_cons_eq_ok_iff {t : FileTree} {start goal : List String} {piece : List Char}
    {pieces : List (List Char)} :
    follow t start (piece :: pieces) = .ok goal ↔
      (∃ cs, t.get? start = some (.folder cs)) ∧ follow t (step start piece) pieces = .ok goal := by
  rw [follow]
  split
  · next h => simp [h]
  · next h => simp [h]
  · next cs h => simp [h]

/-- Whether a path names a place depends on the disk only in where its pieces lead. -/
theorem locate_eq_ok_iff {d : Disk} {p : Path} {place : List String} :
    d.locate p = .ok place ↔
      ¬ p.text.isEmpty = true ∧ ¬ longestPath < p.text.utf8ByteSize ∧
        ¬ (p.bodyPieces.any fun piece => longestName < Text.byteLength piece) = true ∧
          follow d.tree (if p.isAbsolute then [] else d.cwd) p.bodyPieces = .ok place := by
  rw [locate]
  split
  · next h => simp [h]
  split
  · next h => simp [h]
  split
  · next h => simp only [h, not_true, false_and, and_false, reduceCtorEq]
  · next hempty hlong hname =>
    exact ⟨fun h => ⟨hempty, hlong, hname, h⟩, fun h => h.2.2.2⟩

/-- The way of a path is the same after a file is put at a place. -/
theorem follow_put {t new : FileTree} {place : List String}
    (hplace : ∀ cs, t.get? place ≠ some (.folder cs)) {start goal : List String}
    {pieces : List (List Char)} (h : follow t start pieces = .ok goal) :
    follow (t.put place new) start pieces = .ok goal := by
  induction pieces generalizing start with
  | nil => exact h
  | cons piece pieces ih =>
    obtain ⟨⟨cs, hcs⟩, hrest⟩ := follow_cons_eq_ok_iff.mp h
    exact follow_cons_eq_ok_iff.mpr ⟨FileTree.get?_put_folder hplace hcs, ih hrest⟩

theorem locate_put {d : Disk} {new : FileTree} {place : List String}
    (hplace : ∀ cs, d.tree.get? place ≠ some (.folder cs)) {p : Path}
    (h : d.locate p = .ok place) :
    locate { d with tree := d.tree.put place new } p = .ok place := by
  obtain ⟨hempty, hlong, hname, hfollow⟩ := locate_eq_ok_iff.mp h
  exact locate_eq_ok_iff.mpr ⟨hempty, hlong, hname, follow_put hplace hfollow⟩

theorem locate_of_locateFile {d : Disk} {p : Path} {place : List String}
    (h : d.locateFile p = .ok place) : d.locate p = .ok place := by
  rw [locateFile] at h
  split at h
  · exact h
  · next q _ =>
    split at h
    · exact absurd h (by simp)
    · cases hq : d.locate q <;> rw [hq] at h <;> exact absurd h (by simp [Except.bind])

/-- What was written through a path is put at the place that the path names, where there was no
folder, but something else or a folder around it. -/
theorem exists_put_of_writeContent {d d' : Disk} {p : Path} {change : Option Content → Content}
    (h : d.writeContent p change = .ok d') :
    ∃ place c, d.locate p = .ok place ∧ (∀ cs, d.tree.get? place ≠ some (.folder cs)) ∧
      ((d.tree.get? place).isSome ∨ ∃ cs, d.tree.get? place.dropLast = some (.folder cs)) ∧
      d' = { d with tree := d.tree.put place (.file (change c)) } := by
  rw [writeContent] at h
  split at h
  · exact absurd h nofun
  · next place hlocate =>
    split at h
    · exact absurd h nofun
    · next hget =>
      refine ⟨place, some _, locate_of_locateFile hlocate, ?_, Or.inl ?_, (Except.ok.inj h).symm⟩
      · rw [hget]
        exact fun _ => nofun
      · rw [hget]
        rfl
    · next cs hget hparent =>
      refine ⟨place, none, locate_of_locateFile hlocate, ?_, Or.inr ⟨cs, hparent⟩,
        (Except.ok.inj h).symm⟩
      rw [hget]
      exact fun _ => nofun
    · exact absurd h nofun
    · exact absurd h nofun

/-- What is at the place of a file that was written. -/
theorem exists_put_of_writeText {d d' : Disk} {p : Path} {s : String}
    (h : d.writeText p s = .ok d') :
    ∃ place, d.locate p = .ok place ∧ (∀ cs, d.tree.get? place ≠ some (.folder cs)) ∧
      d' = { d with tree := d.tree.put place (.file (.text s)) } ∧
      d'.tree.get? place = some (.file (.text s)) := by
  obtain ⟨place, c, hlocate, hfolder, haround, rfl⟩ := exists_put_of_writeContent h
  exact ⟨place, hlocate, hfolder, rfl, FileTree.get?_put_self haround⟩

/-- **Reading after writing.** The path of a written file reads the text that was written. -/
theorem readText_of_writeText {d d' : Disk} {p : Path} {s : String}
    (h : d.writeText p s = .ok d') : d'.readText p = .ok s := by
  obtain ⟨place, hlocate, hplace, hd', hget⟩ := exists_put_of_writeText h
  have hlocate' : d'.locate p = .ok place := hd' ▸ locate_put hplace hlocate
  rw [readText, find, hlocate']
  simp only [hget]

end Disk

end BuildMatrix
