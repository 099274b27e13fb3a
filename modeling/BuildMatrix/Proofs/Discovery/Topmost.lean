import BuildMatrix.Proofs.Discovery.Repeats
import Mathlib.Data.List.Nodup
import Mathlib.Data.String.Basic

/-!
# The topmost apps

A recursive search walks through a folder, each folder before what is in it and siblings by their
names. It turns back at folders that are left out, at those that hold components of others and at
apps. What it finds are the topmost apps: no folder from the one that is searched down to the app is
closed to the search, and none above the app is an app.

* `FileTree.IsSorted`: the children of each folder are in the order of their names.
* `Discovery.IsTopmost`: the place of a topmost app.
* `Discovery.ListsPlaces`: paths that stand for places, each once and in the order of a walk.
* `Discovery.listsPlaces_appsAt`: a walk through a tree lists its topmost apps.
* `Discovery.finds_topmost_apps`: the folders that a recursive search finds.
-/

namespace BuildMatrix

/-! ## Places in a tree -/

/-- Whether the children of each folder of a tree are in the order of their names. -/
inductive FileTree.IsSorted : FileTree → Prop
  | file (content : Content) : IsSorted (.file content)
  | folder {children : List (String × FileTree)}
      (sorted : children.Pairwise fun a b => a.1 < b.1)
      (tree : ∀ c ∈ children, IsSorted c.2) : IsSorted (.folder children)

/-- Children in the order of their names have names of their own. -/
theorem FileTree.lookup_eq_some_iff {cs : List (String × FileTree)}
    (h : cs.Pairwise fun a b => a.1 < b.1) {n : String} {c : FileTree} :
    cs.lookup n = some c ↔ (n, c) ∈ cs := by
  refine ⟨mem_of_lookup, fun hmem => ?_⟩
  induction cs with
  | nil => exact absurd hmem List.not_mem_nil
  | cons x cs ih =>
    obtain ⟨m, e⟩ := x
    obtain ⟨hfirst, hrest⟩ := List.pairwise_cons.mp h
    rcases List.mem_cons.mp hmem with heq | hmem
    · rw [Prod.mk.inj heq |>.1, Prod.mk.inj heq |>.2, List.lookup_cons_self]
    · have hne : (n == m) = false := beq_eq_false_iff_ne.mpr (hfirst _ hmem).ne'
      rw [List.lookup_cons, hne]
      exact ih hrest hmem

theorem FileTree.IsSorted.get? {t u : FileTree} (h : t.IsSorted) {place : List String}
    (hu : t.get? place = some u) : u.IsSorted := by
  induction place generalizing t with
  | nil => rwa [← Option.some.inj hu]
  | cons n place ih =>
    rw [get?_cons] at hu
    obtain ⟨c, hlookup, hget⟩ := Option.bind_eq_some_iff.mp hu
    cases h with
    | file content => exact absurd hlookup nofun
    | folder _ htree => exact ih (htree (n, c) (mem_of_lookup hlookup)) hget

namespace Discovery

variable {d : Disk} {s : Settings} {p : Path} {t : FileTree} {children : List (String × FileTree)}
  {names : List String} {n : String}

/-! ## Topmost apps -/

/-- Whether a recursive search does not enter a folder, since it is left out or by its name. -/
def IsClosed (d : Disk) (s : Settings) (folder : Path) : Prop :=
  isExcluded d s folder = true ∨ folder.fileName? = some managedName

/-- Whether names lead to a topmost app at or below a folder with a tree: no folder on the way is
closed, and none above the app is an app. -/
structure IsTopmost (d : Disk) (s : Settings) (p : Path) (t : FileTree)
    (names : List String) : Prop where
  isFolder : ∃ children, t.get? names = some (.folder children)
  isApp : isApp d (p.descend names) = true
  not_isClosed : ∀ above, above <+: names → ¬ IsClosed d s (p.descend above)
  not_isApp : ∀ above, above <+: names → above ≠ names →
    Discovery.isApp d (p.descend above) = false

theorem isTopmost_nil_iff :
    IsTopmost d s p (.folder children) [] ↔ ¬ IsClosed d s p ∧ isApp d p = true := by
  constructor
  · exact fun h => ⟨h.not_isClosed [] List.prefix_rfl, h.isApp⟩
  · rintro ⟨hopen, happ⟩
    refine ⟨⟨children, rfl⟩, happ, fun above habove => ?_, fun above habove hne => ?_⟩
    · rwa [List.prefix_nil.mp habove]
    · exact absurd (List.prefix_nil.mp habove) hne

/-- A topmost app further down is one of a child, if the search goes on to the children. -/
theorem isTopmost_cons_iff :
    IsTopmost d s p t (n :: names) ↔ (¬ IsClosed d s p ∧ isApp d p = false) ∧
      ∃ c, t.children.lookup n = some c ∧ IsTopmost d s (p.child n) c names := by
  constructor
  · rintro ⟨⟨cs, hcs⟩, happ, hopen, habove⟩
    rw [FileTree.get?_cons] at hcs
    obtain ⟨c, hc, hget⟩ := Option.bind_eq_some_iff.mp hcs
    refine ⟨⟨hopen [] List.nil_prefix, habove [] List.nil_prefix nofun⟩, c, hc, ⟨cs, hget⟩, happ,
      fun above h => ?_, fun above h hne => ?_⟩
    · exact hopen (n :: above) (List.cons_prefix_cons.mpr ⟨rfl, h⟩)
    · exact habove (n :: above) (List.cons_prefix_cons.mpr ⟨rfl, h⟩)
        fun heq => hne (List.cons.inj heq).2
  · rintro ⟨⟨hopen, happ⟩, c, hc, h⟩
    obtain ⟨cs, hcs⟩ := h.isFolder
    refine ⟨⟨cs, ?_⟩, h.isApp, fun above habove => ?_, fun above habove hne => ?_⟩
    · rw [FileTree.get?_cons, hc]
      exact hcs
    · rcases List.prefix_cons_iff.mp habove with rfl | ⟨rest, rfl, hrest⟩
      · exact hopen
      · exact h.not_isClosed rest hrest
    · rcases List.prefix_cons_iff.mp habove with rfl | ⟨rest, rfl, hrest⟩
      · exact happ
      · exact h.not_isApp rest hrest fun heq => hne (heq ▸ rfl)

/-- No topmost app lies below another one. -/
theorem IsTopmost.eq_of_isPrefix {more : List String} (h : IsTopmost d s p t names)
    (hmore : IsTopmost d s p t more) (hstarts : names <+: more) : names = more := by
  by_contra hne
  exact absurd (h.isApp.symm.trans (hmore.not_isApp names hstarts hne)) (by decide)

/-! ## The walk -/

/-- Whether paths are those of some places below a folder, each once and in the order in which a
walk comes to them: a folder before what is in it, and siblings by their names. -/
def ListsPlaces (p : Path) (folders : List Path) (P : List String → Prop) : Prop :=
  ∃ places : List (List String), folders = places.map p.descend ∧ places.Pairwise (· < ·) ∧
    ∀ names, names ∈ places ↔ P names

theorem listsPlaces_nil {P : List String → Prop} (h : ∀ names, ¬ P names) : ListsPlaces p [] P :=
  ⟨[], rfl, List.Pairwise.nil, fun names => iff_of_false List.not_mem_nil (h names)⟩

theorem listsPlaces_singleton {P : List String → Prop} (h : ∀ names, P names ↔ names = []) :
    ListsPlaces p [p] P :=
  ⟨[[]], rfl, List.pairwise_singleton _ _, fun names => List.mem_singleton.trans (h names).symm⟩

theorem ListsPlaces.congr {folders : List Path} {P Q : List String → Prop}
    (h : ListsPlaces p folders P) (hPQ : ∀ names, P names ↔ Q names) : ListsPlaces p folders Q := by
  obtain ⟨places, hfolders, hsorted, hmem⟩ := h
  exact ⟨places, hfolders, hsorted, fun names => (hmem names).trans (hPQ names)⟩

/-- A walk through the first child comes before the walk through the other ones. -/
theorem ListsPlaces.append {first rest : List Path} {P Q : List String → Prop}
    (hfirst : ListsPlaces (p.child n) first P) (hrest : ListsPlaces p rest Q)
    (hlater : ∀ names, Q names → ∃ m more, names = m :: more ∧ n < m) :
    ListsPlaces p (first ++ rest) fun names => (∃ more, names = n :: more ∧ P more) ∨ Q names := by
  obtain ⟨places, rfl, hsorted, hmem⟩ := hfirst
  obtain ⟨places', rfl, hsorted', hmem'⟩ := hrest
  refine ⟨places.map (n :: ·) ++ places', ?_, ?_, fun names => ?_⟩
  · rw [List.map_append, List.map_map]
    rfl
  · refine List.pairwise_append.mpr ⟨?_, hsorted', fun a ha b hb => ?_⟩
    · exact hsorted.map _ fun a b hab => List.cons_lt_cons_iff.mpr (Or.inr ⟨rfl, hab⟩)
    · obtain ⟨more, -, rfl⟩ := List.mem_map.mp ha
      obtain ⟨m, more', rfl, hlt⟩ := hlater b ((hmem' b).mp hb)
      exact List.cons_lt_cons_iff.mpr (Or.inl hlt)
  · rw [List.mem_append, List.mem_map, hmem' names]
    refine or_congr_left ⟨?_, ?_⟩
    · rintro ⟨more, hmore, rfl⟩
      exact ⟨more, rfl, (hmem more).mp hmore⟩
    · rintro ⟨more, rfl, hmore⟩
      exact ⟨more, (hmem more).mpr hmore, rfl⟩

mutual

/-- A walk through a tree lists its topmost apps. -/
theorem listsPlaces_appsAt : ∀ (p : Path) {t : FileTree}, t.IsSorted →
    ListsPlaces p (appsAt d s p t) (IsTopmost d s p t)
  | p, .file content, _ => by
    refine listsPlaces_nil fun names h => ?_
    obtain ⟨children, hchildren⟩ := h.isFolder
    cases names <;> exact absurd hchildren nofun
  | p, .folder children, .folder hsorted htree => by
    have hclosed (h : IsClosed d s p) : ListsPlaces p [] (IsTopmost d s p (.folder children)) :=
      listsPlaces_nil fun names htop => htop.not_isClosed [] List.nil_prefix h
    rw [appsAt]
    split
    · next hexcluded => exact hclosed (Or.inl hexcluded)
    split
    · next hmanaged => exact hclosed (Or.inr hmanaged)
    next hexcluded hmanaged =>
    have hopen : ¬ IsClosed d s p := not_or.mpr ⟨hexcluded, hmanaged⟩
    split
    · next happ =>
      refine listsPlaces_singleton fun names => ?_
      cases names with
      | nil => exact iff_of_true (isTopmost_nil_iff.mpr ⟨hopen, happ⟩) rfl
      | cons n names =>
        refine iff_of_false (fun h => ?_) (List.cons_ne_nil n names)
        exact absurd (happ.symm.trans (isTopmost_cons_iff.mp h).1.2) (by decide)
    · next happ =>
      have happ := Bool.eq_false_iff.mpr happ
      refine (listsPlaces_appsBelow p hsorted htree).congr fun names => ?_
      cases names with
      | nil =>
        refine iff_of_false ?_ fun h => ?_
        · rintro ⟨c, -, more, hmore, -⟩
          exact absurd hmore nofun
        · exact absurd (happ.symm.trans (isTopmost_nil_iff.mp h).2) (by decide)
      | cons n names =>
        rw [isTopmost_cons_iff]
        refine ⟨?_, ?_⟩
        · rintro ⟨c, hc, more, hmore, htop⟩
          obtain ⟨rfl, rfl⟩ := List.cons.inj hmore
          exact ⟨⟨hopen, happ⟩, c.2, (FileTree.lookup_eq_some_iff hsorted).mpr hc, htop⟩
        · rintro ⟨-, c, hc, htop⟩
          exact ⟨(n, c), FileTree.mem_of_lookup hc, names, rfl, htop⟩

/-- A walk through children in the order of their names lists the topmost apps of each. -/
theorem listsPlaces_appsBelow : ∀ (p : Path) {children : List (String × FileTree)},
    (children.Pairwise fun a b => a.1 < b.1) → (∀ c ∈ children, c.2.IsSorted) →
      ListsPlaces p (appsBelow d s p children) fun names =>
        ∃ c ∈ children, ∃ more, names = c.1 :: more ∧ IsTopmost d s (p.child c.1) c.2 more
  | p, [], _, _ => listsPlaces_nil fun names => by rintro ⟨c, hc, -⟩; exact List.not_mem_nil hc
  | p, (n, t) :: rest, hsorted, htree => by
    obtain ⟨hfirst, hsorted⟩ := List.pairwise_cons.mp hsorted
    have hrest := listsPlaces_appsBelow p hsorted fun c hc => htree c (List.mem_cons_of_mem _ hc)
    have ht := listsPlaces_appsAt (p.child n) (htree (n, t) List.mem_cons_self)
    rw [appsBelow]
    refine (ht.append hrest ?_).congr fun names => ?_
    · rintro names ⟨c, hc, more, rfl, -⟩
      exact ⟨c.1, more, rfl, hfirst c hc⟩
    · rw [List.exists_mem_cons_iff]

end

/-! ## What a search finds -/

theorem IsTopmost.isStep (ht : t.IsNamed) (h : IsTopmost d s p t names) :
    ∀ n ∈ names, (Component.name n).IsStep := by
  obtain ⟨children, hchildren⟩ := h.isFolder
  exact ht.isStep_of_get? (by rw [hchildren]; rfl)

/-- A topmost app that lies within another one is that one. -/
theorem IsTopmost.eq_of_isWithin {more : List String} (hp : p.text ≠ "") (ht : t.IsNamed)
    (h : IsTopmost d s p t names) (hmore : IsTopmost d s p t more)
    (hwithin : (d.absolute (p.descend more)).isWithin (d.absolute (p.descend names)) = true) :
    names = more := by
  obtain ⟨before, hbefore⟩ := d.exists_components_absolute p.components
  rw [Path.isWithin_iff,
    hbefore _ names (Path.components_descend hp (h.isStep ht)),
    hbefore _ more (Path.components_descend hp (hmore.isStep ht)),
    List.prefix_append_right_inj, Path.named, Path.named,
    List.prefix_map_iff_of_injective Component.name_injective] at hwithin
  exact h.eq_of_isPrefix hmore hwithin

/-- **A recursive search finds the topmost apps**, each once and in the order of a walk: exactly the
folders at and below the one that is searched that are apps, without a folder above them that is
one, and such that neither the app nor a folder above it, up to the one that is searched, is left out
or named like a folder that holds components of others. So none of them lies in another one. The name
of the folder that is searched is the one that its path is written with. -/
theorem finds_topmost_apps (hrecursive : s.recursive = true) (hnamed : d.tree.IsNamed)
    (hsorted : d.tree.IsSorted) (ht : d.find p = .ok t) :
    ∃ folders, appFolders d s p = .ok folders ∧ ListsPlaces p folders (IsTopmost d s p t) ∧
      folders.Nodup ∧
      ∀ f ∈ folders, ∀ g ∈ folders, (d.absolute g).isWithin (d.absolute f) = true → f = g := by
  obtain ⟨place, -, hplace⟩ := Disk.find_eq_ok_iff.mp ht
  have hp := Disk.text_ne_empty_of_find ht
  have hnamed := hnamed.get? hplace
  have hlists := listsPlaces_appsAt (d := d) (s := s) p (hsorted.get? hplace)
  refine ⟨appsAt d s p t, by rw [appFolders, hrecursive, ht]; rfl, hlists, ?_, ?_⟩
  · obtain ⟨places, hfolders, hplaces, hmem⟩ := hlists
    rw [hfolders]
    refine List.Nodup.map_on (fun a ha b hb hab => ?_) (hplaces.imp fun h => ne_of_lt h)
    have hwithin : (d.absolute (p.descend b)).isWithin (d.absolute (p.descend a)) = true := by
      rw [hab]
      exact Path.isWithin_iff.mpr List.prefix_rfl
    exact ((hmem a).mp ha).eq_of_isWithin hp hnamed ((hmem b).mp hb) hwithin
  · obtain ⟨places, hfolders, -, hmem⟩ := hlists
    rw [hfolders]
    rintro f hf g hg hwithin
    obtain ⟨a, ha, rfl⟩ := List.mem_map.mp hf
    obtain ⟨b, hb, rfl⟩ := List.mem_map.mp hg
    rw [((hmem a).mp ha).eq_of_isWithin hp hnamed ((hmem b).mp hb) hwithin]

/-! ## Apps within and below other folders -/

/-- What makes a folder an app. -/
def projectFile : String × FileTree :=
  ("CMakeLists.txt", .file (.text "include(project.cmake)"))

/-- A folder with an app in it that holds another app, and apps in two folders that are not looked
at. -/
def nestedDisk : Disk where
  tree := .folder [
    ("a", .folder [projectFile, ("nested", .folder [projectFile])]),
    ("b", .folder [("managed_components", .folder [projectFile])]),
    ("c", .folder [projectFile])]
  cwd := []

theorem isNamed_nestedDisk : nestedDisk.tree.IsNamed := by
  have hfile (content : String) : (FileTree.file (.text content)).IsNamed := .file _
  have happ : (FileTree.folder [projectFile]).IsNamed :=
    .folder (by decide) (List.forall_mem_singleton.mpr (hfile _))
  refine .folder (by decide) ?_
  simp only [List.forall_mem_cons, List.not_mem_nil, false_imp_iff, implies_true, and_true]
  exact ⟨.folder (by decide) (List.forall_mem_cons.mpr ⟨hfile _, List.forall_mem_singleton.mpr happ⟩),
    .folder (by decide) (List.forall_mem_singleton.mpr happ), happ⟩

theorem isSorted_nestedDisk : nestedDisk.tree.IsSorted := by
  have hfile (content : String) : (FileTree.file (.text content)).IsSorted := .file _
  have happ : (FileTree.folder [projectFile]).IsSorted :=
    .folder (by decide) (List.forall_mem_singleton.mpr (hfile _))
  refine .folder (by decide) ?_
  simp only [List.forall_mem_cons, List.not_mem_nil, false_imp_iff, implies_true, and_true]
  exact ⟨.folder (by decide) (List.forall_mem_cons.mpr ⟨hfile _, List.forall_mem_singleton.mpr happ⟩),
    .folder (by decide) (List.forall_mem_singleton.mpr happ), happ⟩

theorem finds_topmost_apps_sample :
    ∃ folders, appFolders nestedDisk { recursive := true, exclude := [⟨"c"⟩] } ⟨"."⟩ = .ok folders ∧
      folders = [⟨"./a"⟩] ∧ ListsPlaces ⟨"."⟩ folders
        (IsTopmost nestedDisk { recursive := true, exclude := [⟨"c"⟩] } ⟨"."⟩ nestedDisk.tree) := by
  obtain ⟨folders, hfolders, hlists, -⟩ := finds_topmost_apps (d := nestedDisk) (p := ⟨"."⟩)
    (s := { recursive := true, exclude := [⟨"c"⟩] }) rfl isNamed_nestedDisk isSorted_nestedDisk rfl
  refine ⟨folders, hfolders, ?_, hlists⟩
  have heval : (appFolders nestedDisk { recursive := true, exclude := [⟨"c"⟩] } ⟨"."⟩).toOption =
      some [⟨"./a"⟩] := by decide +kernel
  rw [hfolders] at heval
  exact Option.some.inj heval

end Discovery

end BuildMatrix
