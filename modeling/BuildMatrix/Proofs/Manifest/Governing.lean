import BuildMatrix.Proofs.Manifest.Loaded

/-!
# The governing rule

The rule that governs a path is looked for in the folder itself, then in its parent, and so on; the
root is the last folder that is looked at.

* `Manifest.searched`: the folders that are looked at, nearest first.
* `Manifest.firstRule?_eq_findSome?`: the rule found is the first one along these folders.
* `Manifest.governingRule_cases`: the governing rule is the first one found, or the rule that says
  nothing.
* `Manifest.governingRule_of_searched`: only a nearer rule keeps a rule on the way from governing.
-/

namespace BuildMatrix

namespace Manifest

variable {m : Manifest} {r : Rule} {p : Path}

/-- The folders of a list up to the root, the root included. -/
def upTo (root : Path) : List (List Component) → List (List Component)
  | [] => []
  | folder :: folders =>
    if folder = root.components then [folder] else folder :: upTo root folders

/-- The rule found is the first one along the folders up to the root. -/
theorem firstRule?_eq_findSome? (m : Manifest) (folders : List (List Component)) :
    m.firstRule? folders = (upTo m.root folders).findSome? m.ruleAt? := by
  induction folders with
  | nil => rfl
  | cons folder folders ih =>
    rw [firstRule?, upTo]
    by_cases hroot : folder = m.root.components
    · rw [if_pos hroot, if_pos hroot, List.findSome?_singleton]
      cases m.ruleAt? folder <;> rfl
    · rw [if_neg hroot, if_neg hroot, List.findSome?_cons, ih]
      cases m.ruleAt? folder <;> rfl

/-- The folders in which the rule of a path is looked for, nearest first. -/
def searched (root p : Path) : List (List Component) :=
  upTo root (Path.ancestors (p.absolutize root).components)

theorem governingRule_eq (m : Manifest) (p : Path) :
    m.governingRule p =
      ((searched m.root p).findSome? m.ruleAt?).getD (Rule.default (p.absolutize m.root)) := by
  rw [governingRule, firstRule?_eq_findSome?]
  rfl

/-- Where a rule is found, it governs, and no folder before its own has a rule. -/
theorem governingRule_cases (m : Manifest) (p : Path) :
    (∃ before after, searched m.root p =
        before ++ (m.governingRule p).folder.components :: after ∧
        m.ruleAt? (m.governingRule p).folder.components = some (m.governingRule p) ∧
        ∀ folder ∈ before, m.ruleAt? folder = none) ∨
      (m.governingRule p = Rule.default (p.absolutize m.root) ∧
        ∀ folder ∈ searched m.root p, m.ruleAt? folder = none) := by
  rw [governingRule_eq]
  cases h : (searched m.root p).findSome? m.ruleAt? with
  | none => exact Or.inr ⟨rfl, List.findSome?_eq_none_iff.mp h⟩
  | some r =>
    obtain ⟨before, folder, after, hsplit, hr, hbefore⟩ := List.findSome?_eq_some_iff.mp h
    have hfolder := components_of_ruleAt? hr
    subst hfolder
    exact Or.inl ⟨before, after, hsplit, hr, hbefore⟩

/-- A rule on the way governs, unless one of the folders before it has a rule. -/
theorem governingRule_of_searched {before after : List (List Component)} {folder : List Component}
    (h : searched m.root p = before ++ folder :: after) (hr : m.ruleAt? folder = some r) :
    m.governingRule p = r ∨ ∃ f ∈ before, m.ruleAt? f = some (m.governingRule p) := by
  rw [governingRule_eq, h, List.findSome?_append, List.findSome?_cons, hr]
  cases hbefore : before.findSome? m.ruleAt? with
  | none => exact Or.inl rfl
  | some s => exact Or.inr (List.exists_of_findSome?_eq_some hbefore)

theorem isNormal_folder_governingRule (hm : m.IsSound) (p : Path) :
    (m.governingRule p).folder.IsNormal := by
  rcases governingRule_cases m p with ⟨_, _, -, hr, -⟩ | ⟨hr, -⟩
  · exact hm.isNormal_folder _ (mem_of_ruleAt? hr)
  · rw [hr]
    exact Path.isNormal_absolutize p hm.isNormal_root.isAbsolute

end Manifest

end BuildMatrix
