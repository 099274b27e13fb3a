import BuildMatrix.Path.Sorted
import BuildMatrix.Proofs.Path.Normal

/-!
# The order of paths

Paths are in a total order in which equal means to have the same components. Lists that are put
together in this order rise strictly.

* `Path.order_eq_iff`: paths are equal in the order when they have the same components.
* `Path.IsRising`: lists in which each entry is below all later ones.
* `Path.IsRising.eq_of_components_eq`: a rising list has each path once.
* `Path.isRising_insertNew`, `Path.isRising_sortNew`: what is put together in order rises.
* `Path.mem_sortNew_iff`: sorting loses nothing, as long as entries with one path are equal.
-/

namespace BuildMatrix

/-- Values are in order by what is compared of them. -/
theorem transCmp_comap {α β : Type} {cmp : β → β → Ordering} [Std.TransCmp cmp] (f : α → β) :
    Std.TransCmp fun a b => cmp (f a) (f b) where
  eq_swap := Std.OrientedCmp.eq_swap
  isLE_trans := Std.TransCmp.isLE_trans

/-! ## Components -/

/-- The text that decides between two names. -/
def Component.label : Component → String
  | .name s => s
  | _ => ""

/-- Components are ordered by their kinds, and names by their texts. -/
theorem Component.order_eq_compareLex :
    Component.order = compareLex (compareOn rank) (compareOn label) := by
  funext a b
  cases a <;> cases b <;> rfl

instance : Std.TransCmp Component.order := by
  rw [Component.order_eq_compareLex]
  infer_instance

instance : Std.LawfulEqCmp Component.order where
  eq_of_compare {a b} h := by
    cases a <;> cases b <;> simp_all [Component.order, Component.rank]

namespace Path

theorem orderComponents_eq_compareLex :
    orderComponents = List.compareLex Component.order := by
  funext as bs
  induction as generalizing bs with
  | nil => cases bs <;> rfl
  | cons a as ih =>
    cases bs with
    | nil => rfl
    | cons b bs => rw [orderComponents, List.compareLex_cons_cons, ih]

instance : Std.TransCmp orderComponents := by
  rw [orderComponents_eq_compareLex]
  infer_instance

instance : Std.LawfulEqCmp orderComponents := by
  rw [orderComponents_eq_compareLex]
  infer_instance

/-! ## Paths -/

variable {p q r : Path}

instance : Std.TransCmp order :=
  transCmp_comap components

/-- Paths are equal in the order when they have the same components. -/
theorem order_eq_iff : p.order q = .eq ↔ p.components = q.components := by
  rw [order]
  exact Std.LawfulEqCmp.compare_eq_iff_eq

theorem order_gt_iff : p.order q = .gt ↔ q.order p = .lt := by
  rw [order, order]
  exact Std.OrientedCmp.gt_iff_lt

theorem order_lt_trans (hpq : p.order q = .lt) (hqr : q.order r = .lt) : p.order r = .lt := by
  exact Std.TransCmp.lt_trans hpq hqr

theorem components_ne_of_order_lt (h : p.order q = .lt) : p.components ≠ q.components := by
  rw [ne_eq, ← order_eq_iff, h]
  exact Ordering.noConfusion

/-! ## Rising lists -/

section

variable {α : Type} {key : α → Path} {a b : α} {l : List α}

/-- Whether each entry of a list is below all later ones by the order of their paths. -/
def IsRising (key : α → Path) (l : List α) : Prop :=
  l.Pairwise fun a b => (key a).order (key b) = .lt

/-- Two entries of a rising list with the same components are the same. -/
theorem IsRising.eq_of_components_eq (h : IsRising key l) (ha : a ∈ l) (hb : b ∈ l)
    (hab : (key a).components = (key b).components) : a = b := by
  induction l with
  | nil => exact absurd ha (by simp)
  | cons x l ih =>
    obtain ⟨hx, hl⟩ := List.pairwise_cons.mp h
    rcases List.mem_cons.mp ha with rfl | ha' <;> rcases List.mem_cons.mp hb with rfl | hb'
    · rfl
    · exact absurd hab (components_ne_of_order_lt (hx b hb'))
    · exact absurd hab.symm (components_ne_of_order_lt (hx a ha'))
    · exact ih hl ha' hb'

theorem mem_insertNew (h : b ∈ insertNew key a l) : b = a ∨ b ∈ l := by
  induction l with
  | nil => exact Or.inl (List.mem_singleton.mp h)
  | cons x l ih =>
    rw [insertNew] at h
    split at h
    · exact List.mem_cons.mp h
    · exact Or.inr h
    · rcases List.mem_cons.mp h with rfl | h
      · exact Or.inr List.mem_cons_self
      · exact (ih h).imp_right (List.mem_cons_of_mem _)

theorem mem_insertNew_of_mem (h : b ∈ l) : b ∈ insertNew key a l := by
  induction l with
  | nil => exact absurd h (by simp)
  | cons x l ih =>
    rw [insertNew]
    split
    · exact List.mem_cons_of_mem _ h
    · exact h
    · rcases List.mem_cons.mp h with rfl | h
      · exact List.mem_cons_self
      · exact List.mem_cons_of_mem _ (ih h)

/-- An entry is put in where no other entry has its path. -/
theorem self_mem_insertNew (h : ∀ b ∈ l, (key a).components = (key b).components → b = a) :
    a ∈ insertNew key a l := by
  induction l with
  | nil => exact List.mem_cons_self
  | cons x l ih =>
    rw [insertNew]
    split
    · exact List.mem_cons_self
    · next heq =>
      rw [h x List.mem_cons_self (order_eq_iff.mp heq)]
      exact List.mem_cons_self
    · exact List.mem_cons_of_mem _ (ih fun b hb => h b (List.mem_cons_of_mem _ hb))

/-- Putting an entry in its place keeps the entries in order. -/
theorem isRising_insertNew (a : α) (h : IsRising key l) : IsRising key (insertNew key a l) := by
  induction l with
  | nil => exact List.pairwise_singleton _ _
  | cons x l ih =>
    obtain ⟨hx, hl⟩ := List.pairwise_cons.mp h
    rw [insertNew]
    split
    · next hlt =>
      refine List.pairwise_cons.mpr ⟨fun b hb => ?_, h⟩
      rcases List.mem_cons.mp hb with rfl | hb
      · exact hlt
      · exact order_lt_trans hlt (hx b hb)
    · exact h
    · next hgt =>
      refine List.pairwise_cons.mpr ⟨fun b hb => ?_, ih hl⟩
      rcases mem_insertNew hb with rfl | hb
      · exact order_gt_iff.mp hgt
      · exact hx b hb

/-- Folding entries into a list keeps them all, as long as entries with one path are equal. -/
theorem mem_foldl_insertNew_iff {as : List α}
    (h : ∀ a ∈ l ++ as, ∀ b ∈ l ++ as, (key a).components = (key b).components → b = a) :
    b ∈ as.foldl (fun bs a => insertNew key a bs) l ↔ b ∈ l ∨ b ∈ as := by
  induction as generalizing l with
  | nil => simp
  | cons a as ih =>
    have hsub : ∀ b ∈ insertNew key a l ++ as, b ∈ l ++ a :: as := by
      intro b hb
      rcases List.mem_append.mp hb with hb | hb
      · rcases mem_insertNew hb with rfl | hb
        · exact List.mem_append_right _ List.mem_cons_self
        · exact List.mem_append_left _ hb
      · exact List.mem_append_right _ (List.mem_cons_of_mem _ hb)
    have hself : a ∈ insertNew key a l := self_mem_insertNew fun b hb =>
      h a (List.mem_append_right _ List.mem_cons_self) b (List.mem_append_left _ hb)
    rw [List.foldl_cons, ih fun b hb c hc => h b (hsub b hb) c (hsub c hc), List.mem_cons]
    constructor
    · rintro (hb | hb)
      · rcases mem_insertNew hb with rfl | hb
        · exact Or.inr (Or.inl rfl)
        · exact Or.inl hb
      · exact Or.inr (Or.inr hb)
    · rintro (hb | rfl | hb)
      · exact Or.inl (mem_insertNew_of_mem hb)
      · exact Or.inl hself
      · exact Or.inr hb

/-- Sorting loses nothing, as long as entries with one path are equal. -/
theorem mem_sortNew_iff {as : List α}
    (h : ∀ a ∈ as, ∀ b ∈ as, (key a).components = (key b).components → b = a) :
    b ∈ sortNew key as ↔ b ∈ as := by
  rw [sortNew, mem_foldl_insertNew_iff h]
  simp

end

end Path

end BuildMatrix
