import BuildMatrix.App.Basic
import BuildMatrix.Proofs.Path.Order
import Mathlib.Data.List.Forall2

/-!
# The order of apps

Apps are ordered by four of their members. A list of apps in this order, in which only apps that are
the same have equal rank, rises strictly once its repeats are dropped, and such a list is determined
by its members.

* `App.order_eq_iff`, `App.same_iff`: what it means to have equal rank and to be the same.
* `App.IsOrdered`, `App.IsRising`: lists in which each app is below all later ones, or all of them
  that are not the same.
* `App.isRising_dropRepeats_sorted`: what is sorted and has its repeats dropped rises.
* `App.exists_same_mem_dropRepeats`: no app is lost.
* `App.forall₂_of_isRising`: rising lists with the same members agree place by place.
* `App.dropRepeats_sorted_filter`: leaving apps out commutes with sorting and dropping repeats.
-/

namespace BuildMatrix.App

/-! ## Equal rank -/

section

variable {p q : Option Path}

theorem sameSdkconfig_iff :
    sameSdkconfig p q = true ↔ p.map Path.components = q.map Path.components := by
  cases p <;> cases q <;> simp [sameSdkconfig, Path.same]

theorem orderSdkconfig_eq_iff :
    orderSdkconfig p q = .eq ↔ p.map Path.components = q.map Path.components := by
  cases p <;> cases q <;> simp [orderSdkconfig, Path.order_eq_iff]

instance : Std.TransCmp orderSdkconfig where
  eq_swap {p q} := by
    cases p with
    | none => cases q <;> rfl
    | some p =>
      cases q with
      | none => rfl
      | some q =>
        have hswap : p.order q = (q.order p).swap := Std.OrientedCmp.eq_swap
        exact hswap
  isLE_trans {p q r} hpq hqr := by
    cases p with
    | none => cases r <;> rfl
    | some p =>
      cases q with
      | none => exact absurd hpq nofun
      | some q =>
        cases r with
        | none => exact absurd hqr nofun
        | some r =>
          have htrans : (p.order r).isLE := Std.TransCmp.isLE_trans hpq hqr
          exact htrans

end

theorem order_eq_compareLex : App.order = compareLex (fun a b => a.folder.order b.folder)
    (compareLex (compareOn target) (compareLex (compareOn configName)
      fun a b => orderSdkconfig a.sdkconfig b.sdkconfig)) :=
  rfl

instance : Std.TransCmp App.order := by
  have hfolder : Std.TransCmp fun a b : App => a.folder.order b.folder :=
    transCmp_comap App.folder
  have hsdkconfig : Std.TransCmp fun a b : App => orderSdkconfig a.sdkconfig b.sdkconfig :=
    transCmp_comap App.sdkconfig
  rw [order_eq_compareLex]
  infer_instance

section

variable {a b c : App}

/-- Apps have equal rank when they agree in folder, target, config name and file of the
configuration, up to the writing of paths. -/
theorem order_eq_iff : a.order b = .eq ↔
    a.folder.components = b.folder.components ∧ a.target = b.target ∧
      a.configName = b.configName ∧
      a.sdkconfig.map Path.components = b.sdkconfig.map Path.components := by
  rw [order, Ordering.then_eq_eq, Ordering.then_eq_eq, Ordering.then_eq_eq, Path.order_eq_iff,
    Std.LawfulEqCmp.compare_eq_iff_eq, Std.LawfulEqCmp.compare_eq_iff_eq, orderSdkconfig_eq_iff]

/-- An app without its paths. -/
def withoutPaths (a : App) : App :=
  { a with folder := .empty, sdkconfig := none }

theorem same_iff : a.same b = true ↔
    a.folder.components = b.folder.components ∧
      a.sdkconfig.map Path.components = b.sdkconfig.map Path.components ∧
      a.withoutPaths = b.withoutPaths := by
  have hrest : { a with folder := b.folder, sdkconfig := b.sdkconfig } = b ↔
      a.withoutPaths = b.withoutPaths := by
    cases a
    cases b
    simp [withoutPaths]
  rw [same, Bool.and_eq_true, Bool.and_eq_true, Path.same_iff, sameSdkconfig_iff,
    decide_eq_true_iff, hrest, and_assoc]

theorem same_self (a : App) : a.same a = true :=
  same_iff.mpr ⟨rfl, rfl, rfl⟩

theorem same_symm (h : a.same b = true) : b.same a = true := by
  obtain ⟨hfolder, hsdkconfig, hrest⟩ := same_iff.mp h
  exact same_iff.mpr ⟨hfolder.symm, hsdkconfig.symm, hrest.symm⟩

theorem same_trans (hab : a.same b = true) (hbc : b.same c = true) : a.same c = true := by
  obtain ⟨hfolder, hsdkconfig, hrest⟩ := same_iff.mp hab
  obtain ⟨hfolder', hsdkconfig', hrest'⟩ := same_iff.mp hbc
  exact same_iff.mpr
    ⟨hfolder.trans hfolder', hsdkconfig.trans hsdkconfig', hrest.trans hrest'⟩

theorem order_eq_of_same (h : a.same b = true) : a.order b = .eq := by
  obtain ⟨hfolder, hsdkconfig, hrest⟩ := same_iff.mp h
  have htarget : a.withoutPaths.target = b.withoutPaths.target := congrArg _ hrest
  have hconfig : a.withoutPaths.configName = b.withoutPaths.configName := congrArg _ hrest
  exact order_eq_iff.mpr ⟨hfolder, htarget, hconfig, hsdkconfig⟩

/-! ## Rising lists -/

/-- Each app of a list is below all later ones. -/
def IsRising (apps : List App) : Prop :=
  apps.Pairwise fun a b => a.order b = .lt

variable {as bs : List App}

theorem isLE_total (a b : App) : ((a.order b).isLE || (b.order a).isLE) = true := by
  have hswap : b.order a = (a.order b).swap := Std.OrientedCmp.eq_swap
  rw [hswap]
  cases a.order b <;> rfl

theorem pairwise_sorted (apps : List App) :
    (sorted apps).Pairwise fun a b => (a.order b).isLE = true :=
  List.pairwise_mergeSort (fun _ _ _ => Std.TransCmp.isLE_trans) isLE_total apps

theorem mem_sorted_iff : a ∈ sorted as ↔ a ∈ as :=
  (List.mergeSort_perm as _).mem_iff

/-- Each app of a list is below all later ones that are not the same. -/
def IsOrdered (apps : List App) : Prop :=
  apps.Pairwise fun a b => a.order b = .lt ∨ a.same b = true

/-- Sorting puts apps in order, as long as only apps that are the same have equal rank. -/
theorem isOrdered_sorted (h : ∀ a ∈ as, ∀ b ∈ as, a.order b = .eq → a.same b = true) :
    IsOrdered (sorted as) := by
  refine (pairwise_sorted as).imp_of_mem fun {a b} ha hb hle => ?_
  cases hab : a.order b with
  | lt => exact Or.inl rfl
  | eq => exact Or.inr (h a (mem_sorted_iff.mp ha) b (mem_sorted_iff.mp hb) hab)
  | gt => exact absurd hle (by rw [hab]; nofun)

/-- Dropping repeats from a list in order leaves apps above the first one, in strict order. -/
theorem isRising_cons_dropRepeatsAfter (h : IsOrdered (a :: as)) :
    IsRising (a :: dropRepeatsAfter a as) := by
  induction as generalizing a with
  | nil => exact List.pairwise_singleton _ a
  | cons b bs ih =>
    obtain ⟨ha, hbs⟩ := List.pairwise_cons.mp h
    rw [dropRepeatsAfter]
    split
    · exact ih (List.pairwise_cons.mpr
        ⟨fun y hy => ha y (List.mem_cons_of_mem b hy), hbs.of_cons⟩)
    · next hne =>
      have hlt : a.order b = .lt := (ha b List.mem_cons_self).resolve_right hne
      have hrest : IsRising (b :: dropRepeatsAfter b bs) := ih hbs
      refine List.pairwise_cons.mpr ⟨fun y hy => ?_, hrest⟩
      rcases List.mem_cons.mp hy with rfl | hy
      · exact hlt
      · exact Std.TransCmp.lt_trans hlt ((List.pairwise_cons.mp hrest).1 y hy)

/-- What is sorted and has its repeats dropped rises, as long as only apps that are the same have
equal rank. -/
theorem isRising_dropRepeats_sorted
    (h : ∀ a ∈ as, ∀ b ∈ as, a.order b = .eq → a.same b = true) :
    IsRising (dropRepeats (sorted as)) := by
  have hordered := isOrdered_sorted h
  cases hsorted : sorted as with
  | nil => exact List.Pairwise.nil
  | cons a rest =>
    rw [hsorted] at hordered
    exact isRising_cons_dropRepeatsAfter hordered

theorem mem_of_mem_dropRepeatsAfter (h : b ∈ dropRepeatsAfter a as) : b ∈ as := by
  induction as generalizing a with
  | nil => exact h
  | cons c cs ih =>
    rw [dropRepeatsAfter] at h
    split at h
    · exact List.mem_cons_of_mem c (ih h)
    · rcases List.mem_cons.mp h with rfl | h
      · exact List.mem_cons_self
      · exact List.mem_cons_of_mem c (ih h)

theorem mem_of_mem_dropRepeats (h : a ∈ dropRepeats as) : a ∈ as := by
  cases as with
  | nil => exact h
  | cons b bs =>
    rcases List.mem_cons.mp h with rfl | h
    · exact List.mem_cons_self
    · exact List.mem_cons_of_mem b (mem_of_mem_dropRepeatsAfter h)

theorem exists_same_mem_dropRepeatsAfter (h : b ∈ as) :
    ∃ c ∈ a :: dropRepeatsAfter a as, b.same c = true := by
  induction as generalizing a with
  | nil => exact absurd h nofun
  | cons c cs ih =>
    rw [dropRepeatsAfter]
    rcases List.mem_cons.mp h with rfl | hlater
    · split
      · next hsame => exact ⟨a, List.mem_cons_self, same_symm hsame⟩
      · exact ⟨b, List.mem_cons_of_mem a List.mem_cons_self, same_self b⟩
    · split
      · exact ih hlater
      · obtain ⟨x, hx, hbx⟩ := ih (a := c) hlater
        exact ⟨x, List.mem_cons_of_mem a hx, hbx⟩

/-- Dropping repeats loses no app. -/
theorem exists_same_mem_dropRepeats (h : a ∈ as) : ∃ b ∈ dropRepeats as, a.same b = true := by
  cases as with
  | nil => exact absurd h nofun
  | cons b bs =>
    rcases List.mem_cons.mp h with rfl | h
    · exact ⟨a, List.mem_cons_self, same_self a⟩
    · exact exists_same_mem_dropRepeatsAfter h

/-- Rising lists whose members correspond, in such a way that what corresponds has equal rank, agree
place by place. -/
theorem forall₂_of_isRising {R : App → App → Prop} (hR : ∀ a b, R a b → a.order b = .eq)
    (has : IsRising as) (hbs : IsRising bs) (hab : ∀ a ∈ as, ∃ b ∈ bs, R a b)
    (hba : ∀ b ∈ bs, ∃ a ∈ as, R a b) : List.Forall₂ R as bs := by
  induction as generalizing bs with
  | nil =>
    cases bs with
    | nil => exact .nil
    | cons b bs =>
      obtain ⟨a, ha, -⟩ := hba b List.mem_cons_self
      exact absurd ha nofun
  | cons a as ih =>
    obtain ⟨ha, has⟩ := List.pairwise_cons.mp has
    cases bs with
    | nil =>
      obtain ⟨b, hb, -⟩ := hab a List.mem_cons_self
      exact absurd hb nofun
    | cons b bs =>
      obtain ⟨hb, hbs⟩ := List.pairwise_cons.mp hbs
      -- the first apps correspond: otherwise each would be below the other
      have hhead : R a b := by
        obtain ⟨y, hy, hay⟩ := hab a List.mem_cons_self
        obtain ⟨x, hx, hxb⟩ := hba b List.mem_cons_self
        rcases List.mem_cons.mp hy with rfl | hy
        · exact hay
        rcases List.mem_cons.mp hx with rfl | hx
        · exact hxb
        have hab' : a.order b = .lt := Std.TransCmp.lt_of_lt_of_eq (ha x hx) (hR x b hxb)
        have hay' : a.order y = .lt := Std.TransCmp.lt_trans hab' (hb y hy)
        rw [hR a y hay] at hay'
        exact absurd hay' nofun
      refine .cons hhead (ih has hbs (fun x hx => ?_) fun y hy => ?_)
      · obtain ⟨y, hy, hxy⟩ := hab x (List.mem_cons_of_mem a hx)
        rcases List.mem_cons.mp hy with rfl | hy
        · have hxa : a.order y = .lt := Std.TransCmp.lt_of_lt_of_eq (ha x hx) (hR x y hxy)
          rw [hR a y hhead] at hxa
          exact absurd hxa nofun
        · exact ⟨y, hy, hxy⟩
      · obtain ⟨x, hx, hxy⟩ := hba y (List.mem_cons_of_mem b hy)
        rcases List.mem_cons.mp hx with rfl | hx
        · have hxb : x.order y = .lt := Std.TransCmp.lt_of_eq_of_lt (hR x b hhead) (hb y hy)
          rw [hR x y hxy] at hxb
          exact absurd hxb nofun
        · exact ⟨x, hx, hxy⟩

/-! ## Leaving apps out -/

section

variable {p : App → Bool}

/-- A list can be split in one way only into members with a property and members without it. -/
theorem eq_of_append_eq {l₁ l₂ k₁ k₂ : List App} (h : l₁ ++ l₂ = k₁ ++ k₂)
    (hl₁ : ∀ x ∈ l₁, p x = true) (hl₂ : ∀ x ∈ l₂, ¬ p x = true)
    (hk₁ : ∀ x ∈ k₁, p x = true) (hk₂ : ∀ x ∈ k₂, ¬ p x = true) : l₁ = k₁ ∧ l₂ = k₂ := by
  have hfirst : l₁ = k₁ := by
    calc l₁ = (l₁ ++ l₂).filter p := by
            rw [List.filter_append, List.filter_eq_self.mpr hl₁, List.filter_eq_nil_iff.mpr hl₂,
              List.append_nil]
      _ = (k₁ ++ k₂).filter p := by rw [h]
      _ = k₁ := by
            rw [List.filter_append, List.filter_eq_self.mpr hk₁, List.filter_eq_nil_iff.mpr hk₂,
              List.append_nil]
  rw [hfirst] at h
  exact ⟨hfirst, List.append_cancel_left h⟩

/-- An app takes its place before all apps of equal rank. -/
theorem exists_sorted_cons (a : App) (as : List App) :
    ∃ l₁ l₂, sorted (a :: as) = l₁ ++ a :: l₂ ∧ sorted as = l₁ ++ l₂ ∧
      (∀ b ∈ l₁, (!(a.order b).isLE) = true) ∧ ∀ b ∈ l₂, ¬ (!(a.order b).isLE) = true := by
  obtain ⟨l₁, l₂, hcons, has, hbefore⟩ :=
    List.mergeSort_cons (fun _ _ _ => Std.TransCmp.isLE_trans) isLE_total a as
  have hpairwise := pairwise_sorted (a :: as)
  rw [sorted, hcons] at hpairwise
  have hafter := (List.pairwise_cons.mp (List.pairwise_append.mp hpairwise).2.1).1
  refine ⟨l₁, l₂, hcons, has, hbefore, fun b hb => ?_⟩
  rw [hafter b hb]
  decide

/-- It makes no difference whether apps are left out before or after sorting. -/
theorem sorted_filter (p : App → Bool) (as : List App) :
    sorted (as.filter p) = (sorted as).filter p := by
  induction as with
  | nil => rw [List.filter_nil, sorted, List.mergeSort_nil, List.filter_nil]
  | cons a as ih =>
    obtain ⟨l₁, l₂, hcons, has, hbefore, hafter⟩ := exists_sorted_cons a as
    rw [has, List.filter_append] at ih
    rw [hcons, List.filter_append]
    by_cases ha : p a = true
    · obtain ⟨k₁, k₂, hcons', has', hbefore', hafter'⟩ := exists_sorted_cons a (as.filter p)
      obtain ⟨hk₁, hk₂⟩ := eq_of_append_eq (has'.symm.trans ih) hbefore' hafter'
        (fun b hb => hbefore b (List.mem_of_mem_filter hb))
        (fun b hb => hafter b (List.mem_of_mem_filter hb))
      rw [List.filter_cons_of_pos ha, List.filter_cons_of_pos ha, hcons', hk₁, hk₂]
    · rw [List.filter_cons_of_neg ha, List.filter_cons_of_neg ha, ih]

theorem dropRepeats_cons_of_forall_not_same (h : ∀ b ∈ as, ¬ a.same b = true) :
    dropRepeats (a :: as) = a :: dropRepeats as := by
  cases as with
  | nil => rfl
  | cons b bs => rw [dropRepeats, dropRepeatsAfter, if_neg (h b List.mem_cons_self), dropRepeats]

theorem dropRepeats_cons_of_same (h : a.same b = true) :
    dropRepeats (a :: b :: as) = dropRepeats (a :: as) := by
  rw [dropRepeats, dropRepeatsAfter, if_pos h, dropRepeats]

/-- An app of a list in order that is not the same as the next one is not the same as any later
one. -/
theorem IsOrdered.not_same_of_mem {b : App} (h : IsOrdered (a :: b :: as))
    (hab : ¬ a.same b = true) {y : App} (hy : y ∈ b :: as) : ¬ a.same y = true := by
  obtain ⟨ha, hrest⟩ := List.pairwise_cons.mp h
  have hlt : a.order b = .lt := (ha b List.mem_cons_self).resolve_right hab
  have hay : a.order y = .lt := by
    rcases List.mem_cons.mp hy with rfl | hy
    · exact hlt
    rcases (List.pairwise_cons.mp hrest).1 y hy with hby | hby
    · exact Std.TransCmp.lt_trans hlt hby
    · exact Std.TransCmp.lt_of_lt_of_eq hlt (order_eq_of_same hby)
  intro hsame
  rw [order_eq_of_same hsame] at hay
  cases hay

/-- In a list in order, it makes no difference whether apps are left out before or after dropping
repeats, as long as apps that are the same are left out together. -/
theorem dropRepeats_filter_cons (hp : ∀ a b, a.same b = true → p a = p b)
    (h : IsOrdered (a :: as)) :
    dropRepeats ((a :: as).filter p) = (dropRepeats (a :: as)).filter p := by
  induction as generalizing a with
  | nil => by_cases ha : p a = true <;> simp [ha, dropRepeats, dropRepeatsAfter]
  | cons b bs ih =>
    obtain ⟨ha, hbs⟩ := List.pairwise_cons.mp h
    -- The test does not tell a repeat from the app before it, so both stay or both go.
    by_cases hab : a.same b = true
    · have hskip : IsOrdered (a :: bs) := List.pairwise_cons.mpr
        ⟨fun y hy => ha y (List.mem_cons_of_mem b hy), hbs.of_cons⟩
      rw [dropRepeats_cons_of_same hab, ← ih hskip]
      by_cases hkeep : p a = true
      · rw [List.filter_cons_of_pos hkeep, List.filter_cons_of_pos (hp a b hab ▸ hkeep),
          List.filter_cons_of_pos hkeep, dropRepeats_cons_of_same hab]
      · rw [List.filter_cons_of_neg hkeep, List.filter_cons_of_neg (hp a b hab ▸ hkeep),
          List.filter_cons_of_neg hkeep]
    · have hlater : ∀ y ∈ b :: bs, ¬ a.same y = true := fun y hy => h.not_same_of_mem hab hy
      rw [dropRepeats_cons_of_forall_not_same hlater]
      by_cases hkeep : p a = true
      · rw [List.filter_cons_of_pos hkeep, List.filter_cons_of_pos hkeep, ← ih hbs]
        exact dropRepeats_cons_of_forall_not_same
          fun y hy => hlater y (List.mem_of_mem_filter hy)
      · rw [List.filter_cons_of_neg hkeep, List.filter_cons_of_neg hkeep, ih hbs]

/-- **Leaving apps out.** It makes no difference whether apps are left out before apps are sorted
and have their repeats dropped, or after that, as long as only apps that are the same have equal
rank and these are left out together. -/
theorem dropRepeats_sorted_filter (hp : ∀ a b, a.same b = true → p a = p b)
    (h : ∀ a ∈ as, ∀ b ∈ as, a.order b = .eq → a.same b = true) :
    dropRepeats (sorted (as.filter p)) = (dropRepeats (sorted as)).filter p := by
  have hordered := isOrdered_sorted h
  rw [sorted_filter]
  cases hsorted : sorted as with
  | nil => rfl
  | cons a rest =>
    rw [hsorted] at hordered
    exact dropRepeats_filter_cons hp hordered

end

end

end BuildMatrix.App
