import Mathlib.Data.List.Perm.Basic

/-!
# Computations that may fail

When a chain of computations gives an answer, each of them does. When it fails, the first of them
that fails says why.

* `bind_eq_ok_iff`, `map_eq_ok_iff`, `mapError_eq_ok_iff`: the answers of composed computations.
* `bind_eq_error_iff`, `map_eq_error_iff`, `mapError_eq_error_iff`: their errors.
* `map_bind`: what is done with the answer of a chain is done with the answer of its last part.
* `eq_ok_of_toOption`: an answer can be checked without looking at errors.
* `exists_mapM_eq_ok_iff`, `mem_of_mapM_eq_ok`: the answers for the members of a list.
* `exists_perm_of_mapM_eq_ok`: members in another order have answers in another order.
* `exists_of_mapM_eq_error`, `mapM_eq_error_iff`: an error for a list is the one of its first member
  that fails.
* `mapM_map`: changing each answer, or all of them at the end.
-/

namespace BuildMatrix

variable {ε α β : Type} {x : Except ε α}

theorem bind_eq_ok_iff {f : α → Except ε β} {b : β} :
    x >>= f = .ok b ↔ ∃ a, x = .ok a ∧ f a = .ok b := by
  cases x <;> simp [bind, Except.bind]

theorem map_eq_ok_iff {f : α → β} {b : β} : x.map f = .ok b ↔ ∃ a, x = .ok a ∧ f a = b := by
  cases x <;> simp [Except.map]

theorem map_bind {γ : Type} {f : α → Except ε β} {g : β → γ} :
    (x >>= f).map g = x >>= fun a => (f a).map g := by
  cases x <;> rfl

theorem map_id_eq (x : Except ε α) : x.map id = x := by
  cases x <;> rfl

theorem mapError_eq_ok_iff {δ : Type} {f : ε → δ} {a : α} :
    x.mapError f = .ok a ↔ x = .ok a := by
  cases x with
  | error e => exact ⟨nofun, nofun⟩
  | ok b =>
    show Except.ok b = Except.ok a ↔ Except.ok b = Except.ok a
    rw [Except.ok.injEq, Except.ok.injEq]

theorem bind_eq_error_iff {f : α → Except ε β} {e : ε} :
    x >>= f = .error e ↔ x = .error e ∨ ∃ a, x = .ok a ∧ f a = .error e := by
  cases x <;> simp [bind, Except.bind]

theorem map_eq_error_iff {f : α → β} {e : ε} : x.map f = .error e ↔ x = .error e := by
  cases x <;> simp [Except.map]

theorem mapError_eq_error_iff {δ : Type} {f : ε → δ} {e : δ} :
    x.mapError f = .error e ↔ ∃ c, x = .error c ∧ f c = e := by
  cases x with
  | error c =>
    show Except.error (f c) = Except.error e ↔ _
    simp
  | ok a =>
    show Except.ok a = Except.error e ↔ _
    simp

/-- An answer can be checked without looking at errors, which need not be comparable. -/
theorem eq_ok_of_toOption {a : α} (h : x.toOption = some a) : x = .ok a := by
  cases x with
  | error e => exact absurd h (by simp [Except.toOption])
  | ok b => rw [Option.some_inj.mp h]

/-! ## Lists -/

section

variable {f : α → Except ε β} {as : List α} {bs : List β} {b : β}

theorem mapM_cons_eq_ok_iff {a : α} : (a :: as).mapM f = .ok bs ↔
    ∃ b rest, f a = .ok b ∧ as.mapM f = .ok rest ∧ b :: rest = bs := by
  rw [List.mapM_cons, bind_eq_ok_iff]
  refine exists_congr fun b => ?_
  rw [bind_eq_ok_iff]
  constructor
  · rintro ⟨hb, rest, hrest, h⟩
    exact ⟨rest, hb, hrest, Except.ok.inj h⟩
  · rintro ⟨rest, hb, hrest, rfl⟩
    exact ⟨hb, rest, hrest, rfl⟩

/-- A list has an answer if each member has one. -/
theorem exists_mapM_eq_ok_iff : (∃ bs, as.mapM f = .ok bs) ↔ ∀ a ∈ as, ∃ b, f a = .ok b := by
  induction as with
  | nil => exact ⟨fun _ => nofun, fun _ => ⟨[], rfl⟩⟩
  | cons a as ih =>
    rw [List.forall_mem_cons, ← ih]
    constructor
    · rintro ⟨bs, h⟩
      obtain ⟨b, rest, hb, hrest, -⟩ := mapM_cons_eq_ok_iff.mp h
      exact ⟨⟨b, hb⟩, rest, hrest⟩
    · rintro ⟨⟨b, hb⟩, rest, hrest⟩
      exact ⟨b :: rest, mapM_cons_eq_ok_iff.mpr ⟨b, rest, hb, hrest, rfl⟩⟩

/-- What the answer for a list holds are the answers for its members. -/
theorem mem_of_mapM_eq_ok (h : as.mapM f = .ok bs) : b ∈ bs ↔ ∃ a ∈ as, f a = .ok b := by
  induction as generalizing bs with
  | nil =>
    rw [← Except.ok.inj h]
    exact ⟨nofun, fun h => absurd h.choose_spec.1 nofun⟩
  | cons a as ih =>
    obtain ⟨c, rest, hc, hrest, rfl⟩ := mapM_cons_eq_ok_iff.mp h
    rw [List.mem_cons, ih hrest]
    constructor
    · rintro (rfl | ⟨x, hx, hb⟩)
      · exact ⟨a, List.mem_cons_self, hc⟩
      · exact ⟨x, List.mem_cons_of_mem a hx, hb⟩
    · rintro ⟨x, hx, hb⟩
      rcases List.mem_cons.mp hx with rfl | hx
      · exact .inl (Except.ok.inj (hb.symm.trans hc))
      · exact .inr ⟨x, hx, hb⟩

/-- The answers for a list stand where its members stand. -/
theorem mapM_eq_ok_iff_forall₂ :
    as.mapM f = .ok bs ↔ List.Forall₂ (fun a b => f a = .ok b) as bs := by
  induction as generalizing bs with
  | nil =>
    rw [List.forall₂_nil_left_iff]
    exact ⟨fun h => (Except.ok.inj h).symm, fun h => h ▸ rfl⟩
  | cons a as ih =>
    rw [mapM_cons_eq_ok_iff, List.forall₂_cons_left_iff]
    simp only [ih, eq_comm]

/-- Members in another order have answers in another order. -/
theorem exists_perm_of_mapM_eq_ok {as' : List α} (h : as'.Perm as) (hbs : as.mapM f = .ok bs) :
    ∃ bs', as'.mapM f = .ok bs' ∧ bs'.Perm bs := by
  obtain ⟨bs', hforall, hperm⟩ := List.perm_comp_forall₂ h (mapM_eq_ok_iff_forall₂.mp hbs)
  exact ⟨bs', mapM_eq_ok_iff_forall₂.mpr hforall, hperm⟩

/-- An error for a list is one for a member. -/
theorem exists_of_mapM_eq_error {e : ε} (h : as.mapM f = .error e) : ∃ a ∈ as, f a = .error e := by
  induction as with
  | nil => exact absurd h nofun
  | cons a as ih =>
    rw [List.mapM_cons, bind_eq_error_iff] at h
    obtain ha | ⟨b, -, h⟩ := h
    · exact ⟨a, List.mem_cons_self, ha⟩
    · obtain h | ⟨rest, -, h⟩ := bind_eq_error_iff.mp h
      · obtain ⟨c, hc, hfc⟩ := ih h
        exact ⟨c, List.mem_cons_of_mem a hc, hfc⟩
      · exact absurd h nofun

/-- A list fails with the error of the first member that fails. -/
theorem mapM_eq_error_iff {e : ε} : as.mapM f = .error e ↔
    ∃ before a after, as = before ++ a :: after ∧ (∀ b ∈ before, ∃ c, f b = .ok c) ∧
      f a = .error e := by
  induction as with
  | nil => exact ⟨nofun, fun ⟨_, _, _, h, _⟩ => absurd h (by simp)⟩
  | cons a as ih =>
    rw [List.mapM_cons, bind_eq_error_iff]
    constructor
    · rintro (ha | ⟨b, hb, h⟩)
      · exact ⟨[], a, as, rfl, nofun, ha⟩
      · obtain h | ⟨rest, -, h⟩ := bind_eq_error_iff.mp h
        · obtain ⟨before, c, after, rfl, hbefore, hc⟩ := ih.mp h
          exact ⟨a :: before, c, after, rfl, List.forall_mem_cons.mpr ⟨⟨b, hb⟩, hbefore⟩, hc⟩
        · exact absurd h nofun
    · rintro ⟨before, c, after, hcons, hbefore, hc⟩
      cases before with
      | nil =>
        obtain ⟨rfl, rfl⟩ := List.cons.inj hcons
        exact Or.inl hc
      | cons b before =>
        obtain ⟨rfl, rfl⟩ := List.cons.inj hcons
        obtain ⟨⟨x, hx⟩, hbefore⟩ := List.forall_mem_cons.mp hbefore
        have hrest := ih.mpr ⟨before, c, after, rfl, hbefore, hc⟩
        exact Or.inr ⟨x, hx, bind_eq_error_iff.mpr (Or.inl hrest)⟩

/-- Each answer may be changed when it is given, or all of them at the end. -/
theorem mapM_map {γ : Type} (h : β → γ) (as : List α) :
    as.mapM (fun a => (f a).map h) = (as.mapM f).map (List.map h) := by
  induction as with
  | nil => rfl
  | cons a as ih =>
    rw [List.mapM_cons, List.mapM_cons, ih]
    cases f a with
    | error e => rfl
    | ok b =>
      cases as.mapM f with
      | error e => rfl
      | ok bs => rfl

end

end BuildMatrix
