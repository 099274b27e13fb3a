import BuildMatrix.Proofs.Version.Order
import BuildMatrix.Value

/-!
# The order of values

Values of different kinds have no order, and two lists have none if the first items in which they
differ have none. Where there is an order it is one of a total order: nothing but a value itself is
equal to it, exchanging the sides turns the order around, and being less carries over.

* `Value.order_eq_iff`: equal in the order means equal.
* `Value.orderItems_cons`: the first items that differ decide.
* `Value.order_swap`: the order from the other side.
* `Value.order_lt_trans`: what is below something that is below a third is below it.
-/

namespace BuildMatrix.Value

/-! ## Equal in the order -/

mutual

theorem order_self : ∀ a : Value, order a a = some .eq
  | int _ | str _ | bool _ => by simp [order]
  | version v => by rw [order, Version.order_eq_iff.mpr rfl]
  | list as => by rw [order, orderItems_self as]

theorem orderItems_self : ∀ as : List Value, orderItems as as = some .eq
  | [] => rfl
  | a :: as => by
    rw [orderItems, order_self a]
    exact orderItems_self as

end

mutual

theorem eq_of_order : ∀ {a b : Value}, order a b = some .eq → a = b
  | int _, b, h => by cases b <;> simp_all [order]
  | str _, b, h => by cases b <;> simp_all [order]
  | version _, b, h => by cases b <;> simp_all [order, Version.order_eq_iff]
  | bool _, b, h => by cases b <;> simp_all [order]
  | list as, b, h => by
    cases b with
    | list bs => rw [eq_of_orderItems h]
    | int _ | str _ | version _ | bool _ => exact absurd h nofun

theorem eq_of_orderItems : ∀ {as bs : List Value}, orderItems as bs = some .eq → as = bs
  | [], bs, h => by cases bs <;> simp_all [orderItems]
  | a :: as, bs, h => by
    cases bs with
    | nil => exact absurd h nofun
    | cons b bs =>
      rw [orderItems] at h
      split at h
      · next hab => rw [eq_of_order hab, eq_of_orderItems h]
      · next hne => exact absurd h hne

end

/-- **Values that are equal in the order are the same.** -/
theorem order_eq_iff {a b : Value} : order a b = some .eq ↔ a = b :=
  ⟨eq_of_order, fun h => h ▸ order_self a⟩

/-- The first items that differ decide. -/
theorem orderItems_cons (a b : Value) (as bs : List Value) :
    orderItems (a :: as) (b :: bs) = if a = b then orderItems as bs else order a b := by
  rw [orderItems]
  split
  · next h => rw [if_pos (eq_of_order h)]
  · next h => rw [if_neg fun hab => h (order_eq_iff.mpr hab)]

/-! ## The other side -/

mutual

theorem order_swap : ∀ a b : Value, order b a = (order a b).map Ordering.swap
  | int m, b => by
    cases b with
    | int n => exact congrArg some Std.OrientedCmp.eq_swap
    | _ => rfl
  | str s, b => by
    cases b with
    | str t => exact congrArg some Std.OrientedCmp.eq_swap
    | _ => rfl
  | version v, b => by
    cases b with
    | version w => exact congrArg some Std.OrientedCmp.eq_swap
    | _ => rfl
  | bool x, b => by
    cases b with
    | bool y => exact congrArg some Std.OrientedCmp.eq_swap
    | _ => rfl
  | list as, b => by
    cases b with
    | list bs => exact orderItems_swap as bs
    | _ => rfl

theorem orderItems_swap :
    ∀ as bs : List Value, orderItems bs as = (orderItems as bs).map Ordering.swap
  | [], bs => by cases bs <;> rfl
  | a :: as, bs => by
    cases bs with
    | nil => rfl
    | cons b bs =>
      rw [orderItems_cons, orderItems_cons]
      by_cases hab : a = b
      · rw [if_pos hab, if_pos hab.symm, orderItems_swap as bs]
      · rw [if_neg hab, if_neg (Ne.symm hab), order_swap a b]

end

/-! ## Carrying over -/

theorem some_lt_trans {α : Type} {cmp : α → α → Ordering} [Std.TransCmp cmp] {x y z : α}
    (hxy : some (cmp x y) = some .lt) (hyz : some (cmp y z) = some .lt) :
    some (cmp x z) = some .lt :=
  congrArg some (Std.TransCmp.lt_trans (Option.some.inj hxy) (Option.some.inj hyz))

mutual

/-- **Being less carries over.** -/
theorem order_lt_trans : ∀ {a b c : Value}, order a b = some .lt → order b c = some .lt →
    order a c = some .lt
  | int m, b, c, hab, hbc => by
    cases b with
    | int n =>
      cases c with
      | int k => exact some_lt_trans hab hbc
      | _ => exact absurd hbc nofun
    | _ => exact absurd hab nofun
  | str s, b, c, hab, hbc => by
    cases b with
    | str t =>
      cases c with
      | str u => exact some_lt_trans hab hbc
      | _ => exact absurd hbc nofun
    | _ => exact absurd hab nofun
  | version v, b, c, hab, hbc => by
    cases b with
    | version w =>
      cases c with
      | version x => exact some_lt_trans hab hbc
      | _ => exact absurd hbc nofun
    | _ => exact absurd hab nofun
  | bool x, b, c, hab, hbc => by
    cases b with
    | bool y =>
      cases c with
      | bool z => exact some_lt_trans hab hbc
      | _ => exact absurd hbc nofun
    | _ => exact absurd hab nofun
  | list as, b, c, hab, hbc => by
    cases b with
    | list bs =>
      cases c with
      | list cs => exact orderItems_lt_trans hab hbc
      | _ => exact absurd hbc nofun
    | _ => exact absurd hab nofun

theorem orderItems_lt_trans : ∀ {as bs cs : List Value}, orderItems as bs = some .lt →
    orderItems bs cs = some .lt → orderItems as cs = some .lt
  | [], bs, cs, hab, hbc => by
    cases cs with
    | nil => cases bs <;> exact absurd hbc nofun
    | cons c cs => rfl
  | a :: as, bs, cs, hab, hbc => by
    cases bs with
    | nil => exact absurd hab nofun
    | cons b bs =>
      cases cs with
      | nil => exact absurd hbc nofun
      | cons c cs =>
        rw [orderItems_cons] at hab hbc ⊢
        by_cases heq : a = b
        · subst heq
          rw [if_pos rfl] at hab
          split at hbc
          · next hac => rw [if_pos hac, orderItems_lt_trans hab hbc]
          · next hac => rw [if_neg hac, hbc]
        · rw [if_neg heq] at hab
          split at hbc
          · next heq' => rw [← heq', if_neg heq, hab]
          · have hac := order_lt_trans hab hbc
            rw [if_neg, hac]
            rintro rfl
            exact absurd ((order_self a).symm.trans hac) nofun

end

end BuildMatrix.Value
