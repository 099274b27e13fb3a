import BuildMatrix.Proofs.Value.Order

/-!
# The comparison operators fit together

An ordering operator asks for the order of the two sides, after these have been read as versions if
one of them is a version. So the four of them have an answer together, and each answer is read off
the one order. Equality needs no order, but the two sides are the same ones.

* `Value.sides`: what is compared.
* `Value.ordering`: the order of the two sides, if they have one.
* `Value.answer_of_isOrdering`, `Value.answer_eq_of_ordering`: the answers by the order.
* `Value.answers_fit_together`: the laws of the operators.
-/

namespace BuildMatrix

/-- Whether an operator asks for an order. -/
def CompareOp.isOrdering : CompareOp → Bool
  | lt | le | gt | ge => true
  | eq | ne | isIn | notIn => false

namespace Value

variable {a b c : Value} {op : CompareOp} {o : Ordering}

/-- The answer of an operator, if there is one. -/
def answer (op : CompareOp) (a b : Value) : Option Bool :=
  (compareWith op a b).toOption

/-- What is compared by an operator other than membership: the two values, or the versions that they
stand for if one of them is a version. -/
def sides (a b : Value) : Option (Value × Value) :=
  if a.isVersion || b.isVersion then
    a.toVersion.bind fun v => b.toVersion.map fun w => (version v, version w)
  else some (a, b)

/-- The order of what is compared. -/
def ordering (a b : Value) : Option Ordering :=
  (sides a b).bind fun p => order p.1 p.2

/-! ## Operators other than membership -/

section

variable (h : op.isMembership = false)

include h

theorem compareWith_of_not_isVersion (hversion : (a.isVersion || b.isVersion) = false) :
    compareWith op a b = compareSame op a b := by
  cases op with
  | isIn | notIn => exact absurd h nofun
  | _ => simp only [compareWith, hversion, Bool.false_eq_true, if_false]

theorem compareWith_of_versions {v w : Version} (hversion : (a.isVersion || b.isVersion) = true)
    (ha : a.toVersion = some v) (hb : b.toVersion = some w) :
    compareWith op a b = compareSame op (version v) (version w) := by
  cases op with
  | isIn | notIn => exact absurd h nofun
  | _ => simp only [compareWith, hversion, ha, hb, if_true]

/-- A value that stands for no version is not compared with one. -/
theorem compareWith_of_toVersion_eq_none (hversion : (a.isVersion || b.isVersion) = true)
    (hnone : a.toVersion = none ∨ b.toVersion = none) :
    compareWith op a b = .error (.incomparable a op b) := by
  cases op with
  | isIn | notIn => exact absurd h nofun
  | _ =>
    rcases hnone with ha | hb
    · simp only [compareWith, hversion, ha, if_true]
    · cases ha : a.toVersion <;> simp only [compareWith, hversion, ha, hb, if_true]

end

/-! ## Answers -/

/-- Operators other than membership compare the two sides, if there are two. -/
theorem answer_of_sides (h : op.isMembership = false) :
    answer op a b = (sides a b).bind fun p => (compareSame op p.1 p.2).toOption := by
  rw [answer, sides]
  cases hversion : a.isVersion || b.isVersion with
  | false =>
    rw [compareWith_of_not_isVersion h hversion]
    rfl
  | true =>
    cases ha : a.toVersion with
    | none =>
      rw [compareWith_of_toVersion_eq_none h hversion (Or.inl ha)]
      rfl
    | some v =>
      cases hb : b.toVersion with
      | none =>
        rw [compareWith_of_toVersion_eq_none h hversion (Or.inr hb)]
        rfl
      | some w =>
        rw [compareWith_of_versions h hversion ha hb]
        rfl

theorem answer_eq_of_sides : answer .eq a b = (sides a b).map fun p => p.1 == p.2 := by
  rw [answer_of_sides rfl, Option.map_eq_bind]
  rfl

theorem answer_ne : answer .ne a b = (answer .eq a b).map not := by
  rw [answer_eq_of_sides, answer_of_sides rfl, Option.map_map, Option.map_eq_bind]
  rfl

theorem answer_notIn : answer .notIn a b = (answer .isIn a b).map not := by
  simp only [answer, compareWith]
  split
  · cases isIn a.stringify b.stringify <;> rfl
  · cases isIn a b <;> rfl

/-- Ordering operators have an answer where there is an order. -/
theorem answer_of_isOrdering (h : op.isOrdering = true) :
    answer op a b = (ordering a b).map (holdsOrder op) := by
  have hmembership : op.isMembership = false := by
    cases op with
    | isIn | notIn => exact absurd h nofun
    | _ => rfl
  have hsame (x y : Value) :
      (compareSame op x y).toOption = (order x y).map (holdsOrder op) := by
    cases op with
    | lt | le | gt | ge => cases hxy : order x y <;> simp only [compareSame, hxy] <;> rfl
    | _ => exact absurd h nofun
  rw [answer_of_sides hmembership, ordering, Option.map_bind]
  exact congrArg _ (funext fun p => hsame p.1 p.2)

/-- Where there is an order, equality has an answer too, and the order gives it. -/
theorem answer_eq_of_ordering (h : ordering a b = some o) : answer .eq a b = some (o == .eq) := by
  obtain ⟨⟨x, y⟩, hsides, horder⟩ := Option.bind_eq_some_iff.mp h
  rw [answer_eq_of_sides, hsides, Option.map_some]
  refine congrArg some (Bool.eq_iff_iff.mpr ?_)
  rw [beq_iff_eq, beq_iff_eq, ← order_eq_iff, horder, Option.some.injEq]

/-! ## The other side, and three values -/

theorem sides_swap (a b : Value) : sides b a = (sides a b).map Prod.swap := by
  rw [sides, sides, Bool.or_comm]
  split
  · cases a.toVersion <;> cases b.toVersion <;> rfl
  · rfl

theorem ordering_swap (a b : Value) : ordering b a = (ordering a b).map Ordering.swap := by
  rw [ordering, ordering, sides_swap, Option.bind_map, Option.map_bind]
  exact congrArg _ (funext fun p => order_swap p.1 p.2)

/-- Values that are no versions are compared as they are. -/
theorem ordering_of_not_isVersion (ha : a.isVersion = false) (hb : b.isVersion = false) :
    ordering a b = order a b := by
  rw [ordering, sides, ha, hb]
  rfl

theorem answer_lt_eq_true_iff (ha : a.isVersion = false) (hb : b.isVersion = false) :
    answer .lt a b = some true ↔ order a b = some .lt := by
  rw [answer_of_isOrdering rfl, ordering_of_not_isVersion ha hb]
  rcases order a b with _ | _ | _ | _ <;> simp [holdsOrder]

/-- **The comparison operators fit together.** `!=` is the negation of `==`, and `not in` that of
`in`. The four ordering operators all fail, or all of them and `==` have an answer: then one of
less, equal and greater holds, and the other two operators join two of these. Exchanging the sides
exchanges less and greater. Between values that are no versions themselves, being less carries over.
-/
theorem answers_fit_together (a b : Value) :
    answer .ne a b = (answer .eq a b).map not ∧
    answer .notIn a b = (answer .isIn a b).map not ∧
    ((∀ op : CompareOp, op.isOrdering = true → answer op a b = none) ∨
      ∃ less equal greater : Bool, [less, equal, greater].count true = 1 ∧
        answer .lt a b = some less ∧ answer .eq a b = some equal ∧
        answer .gt a b = some greater ∧ answer .le a b = some (less || equal) ∧
        answer .ge a b = some (greater || equal)) ∧
    answer .lt a b = answer .gt b a ∧
    ∀ c : Value, a.isVersion = false → b.isVersion = false → c.isVersion = false →
      answer .lt a b = some true → answer .lt b c = some true → answer .lt a c = some true := by
  refine ⟨answer_ne, answer_notIn, ?_, ?_, ?_⟩
  · cases h : ordering a b with
    | none =>
      refine Or.inl fun op hop => ?_
      rw [answer_of_isOrdering hop, h, Option.map_none]
    | some o =>
      refine Or.inr ⟨o == .lt, o == .eq, o == .gt, ?_, ?_, answer_eq_of_ordering h, ?_, ?_, ?_⟩
      · cases o <;> rfl
      all_goals
        rw [answer_of_isOrdering rfl, h]
        cases o <;> rfl
  · rw [answer_of_isOrdering rfl, answer_of_isOrdering rfl, ordering_swap a b, Option.map_map]
    refine congrArg (Option.map · _) (funext fun o => ?_)
    cases o <;> rfl
  · intro c ha hb hc hab hbc
    rw [answer_lt_eq_true_iff ha hb] at hab
    rw [answer_lt_eq_true_iff hb hc] at hbc
    exact (answer_lt_eq_true_iff ha hc).mpr (order_lt_trans hab hbc)

/-- Being less carries over between lists, but not by way of a version: next to it the numbers of a
text count, and between texts their characters. -/
theorem answers_fit_together_sample :
    (answer .lt (list [int 1, str "x"]) (list [int 2]) = some true ∧
      answer .lt (list [int 2]) (list [int 2, bool true]) = some true ∧
      answer .lt (list [int 1, str "x"]) (list [int 2, bool true]) = some true) ∧
    answer .lt (str "9") (version ⟨10, 0, 0, [], []⟩) = some true ∧
      answer .lt (version ⟨10, 0, 0, [], []⟩) (str "11") = some true ∧
      answer .lt (str "9") (str "11") = some false := by
  have hab : answer .lt (list [int 1, str "x"]) (list [int 2]) = some true := by decide +kernel
  have hbc : answer .lt (list [int 2]) (list [int 2, bool true]) = some true := by decide +kernel
  refine ⟨⟨hab, hbc, (answers_fit_together _ _).2.2.2.2 _ rfl rfl rfl hab hbc⟩, ?_⟩
  decide +kernel

end Value

end BuildMatrix
