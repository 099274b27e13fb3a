/-!
# Tables

A table gives values to keys. It keeps the order in which keys were first given a value.
-/

namespace BuildMatrix

/-- Keys with their values. -/
abbrev Table (κ ν : Type) :=
  List (κ × ν)

namespace Table

variable {κ ν : Type} [DecidableEq κ]

/-- The value of a key. -/
def get? (k : κ) : Table κ ν → Option ν
  | [] => none
  | (k', v) :: rest => if k = k' then some v else get? k rest

/-- Gives a key a value, in the place of its old one if it has one and at the end otherwise. -/
def insert (k : κ) (v : ν) : Table κ ν → Table κ ν
  | [] => [(k, v)]
  | (k', v') :: rest => if k = k' then (k, v) :: rest else (k', v') :: insert k v rest

/-- The keys in order. -/
def keys (t : Table κ ν) : List κ :=
  t.map Prod.fst

@[simp] theorem get?_nil (k : κ) : get? k ([] : Table κ ν) = none := rfl

theorem get?_insert (k k' : κ) (v : ν) (t : Table κ ν) :
    get? k' (insert k v t) = if k' = k then some v else get? k' t := by
  induction t with
  | nil => simp [insert, get?]
  | cons p rest ih =>
    obtain ⟨a, b⟩ := p
    by_cases ha : k = a
    · subst ha
      by_cases h : k' = k <;> simp [insert, get?, h]
    · by_cases h : k' = a
      · subst h
        simp [insert, get?, ha, Ne.symm ha]
      · simp [insert, get?, ha, h, ih]

end Table

end BuildMatrix
