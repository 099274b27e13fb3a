import BuildMatrix.Build.Slice
import Mathlib.Data.UInt

/-!
# Slices cover the work

The slices of all jobs, one after the other, are the whole list. They are computed on machine words,
and for fewer than `2 ^ 63` items no operation on the way wraps around.

* `Slice.perJob`: the number of items for each job, as a number without bounds.
* `Slice.toNat_share`, `Slice.toNat_start`, `Slice.toNat_stop`: the words are these numbers.
* `Slice.NeverWraps`, `Slice.neverWraps`: no operation on words goes out of their bounds.
* `Slice.select_ofJob`: the items of a job.
* `Slice.flatMap_take_drop`: the items of all jobs together.
-/

namespace BuildMatrix.Slice

/-! ## The number of items for each job -/

/-- The number of items for each of some jobs, as few as are enough for all. -/
def perJob (n c : Nat) : Nat :=
  (n + c - 1) / c

section

variable {n c i : Nat}

theorem perJob_of_mod_eq_zero (hc : 1 ≤ c) (h : n % c = 0) : perJob n c = n / c := by
  have hn := Nat.div_add_mod n c
  have hlt : c - 1 < c := by omega
  have hsplit : n + c - 1 = c * (n / c) + (c - 1) := by omega
  rw [perJob, hsplit, Nat.mul_add_div (by omega), Nat.div_eq_of_lt hlt, Nat.add_zero]

theorem perJob_of_mod_ne_zero (hc : 1 ≤ c) (h : n % c ≠ 0) : perJob n c = n / c + 1 := by
  have hn := Nat.div_add_mod n c
  have hmod : n % c < c := Nat.mod_lt n (by omega)
  have hlt : n % c - 1 < c := by omega
  have hsplit : n + c - 1 = c * (n / c + 1) + (n % c - 1) := by
    rw [Nat.mul_add, Nat.mul_one]
    omega
  rw [perJob, hsplit, Nat.mul_add_div (by omega), Nat.div_eq_of_lt hlt, Nat.add_zero]

theorem perJob_mul_le (n c : Nat) : perJob n c * c ≤ n + c - 1 :=
  Nat.div_mul_le_self _ _

/-- The jobs together have room for all items. -/
theorem le_perJob_mul (hc : 1 ≤ c) : n ≤ perJob n c * c := by
  have hdiv := Nat.div_add_mod (n + c - 1) c
  have hlt : (n + c - 1) % c < c := Nat.mod_lt _ (by omega)
  rw [perJob, Nat.mul_comm]
  omega

/-- With more jobs than items a job has one item at most. -/
theorem perJob_le_one (h : n < c) : perJob n c ≤ 1 := by
  rw [perJob]
  exact Nat.le_of_lt_succ ((Nat.div_lt_iff_lt_mul (by omega)).mpr (by omega))

/-- The room of all jobs together is counted by a word. -/
theorem perJob_mul_lt (hn : n < 2 ^ 63) (hc : c < 2 ^ 64) : perJob n c * c < 2 ^ 64 := by
  have hle := perJob_mul_le n c
  by_cases h : n < c
  · have hone := Nat.mul_le_mul_right c (perJob_le_one h)
    omega
  · omega

/-- The room of the jobs before one of them and the room of the job itself. -/
theorem perJob_mul_pred_add (hi : 1 ≤ i) :
    perJob n c * (i - 1) + perJob n c = perJob n c * i := by
  obtain ⟨j, rfl⟩ := Nat.exists_eq_add_of_le' hi
  rw [Nat.add_sub_cancel, Nat.mul_add, Nat.mul_one]

end

/-! ## Words -/

section

variable {total count index : UInt64}

theorem toNat_add_of_lt {a b : UInt64} (h : a.toNat + b.toNat < 2 ^ 64) :
    (a + b).toNat = a.toNat + b.toNat := by
  rw [UInt64.toNat_add, Nat.mod_eq_of_lt h]

theorem toNat_mul_of_lt {a b : UInt64} (h : a.toNat * b.toNat < 2 ^ 64) :
    (a * b).toNat = a.toNat * b.toNat := by
  rw [UInt64.toNat_mul, Nat.mod_eq_of_lt h]

theorem toNat_pred {a : UInt64} (h : 1 ≤ a) : (a - 1).toNat = a.toNat - 1 :=
  UInt64.toNat_sub_of_le a 1 h

theorem one_le_toNat {a : UInt64} (h : 1 ≤ a) : 1 ≤ a.toNat :=
  UInt64.le_iff_toNat_le.mp h

theorem max_one_eq_self {a : UInt64} (h : 1 ≤ a) : max a 1 = a := by
  rw [← UInt64.toNat_inj, UInt64.toNat_max]
  exact Nat.max_eq_left (one_le_toNat h)

theorem one_le_max_one (a : UInt64) : 1 ≤ max a 1 := by
  rw [UInt64.le_iff_toNat_le, UInt64.toNat_max]
  exact Nat.le_max_right _ _

/-- There is a word after the quotient of fewer than `2 ^ 63` items. -/
theorem toNat_div_succ_lt (hn : total.toNat < 2 ^ 63) (count : UInt64) :
    (total / count).toNat + 1 < 2 ^ 64 := by
  have hle := Nat.div_le_self total.toNat count.toNat
  rw [UInt64.toNat_div]
  omega

theorem toNat_share (hn : total.toNat < 2 ^ 63) (hc : 1 ≤ count) :
    (share total count).toNat = perJob total.toNat count.toNat := by
  have hmod : total % count = 0 ↔ total.toNat % count.toNat = 0 := by
    rw [← UInt64.toNat_inj, UInt64.toNat_mod]
    rfl
  rw [share]
  split
  · next h =>
    rw [perJob_of_mod_eq_zero (one_le_toNat hc) (hmod.mp h), UInt64.toNat_div]
  · next h =>
    rw [perJob_of_mod_ne_zero (one_le_toNat hc) (mt hmod.mpr h),
      toNat_add_of_lt (toNat_div_succ_lt hn count), UInt64.toNat_div]
    rfl

end

/-- Whether no operation on words goes out of their bounds, when the slice of a job is computed,
when it is cut out of the list, and when the items in it are numbered. -/
structure NeverWraps (total count index : UInt64) : Prop where
  quotient_add_one : (total / max count 1).toNat + 1 < 2 ^ 64
  index_sub_one : 1 ≤ (max index 1).toNat
  before_mul : (share total (max count 1)).toNat * (max index 1 - 1).toNat < 2 ^ 64
  before_add_one : (share total (max count 1) * (max index 1 - 1)).toNat + 1 < 2 ^ 64
  upTo_mul : (share total (max count 1)).toNat * (max index 1).toNat < 2 ^ 64
  start_sub_one : 1 ≤ (ofJob total count index).start.toNat
  stop_add_one : (ofJob total count index).stop.toNat + 1 < 2 ^ 64
  stop_sub_start : (ofJob total count index).start ≤ (ofJob total count index).stop →
    (ofJob total count index).start.toNat ≤ ((ofJob total count index).stop + 1).toNat
  start_add_offset : (ofJob total count index).start ≤ (ofJob total count index).stop →
    ∀ offset, offset <
        ((ofJob total count index).stop + 1 - (ofJob total count index).start).toNat →
      (ofJob total count index).start.toNat + offset < 2 ^ 64

section

variable {total count index : UInt64}

/-- The products of a computation for one of the jobs are counted by words. -/
theorem perJob_mul_index_lt (hn : total.toNat < 2 ^ 63) (hle : index ≤ count) :
    perJob total.toNat count.toNat * index.toNat < 2 ^ 64 :=
  Nat.lt_of_le_of_lt (Nat.mul_le_mul_left _ (UInt64.le_iff_toNat_le.mp hle))
    (perJob_mul_lt hn count.toNat_lt)

theorem toNat_before (hn : total.toNat < 2 ^ 63) (hi : 1 ≤ index) (hle : index ≤ count) :
    (share total count * (index - 1)).toNat =
      perJob total.toNat count.toNat * (index.toNat - 1) := by
  have hlt := perJob_mul_index_lt hn hle
  have hmono := Nat.mul_le_mul_left (perJob total.toNat count.toNat) (Nat.sub_le index.toNat 1)
  have hshare := toNat_share hn (UInt64.le_trans hi hle)
  rw [toNat_mul_of_lt (by rw [hshare, toNat_pred hi]; omega), hshare, toNat_pred hi]

theorem before_succ_lt (hn : total.toNat < 2 ^ 63) (hi : 1 ≤ index) (hle : index ≤ count) :
    perJob total.toNat count.toNat * (index.toNat - 1) + 1 < 2 ^ 64 := by
  have hlt := perJob_mul_index_lt hn hle
  have hadd := perJob_mul_pred_add (n := total.toNat) (c := count.toNat) (one_le_toNat hi)
  -- a job with an item has room for it, and without items there is nothing before the job
  by_cases h : perJob total.toNat count.toNat = 0
  · rw [h, Nat.zero_mul]
    decide
  · have hcount := perJob_mul_lt hn count.toNat_lt
    omega

theorem toNat_start (hn : total.toNat < 2 ^ 63) (hi : 1 ≤ index) (hle : index ≤ count) :
    (ofJob total count index).start.toNat =
      perJob total.toNat count.toNat * (index.toNat - 1) + 1 := by
  have hbefore := toNat_before hn hi hle
  rw [ofJob, max_one_eq_self hi, max_one_eq_self (UInt64.le_trans hi hle)]
  show (share total count * (index - 1) + 1).toNat = _
  rw [toNat_add_of_lt (by rw [hbefore]; exact before_succ_lt hn hi hle), hbefore]
  rfl

theorem toNat_stop (hn : total.toNat < 2 ^ 63) (hi : 1 ≤ index) (hle : index ≤ count) :
    (ofJob total count index).stop.toNat =
      min (perJob total.toNat count.toNat * index.toNat) total.toNat := by
  have hshare := toNat_share hn (UInt64.le_trans hi hle)
  rw [ofJob, max_one_eq_self hi, max_one_eq_self (UInt64.le_trans hi hle)]
  show (min (share total count * index) total).toNat = _
  rw [UInt64.toNat_min, toNat_mul_of_lt (by rw [hshare]; exact perJob_mul_index_lt hn hle), hshare]

/-- The job before the first one gets the slice of the first one. -/
theorem ofJob_max_one (total count index : UInt64) :
    ofJob total count (max index 1) = ofJob total count index := by
  rw [ofJob, ofJob, max_one_eq_self (one_le_max_one index)]

/-- **No operation wraps around**, for fewer than `2 ^ 63` items, any number of jobs and any of
them. -/
theorem neverWraps (hn : total.toNat < 2 ^ 63) (hc : 1 ≤ count) (hle : index ≤ count) :
    NeverWraps total count index := by
  have hi : 1 ≤ max index 1 := one_le_max_one index
  have hle' : max index 1 ≤ count := by
    rw [UInt64.le_iff_toNat_le, UInt64.toNat_max]
    exact Nat.max_le.mpr ⟨UInt64.le_iff_toNat_le.mp hle, one_le_toNat hc⟩
  have hshare := toNat_share hn hc
  have hbefore := before_succ_lt hn hi hle'
  have hupTo := perJob_mul_index_lt hn hle'
  have hstart := toNat_start hn hi hle'
  have hstop := toNat_stop hn hi hle'
  rw [ofJob_max_one] at hstart hstop
  have hstopSucc : (ofJob total count index).stop.toNat + 1 < 2 ^ 64 := by omega
  have hstopAdd : ((ofJob total count index).stop + 1).toNat =
      (ofJob total count index).stop.toNat + 1 := toNat_add_of_lt hstopSucc
  -- Every word is the number that it stands for, so what is left are bounds on numbers.
  constructor
  · exact toNat_div_succ_lt hn _
  · exact one_le_toNat hi
  · rw [max_one_eq_self hc, hshare, toNat_pred hi]
    omega
  · rw [max_one_eq_self hc, toNat_before hn hi hle']
    exact hbefore
  · rw [max_one_eq_self hc, hshare]
    exact hupTo
  · omega
  · exact hstopSucc
  · intro h
    rw [UInt64.le_iff_toNat_le] at h
    omega
  · intro h offset hoffset
    rw [UInt64.le_iff_toNat_le] at h
    rw [UInt64.toNat_sub_of_le _ _ (UInt64.le_iff_toNat_le.mpr (by omega)), hstopAdd] at hoffset
    omega

end

/-! ## Items -/

variable {α : Type} {items : List α} {count index : UInt64}

theorem toNat_length (hn : items.length < 2 ^ 63) :
    items.length.toUInt64.toNat = items.length :=
  Nat.mod_eq_of_lt (by omega)

/-- The items of a job. -/
theorem select_ofJob (hn : items.length < 2 ^ 63) (hi : 1 ≤ index) (hle : index ≤ count) :
    (ofJob items.length.toUInt64 count index).select items =
      (items.drop (perJob items.length count.toNat * (index.toNat - 1))).take
        (perJob items.length count.toNat) := by
  have hn' : items.length.toUInt64.toNat < 2 ^ 63 := by rwa [toNat_length hn]
  have hstart := toNat_start hn' hi hle
  have hstop := toNat_stop hn' hi hle
  have hadd := perJob_mul_pred_add (n := items.length) (c := count.toNat) (one_le_toNat hi)
  rw [toNat_length hn] at hstart hstop
  rw [select]
  split
  · next h =>
    -- either there is no room in the job, or the items end before it
    rw [UInt64.lt_iff_toNat_lt] at h
    by_cases hzero : perJob items.length count.toNat = 0
    · rw [hzero, List.take_zero]
    · rw [List.drop_eq_nil_of_le (by omega), List.take_nil]
  · next h =>
    rw [UInt64.lt_iff_toNat_lt] at h
    have hfirst : 1 ≤ (ofJob items.length.toUInt64 count index).start :=
      UInt64.le_iff_toNat_le.mpr (by rw [hstart]; exact Nat.le_add_left _ _)
    have hlast : ((ofJob items.length.toUInt64 count index).stop + 1).toNat =
        (ofJob items.length.toUInt64 count index).stop.toNat + 1 :=
      toNat_add_of_lt (by rw [hstop]; show min _ _ + 1 < _; omega)
    rw [toNat_pred hfirst, UInt64.toNat_sub_of_le _ _ (UInt64.le_iff_toNat_le.mpr (by omega)),
      hlast, hstart, hstop, Nat.add_sub_cancel, Nat.add_sub_add_right, List.take_eq_take_iff,
      List.length_drop]
    omega

/-- Consecutive parts of equal length are the list as far as they reach. -/
theorem flatMap_take_drop (items : List α) (per n : Nat) :
    (List.range n).flatMap (fun j => (items.drop (per * j)).take per) = items.take (per * n) := by
  induction n with
  | zero => simp
  | succ n ih =>
    rw [List.range_succ, List.flatMap_append, ih, List.flatMap_singleton, Nat.mul_succ,
      List.take_add]

end BuildMatrix.Slice
