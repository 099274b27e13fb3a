/-!
# Slices of work

The items of a run are divided among jobs: each job but the last takes the same number of consecutive
items. Slices are counted from one and are computed on machine words, as jobs and items are counted.
-/

namespace BuildMatrix

/-- The items from `start` to `stop`, both counted from one and included. It is empty if `stop` is
before `start`. -/
structure Slice where
  start : UInt64
  stop : UInt64
  deriving DecidableEq, Repr

namespace Slice

/-- The number of items for each of some jobs: as few as are enough for all items. -/
def share (total count : UInt64) : UInt64 :=
  if total % count = 0 then total / count else total / count + 1

/-- The slice of a job. No job counts as one job, and the job before the first one as the first. -/
def ofJob (total count index : UInt64) : Slice :=
  let perJob := share total (max count 1)
  ⟨perJob * (max index 1 - 1) + 1, min (perJob * max index 1) total⟩

/-- The items of a slice. -/
def select {α : Type} (s : Slice) (items : List α) : List α :=
  if s.stop < s.start then []
  else (items.drop (s.start - 1).toNat).take (s.stop + 1 - s.start).toNat

end Slice

end BuildMatrix
