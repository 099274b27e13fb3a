import BuildMatrix.Proofs.Build.Protocol
import BuildMatrix.Proofs.Build.Slice
import Mathlib.Data.List.Forall2

/-!
# Jobs share the work

When each of some jobs builds its slice of the same apps and keeps going after failures, the jobs
together visit each app once, in order, and number the apps from one on.

* `Build.numbered`: apps with their numbers.
* `Build.forall₂_of_isTranscript`: a job that visits its whole slice numbers it.
* `Build.flatMap_numbered_slices`: the numbered slices of all jobs are the numbered list.
* `Build.jobs_partition`: the jobs together.
-/

namespace BuildMatrix.Build

/-- Apps that are numbered one after the other, the first one with `start`. -/
def numbered (start : Nat) (apps : List App) : List App :=
  (apps.zipIdx start).map fun (a, k) => { a with index := some k }

/-! ## One job -/

section

variable {b : Builder} {o : Options} {d d' : Disk} {start : Nat} {slice visited : List App}
  {reports : List (List Step)}

/-- A job that visits its whole slice numbers the apps in it and keeps, apart from their status and
comment, all else. -/
theorem forall₂_of_isTranscript (h : IsTranscript b o start d slice visited reports d')
    (hlength : visited.length = slice.length) :
    List.Forall₂ IsSameBuild (numbered start slice) visited := by
  induction h with
  | done index d slice =>
    rw [List.eq_nil_of_length_eq_zero hlength.symm]
    exact .nil
  | visit hreport _ _ ih => exact .cons hreport.isSameBuild (ih (Nat.succ.inj hlength))

theorem collect_of_collectFile_eq_none (h : o.collectFile = none) (d : Disk) (a : App) :
    collect o d a = (d, none) := by
  rw [collect, h]

/-- Only writing records can make a run be given up. -/
theorem fault_visitAll_eq_none (h : o.collectFile = none) (slice : List App) (index : Nat)
    (d : Disk) : (visitAll b o index d slice).fault = none := by
  induction slice generalizing index d with
  | nil => rfl
  | cons a rest ih =>
    rw [visitAll]
    dsimp only
    rw [collect_of_collectFile_eq_none h]
    dsimp only
    split
    · rfl
    · exact ih (index + 1) _

theorem fault_run_eq_none (h : o.collectFile = none) (apps : List App) :
    (run b o d apps).fault = none := by
  have hvisits := fault_visitAll_eq_none (b := b) h ((sliceOf o apps).select (App.sorted apps))
    (sliceOf o apps).start.toNat d
  rw [run]
  simp [hvisits]

/-- A job that keeps going numbers its slice. -/
theorem forall₂_run (hkeep : o.keepGoing = true) (hcollect : o.collectFile = none)
    (apps : List App) :
    List.Forall₂ IsSameBuild
      (numbered (sliceOf o apps).start.toNat ((sliceOf o apps).select (App.sorted apps)))
      (run b o d apps).apps := by
  have hfault := fault_run_eq_none (b := b) (d := d) hcollect apps
  obtain ⟨done, rfl, hok, hrun⟩ := run_of_fault_eq_none hfault
  obtain ⟨reports, -, htranscript⟩ := exists_transcript b o _ _ d hok
  rw [hrun]
  exact forall₂_of_isTranscript htranscript (visits_all b o _ _ d hok (Or.inl hkeep))

/-- A job whose slice is empty does nothing. -/
theorem run_of_select_eq_nil {apps : List App}
    (h : (sliceOf o apps).select (App.sorted apps) = []) :
    run b o d apps = { disk := d, steps := [.reported (total [])] } := by
  rw [run, h]
  rfl

end

/-! ## All jobs -/

/-- A part of a numbered list is the part with its own numbers. -/
theorem take_drop_numbered (apps : List App) (start before size : Nat) :
    ((numbered start apps).drop before).take size =
      numbered (start + before) ((apps.drop before).take size) := by
  apply List.ext_getElem?
  intro k
  simp only [numbered, List.getElem?_take, List.getElem?_drop, List.getElem?_map,
    List.getElem?_zipIdx]
  split
  · simp [Nat.add_assoc]
  · rfl

theorem length_sorted (apps : List App) : (App.sorted apps).length = apps.length :=
  List.length_mergeSort apps

theorem length_numbered (start : Nat) (apps : List App) :
    (numbered start apps).length = apps.length := by
  simp [numbered]

theorem forall₂_flatMap {ι α β : Type} {R : α → β → Prop} {f : ι → List α} {g : ι → List β}
    (l : List ι) (h : ∀ i ∈ l, List.Forall₂ R (f i) (g i)) :
    List.Forall₂ R (l.flatMap f) (l.flatMap g) := by
  induction l with
  | nil => exact .nil
  | cons i l ih =>
    rw [List.flatMap_cons, List.flatMap_cons]
    exact List.rel_append (h i List.mem_cons_self) (ih fun j hj => h j (List.mem_cons_of_mem _ hj))

section

variable {o : Options} {apps : List App} {count : UInt64} {i : Nat}

/-- The options of one of some jobs. -/
def Options.ofJob (o : Options) (count : UInt64) (i : Nat) : Options :=
  { o with jobCount := count.toNat, jobIndex := i }

theorem sliceOf_ofJob (o : Options) (apps : List App) (count : UInt64) (i : Nat) :
    sliceOf (o.ofJob count i) apps = .ofJob (App.sorted apps).length.toUInt64 count i.toUInt64 := by
  rw [sliceOf, length_sorted]
  show Slice.ofJob _ count.toNat.toUInt64 _ = _
  rw [Nat.toUInt64, UInt64.ofNat_toNat]
  rfl

/-- The number of a job is a word. -/
theorem toNat_jobIndex (hle : i ≤ count.toNat) : i.toUInt64.toNat = i :=
  Nat.mod_eq_of_lt (Nat.lt_of_le_of_lt hle count.toNat_lt)

theorem jobIndex_bounds (hi : 1 ≤ i) (hle : i ≤ count.toNat) :
    1 ≤ i.toUInt64 ∧ i.toUInt64 ≤ count := by
  rw [UInt64.le_iff_toNat_le, UInt64.le_iff_toNat_le, toNat_jobIndex hle]
  exact ⟨hi, hle⟩

/-- Where a job starts in the sorted list. -/
theorem toNat_start_sliceOf (hlength : apps.length < 2 ^ 63) (hi : 1 ≤ i)
    (hle : i ≤ count.toNat) :
    (sliceOf (o.ofJob count i) apps).start.toNat =
      Slice.perJob apps.length count.toNat * (i - 1) + 1 := by
  obtain ⟨hi', hle'⟩ := jobIndex_bounds hi hle
  have hsorted : (App.sorted apps).length < 2 ^ 63 := by rwa [length_sorted]
  have hwords : (App.sorted apps).length.toUInt64.toNat < 2 ^ 63 := by
    rwa [Slice.toNat_length hsorted]
  rw [sliceOf_ofJob, Slice.toNat_start hwords hi' hle', Slice.toNat_length hsorted,
    length_sorted, toNat_jobIndex hle]

/-- What a job takes of the sorted list. -/
theorem select_sliceOf (hlength : apps.length < 2 ^ 63) (hi : 1 ≤ i) (hle : i ≤ count.toNat) :
    (sliceOf (o.ofJob count i) apps).select (App.sorted apps) =
      ((App.sorted apps).drop (Slice.perJob apps.length count.toNat * (i - 1))).take
        (Slice.perJob apps.length count.toNat) := by
  obtain ⟨hi', hle'⟩ := jobIndex_bounds hi hle
  have hsorted : (App.sorted apps).length < 2 ^ 63 := by rwa [length_sorted]
  rw [sliceOf_ofJob, Slice.select_ofJob hsorted hi' hle', length_sorted, toNat_jobIndex hle]

/-- The numbered slice of a job is a part of the numbered list. -/
theorem numbered_slice (hlength : apps.length < 2 ^ 63) (hi : 1 ≤ i) (hle : i ≤ count.toNat) :
    numbered (sliceOf (o.ofJob count i) apps).start.toNat
        ((sliceOf (o.ofJob count i) apps).select (App.sorted apps)) =
      ((numbered 1 (App.sorted apps)).drop
        (Slice.perJob apps.length count.toNat * (i - 1))).take
          (Slice.perJob apps.length count.toNat) := by
  rw [toNat_start_sliceOf hlength hi hle, select_sliceOf hlength hi hle, take_drop_numbered,
    Nat.add_comm 1]

/-- The numbered slices of all jobs, one after the other, are the numbered list. -/
theorem flatMap_numbered_slices (o : Options) (hlength : apps.length < 2 ^ 63)
    (hcount : 1 ≤ count) :
    (List.range' 1 count.toNat).flatMap (fun i =>
        numbered (sliceOf (o.ofJob count i) apps).start.toNat
          ((sliceOf (o.ofJob count i) apps).select (App.sorted apps))) =
      numbered 1 (App.sorted apps) := by
  have hroom := Slice.le_perJob_mul (n := apps.length) (Slice.one_le_toNat hcount)
  have hslices : ∀ j ∈ List.range count.toNat,
      numbered (sliceOf (o.ofJob count (1 + j)) apps).start.toNat
          ((sliceOf (o.ofJob count (1 + j)) apps).select (App.sorted apps)) =
        ((numbered 1 (App.sorted apps)).drop (Slice.perJob apps.length count.toNat * j)).take
          (Slice.perJob apps.length count.toNat) := by
    intro j hj
    rw [numbered_slice hlength (by omega) (by have := List.mem_range.mp hj; omega),
      Nat.add_sub_cancel_left]
  rw [List.range'_eq_map_range, List.flatMap_map, List.flatMap_congr hslices,
    Slice.flatMap_take_drop]
  exact List.take_of_length_le (by rwa [length_numbered, length_sorted])

end

/-- **Jobs partition the work.** When each of some jobs runs over the same apps and keeps going,
none of them is given up, and together they visit the apps in order, each once, and number them
from one on. A job beyond the end of the list does nothing, and no word wraps around on the way. -/
theorem jobs_partition (b : Builder) (o : Options) (apps : List App) (count : UInt64)
    (disks : Nat → Disk) (hlength : apps.length < 2 ^ 63) (hcount : 1 ≤ count)
    (hkeep : o.keepGoing = true) (hcollect : o.collectFile = none) :
    (∀ i, (run b (o.ofJob count i) (disks i) apps).fault = none) ∧
      List.Forall₂ IsSameBuild (numbered 1 (App.sorted apps))
        ((List.range' 1 count.toNat).flatMap fun i =>
          (run b (o.ofJob count i) (disks i) apps).apps) ∧
      (∀ i, 1 ≤ i → i ≤ count.toNat →
        apps.length < (sliceOf (o.ofJob count i) apps).start.toNat →
          run b (o.ofJob count i) (disks i) apps =
            { disk := disks i, steps := [.reported (total [])] }) ∧
      ∀ index ≤ count, Slice.NeverWraps apps.length.toUInt64 count index := by
  refine ⟨fun i => fault_run_eq_none (o := o.ofJob count i) hcollect apps, ?_,
    fun i hi hle hbeyond => ?_, fun index hle =>
      Slice.neverWraps (by rwa [Slice.toNat_length hlength]) hcount hle⟩
  · rw [← flatMap_numbered_slices o hlength hcount]
    exact forall₂_flatMap _ fun i _ => forall₂_run (o := o.ofJob count i) hkeep hcollect apps
  · refine run_of_select_eq_nil ?_
    rw [toNat_start_sliceOf hlength hi hle] at hbeyond
    rw [select_sliceOf hlength hi hle, List.drop_eq_nil_of_le (by rw [length_sorted]; omega),
      List.take_nil]

/-- Five jobs share three apps, one of which fails: the last two jobs do nothing. -/
theorem jobs_partition_sample :
    let job (i : Nat) :=
      run sampleBuilder (({ keepGoing := true } : Options).ofJob 5 i) default sampleApps
    List.Forall₂ IsSameBuild (numbered 1 sampleApps)
        ((List.range' 1 5).flatMap fun i => (job i).apps) ∧
      job 4 = { disk := default, steps := [.reported (total [])] } ∧
      Slice.NeverWraps 3 5 5 := by
  obtain ⟨-, hall, hbeyond, hwraps⟩ := jobs_partition sampleBuilder { keepGoing := true }
    sampleApps 5 (fun _ => default) (by decide) (by decide) rfl rfl
  rw [sorted_sampleApps] at hall
  exact ⟨hall, hbeyond 4 (by decide) (by decide) (by decide +kernel), hwraps 5 (by decide)⟩

end BuildMatrix.Build
