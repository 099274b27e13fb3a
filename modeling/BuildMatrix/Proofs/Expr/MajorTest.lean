import BuildMatrix.Expr.Parser
import BuildMatrix.Proofs.Expr.VersionTest
import BuildMatrix.Proofs.Outcome
import BuildMatrix.Sdk.Basic

/-!
# Two tests of the major version

A number can be compared with the version of the SDK, where it stands for a major version, or with
the major version alone, which is read as a signed word. By `>=` and `<` the two tests ask the same:
what follows the major version can only raise it. They have the same answer as long as a signed word
holds the major version. A larger one is negative when it is read as a signed word, and then the two
tests contradict each other.

* `Version.IsRelease`: the versions that a checkout can have (`Sdk.isRelease_of_loadEnvironment`).
* `Text.asSigned_of_lt`, `Text.asSigned_neg`: numbers that are read as signed words.
* `Version.order_ofNumbers_lt_iff`: a release is below a major version if its own one is.
* `Expr.evaluate_major_test`: when the two tests agree.
-/

namespace BuildMatrix

/-! ## Releases -/

/-- Whether a version is no pre-release and its numbers are unsigned words. -/
structure Version.IsRelease (v : Version) : Prop where
  pre_eq : v.pre = []
  major_lt : v.major < Text.unsignedBound
  minor_lt : v.minor < Text.unsignedBound
  patch_lt : v.patch < Text.unsignedBound

namespace Sdk

theorem lt_unsignedBound_of_versionPart? {line : List Char} {part : String} {n : Nat}
    (h : versionPart? line = some (part, n)) : n < Text.unsignedBound := by
  simp only [versionPart?, Option.bind_eq_bind, Option.bind_eq_some_iff] at h
  obtain ⟨_, -, _, -, _, -, h⟩ := h
  split at h
  · exact absurd h nofun
  · simp only [Option.bind_eq_some_iff] at h
    obtain ⟨_, -, number, -, h⟩ := h
    split at h
    · next hlt =>
      rw [← (Prod.mk.inj (Option.some.inj h)).2]
      exact hlt
    · exact absurd h nofun

/-- What a table holds after entries are put into it is from an entry, or it was there before. -/
theorem mem_or_of_get?_foldl_insert {entries : List (String × Nat)} {t : Table String Nat}
    {key : String} {n : Nat}
    (h : Table.get? key (entries.foldl (fun parts (part, n) => Table.insert part n parts) t) =
      some n) : (key, n) ∈ entries ∨ Table.get? key t = some n := by
  induction entries generalizing t with
  | nil => exact Or.inr h
  | cons e entries ih =>
    rcases ih h with hmem | hget
    · exact Or.inl (List.mem_cons_of_mem e hmem)
    rw [Table.get?_insert] at hget
    split at hget
    · next hkey =>
      rw [hkey, ← Option.some.inj hget]
      exact Or.inl List.mem_cons_self
    · exact Or.inr hget

theorem isRelease_of_readVersion? {content : String} {v : Version}
    (h : readVersion? content = some v) : v.IsRelease := by
  have hlt (key : String) (n : Nat) (hn : Table.get? key (versionParts content) = some n) :
      n < Text.unsignedBound := by
    rcases mem_or_of_get?_foldl_insert hn with hmem | hnone
    · obtain ⟨line, -, hline⟩ := List.mem_filterMap.mp hmem
      exact lt_unsignedBound_of_versionPart? hline
    · rw [Table.get?_nil] at hnone
      exact absurd hnone nofun
  simp only [readVersion?, Option.bind_eq_bind, Option.bind_eq_some_iff] at h
  obtain ⟨major, hmajor, minor, hminor, patch, hpatch, hv⟩ := h
  rw [← Option.some.inj hv]
  exact ⟨rfl, hlt _ _ hmajor, hlt _ _ hminor, hlt _ _ hpatch⟩

theorem isRelease_of_loadVersion {d : Disk} {root : Path} {v : Version}
    (h : loadVersion d root = .ok v) : v.IsRelease := by
  simp only [loadVersion] at h
  split at h
  · exact absurd h nofun
  split at h
  · exact absurd h nofun
  split at h
  · next hread =>
    rw [← Except.ok.inj h]
    exact isRelease_of_readVersion? hread
  · exact absurd h nofun

/-- The version of a checkout is a release, also where it is not known. -/
theorem isRelease_of_loadEnvironment {d : Disk} {root : Path} {env : Environment}
    (h : loadEnvironment d root = .ok env) : env.sdkVersion.IsRelease := by
  unfold loadEnvironment at h
  split at h
  · exact absurd h nofun
  · rw [← Except.ok.inj h, Environment.sdkVersion]
    cases hload : loadVersion d root with
    | ok v => exact isRelease_of_loadVersion hload
    | error e =>
      show Version.IsRelease ⟨0, 0, 0, [], []⟩
      exact ⟨rfl, by decide, by decide, by decide⟩

end Sdk

/-! ## Signed words -/

namespace Text

variable {n : Nat}

theorem asSigned_of_lt (h : n < signedBound) : asSigned n = n := by
  have hsigned : signedBound = 2 ^ 63 := rfl
  have hunsigned : unsignedBound = 2 ^ 64 := rfl
  rw [asSigned, Int.bmod_eq_of_le] <;> omega

/-- A number that a signed word does not hold is negative when it is read as one. -/
theorem asSigned_neg (h : signedBound ≤ n) (hn : n < unsignedBound) : asSigned n < 0 := by
  have hsigned : signedBound = 2 ^ 63 := rfl
  have hunsigned : unsignedBound = 2 ^ 64 := rfl
  rw [asSigned, Int.bmod_def, Int.emod_eq_of_lt (by omega) (by omega)]
  split <;> omega

/-- Reading a number as a signed word changes what it is less than exactly if the word does not hold
the number. -/
theorem asSigned_lt_iff {m : Nat} (hm : m < unsignedBound) (hn : n < signedBound) :
    (asSigned m < n ↔ m < n) ↔ m < signedBound := by
  by_cases h : m < signedBound
  · rw [asSigned_of_lt h, Int.ofNat_lt]
    exact iff_of_true Iff.rfl h
  · have hneg := asSigned_neg (Nat.le_of_not_lt h) hm
    exact iff_of_false (fun hiff => by omega) h

end Text

/-! ## Orders -/

/-- What follows the major version does not put a release below a major version alone. -/
theorem Version.order_ofNumbers_lt_iff {v : Version} (hpre : v.pre = []) (n : Nat) :
    v.order (ofNumbers [n]) = .lt ↔ v.major < n := by
  have hbuild : compareParts compareBuild v.build [] ≠ .lt := by
    cases v.build <;> exact nofun
  rw [order, hpre, Ordering.then_eq_lt]
  show compare v.major n = .lt ∨ _ ↔ _
  rw [compare_lt_iff_lt]
  refine ⟨fun h => h.resolve_right fun hrest => ?_, Or.inl⟩
  simp [ofNumbers, Ordering.then_eq_lt, compare_lt_iff_lt, comparePrePart, hbuild] at hrest

/-- The operators that ask whether one side is below the other have the same answer for two orders
exactly if these agree on that. -/
theorem Value.holdsOrder_eq_iff {op : CompareOp} (hop : op = .ge ∨ op = .lt) {o o' : Ordering} :
    holdsOrder op o = holdsOrder op o' ↔ (o = .lt ↔ o' = .lt) := by
  rcases hop with rfl | rfl <;> cases o <;> cases o' <;> decide

namespace Expr

open Value

variable {ctx : Context} {op : CompareOp}

/-- A comparison of an attribute with a number. -/
def numberTest (name : String) (op : CompareOp) (n : Nat) : Expr :=
  compare (.attr name) op (.literal (.int n))

theorem isMembership_of_ge_or_lt (hop : op = .ge ∨ op = .lt) : op.isMembership = false := by
  rcases hop with rfl | rfl <;> rfl

theorem evaluate_numberTest_version (hop : op = .ge ∨ op = .lt) (hpre : ctx.env.sdkVersion.pre = [])
    (n : Nat) : (numberTest "IDF_VERSION" op n).evaluate ctx =
      .ok (.bool (holdsOrder op (Ord.compare ctx.env.sdkVersion.major n))) := by
  have hleft : (Operand.attr "IDF_VERSION").value ctx = .version ctx.env.sdkVersion := rfl
  have hright : ((Operand.literal (.int n)).value ctx).toVersion =
      some (Version.ofNumbers [n]) := by
    show (if 0 ≤ (n : Int) then some (⟨(n : Int).toNat, 0, 0, [], []⟩ : Version) else none) = _
    rw [if_pos (Int.natCast_nonneg n), Int.toNat_natCast]
    rfl
  have hanswer : holdsOrder op (ctx.env.sdkVersion.order (Version.ofNumbers [n])) =
      holdsOrder op (Ord.compare ctx.env.sdkVersion.major n) := by
    rw [holdsOrder_eq_iff hop, Version.order_ofNumbers_lt_iff hpre, compare_lt_iff_lt]
  rw [numberTest, evaluate, hleft, compareWith_version (isMembership_of_ge_or_lt hop) hright,
    hanswer]
  rfl

theorem evaluate_numberTest_major (hop : op = .ge ∨ op = .lt) (n : Nat) :
    (numberTest "IDF_VERSION_MAJOR" op n).evaluate ctx =
      .ok (.bool (holdsOrder op
        (Ord.compare (Text.asSigned ctx.env.sdkVersion.major) (n : Int)))) := by
  have hleft : (Operand.attr "IDF_VERSION_MAJOR").value ctx =
      .int (Text.asSigned ctx.env.sdkVersion.major) := rfl
  rw [numberTest, evaluate, hleft,
    compareWith_of_not_isVersion (isMembership_of_ge_or_lt hop) rfl]
  rcases hop with rfl | rfl <;> rfl

/-- **Two tests of the major version.** Where the version of the SDK is a release, comparing it with
a number by `>=` or `<` always has an answer, the one of its major version. Comparing the major
version alone gives the same answer exactly as long as a signed word holds it. Otherwise the answer
is the opposite one, for every number that can be written. -/
theorem evaluate_major_test (hop : op = .ge ∨ op = .lt) (hrelease : ctx.env.sdkVersion.IsRelease)
    {n : Nat} (hn : n < Text.signedBound) :
    (numberTest "IDF_VERSION" op n).evaluate ctx =
        .ok (.bool (decide (op.Relates ctx.env.sdkVersion.major n))) ∧
      ((numberTest "IDF_VERSION_MAJOR" op n).evaluate ctx =
          (numberTest "IDF_VERSION" op n).evaluate ctx ↔
        ctx.env.sdkVersion.major < Text.signedBound) ∧
      (Text.signedBound ≤ ctx.env.sdkVersion.major →
        (numberTest "IDF_VERSION_MAJOR" op n).evaluate ctx =
          .ok (.bool (!decide (op.Relates ctx.env.sdkVersion.major n)))) := by
  have hagree : holdsOrder op (Ord.compare (Text.asSigned ctx.env.sdkVersion.major) (n : Int)) =
      holdsOrder op (Ord.compare ctx.env.sdkVersion.major n) ↔
        ctx.env.sdkVersion.major < Text.signedBound := by
    rw [holdsOrder_eq_iff hop, compare_lt_iff_lt, compare_lt_iff_lt]
    exact Text.asSigned_lt_iff hrelease.major_lt hn
  rw [evaluate_numberTest_major hop, evaluate_numberTest_version hop hrelease.pre_eq,
    ← holdsOrder_compare (isMembership_of_ge_or_lt hop)]
  refine ⟨rfl, ?_, fun hlarge => ?_⟩
  · rw [Except.ok.injEq, Value.bool.injEq, hagree]
  · have hne := mt hagree.mp (Nat.not_lt.mpr hlarge)
    rw [Bool.eq_not.mpr hne]

theorem evaluate_major_test_sample :
    (numberTest "IDF_VERSION_MAJOR" .lt 5).evaluate (sdkContext 5 1 2) = .ok (.bool false) ∧
      (numberTest "IDF_VERSION" .lt 5).evaluate (sdkContext 5 1 2) = .ok (.bool false) := by
  have hrelease : (sdkContext 5 1 2).env.sdkVersion.IsRelease :=
    ⟨rfl, by decide, by decide, by decide⟩
  obtain ⟨hversion, hagree, -⟩ :=
    evaluate_major_test (Or.inr rfl) hrelease (show 5 < Text.signedBound by decide)
  have hfalse : (numberTest "IDF_VERSION" .lt 5).evaluate (sdkContext 5 1 2) =
      .ok (.bool false) := hversion
  exact ⟨(hagree.mpr (by decide)).trans hfalse, hfalse⟩

/-- From `2 ^ 63` on a major version is negative when it is read as a signed word. -/
theorem contrary_tests_sample :
    parse "IDF_VERSION_MAJOR >= 0" = .ok (numberTest "IDF_VERSION_MAJOR" .ge 0) ∧
      parse "IDF_VERSION >= 0" = .ok (numberTest "IDF_VERSION" .ge 0) ∧
      (numberTest "IDF_VERSION_MAJOR" .ge 0).evaluate (sdkContext 9223372036854775808 0 0) =
        .ok (.bool false) ∧
      (numberTest "IDF_VERSION" .ge 0).evaluate (sdkContext 9223372036854775808 0 0) =
        .ok (.bool true) := by
  refine ⟨eq_ok_of_toOption (by decide +kernel), eq_ok_of_toOption (by decide +kernel), ?_, ?_⟩
  · exact eq_ok_of_toOption (by decide +kernel)
  · exact eq_ok_of_toOption (by decide +kernel)

end Expr

end BuildMatrix
