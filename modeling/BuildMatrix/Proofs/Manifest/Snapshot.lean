import BuildMatrix.Manifest.Snapshot
import BuildMatrix.Proofs.Disk.Writing
import BuildMatrix.Proofs.Manifest.Loaded

/-!
# Snapshots detect changes exactly

A snapshot is written by one manifest and compared with another one that has the same root. Where
each folder is written on one line that does not begin with white space, nothing is lost on the way.

* `Manifest.readSnapshot_snapshot`: a snapshot reads as the digests that it was written from.
* `Manifest.mem_changedFolders_iff`: a folder is reported when the two manifests give it different
  digests, or only one of them gives it any.
* `Manifest.compareSnapshot_of_writeSnapshot`: both together, through a file.
-/

namespace BuildMatrix

/-! ## Digests -/

namespace Sha512

/-- The digits that digests are written in. -/
def hexDigits : List Char :=
  ['0', '1', '2', '3', '4', '5', '6', '7', '8', '9', 'a', 'b', 'c', 'd', 'e', 'f']

theorem hexDigit_mem (n : Nat) : hexDigit n ∈ hexDigits := by
  have h : ∀ k : Fin 16, (Nat.toDigits 16 k).headD '0' ∈ hexDigits := by decide
  exact h ⟨n % 16, Nat.mod_lt _ (by decide)⟩

theorem mem_hexDigits_of_mem_hexDigest {s : String} {c : Char}
    (h : c ∈ (hexDigest s).toList) : c ∈ hexDigits := by
  rw [hexDigest, String.toList_ofList] at h
  obtain ⟨b, -, hc⟩ := List.mem_flatMap.mp h
  rcases List.mem_cons.mp hc with rfl | hc
  · exact hexDigit_mem _
  · rw [List.mem_singleton.mp hc]
    exact hexDigit_mem _

theorem hexDigest_ne_nil (s : String) : (hexDigest s).toList ≠ [] := by
  rw [hexDigest, String.toList_ofList, digest, State.toWords, List.flatMap_cons, bigEndian]
  exact List.cons_ne_nil _ _

end Sha512

namespace Rule

theorem toList_sha_ne_nil (r : Rule) : r.sha.toList ≠ [] :=
  Sha512.hexDigest_ne_nil _

theorem notMem_sha {c : Char} (h : c ∉ Sha512.hexDigits) (r : Rule) : c ∉ r.sha.toList :=
  fun hc => h (Sha512.mem_hexDigits_of_mem_hexDigest hc)

theorem isBlank_of_mem_sha {r : Rule} {c : Char} (h : c ∈ r.sha.toList) :
    Text.isBlank c = false := by
  have hdigits : (Sha512.hexDigits.all fun d => !Text.isBlank d) = true := by decide
  simpa using List.all_eq_true.mp hdigits c (Sha512.mem_hexDigits_of_mem_hexDigest h)

end Rule

namespace Manifest

variable {m old : Manifest}

/-! ## Lines -/

/-- Whether every folder is written on one line that does not begin with white space. -/
def HasPlainLines (m : Manifest) : Prop :=
  ∀ r ∈ m.rules, '\n' ∉ (r.folder.relativeTo m.root).text.toList ∧
    ∀ c ∈ (r.folder.relativeTo m.root).text.toList.head?, Text.isBlank c = false

instance (m : Manifest) : Decidable m.HasPlainLines :=
  decidable_of_iff
    (∀ r ∈ m.rules, '\n' ∉ (r.folder.relativeTo m.root).text.toList ∧
      ((r.folder.relativeTo m.root).text.toList.head?.all fun c => !Text.isBlank c) = true)
    (by simp [HasPlainLines, Option.all_eq_true])

/-- The line of a rule without its line feed. -/
def lineOf (root : Path) (r : Rule) : List Char :=
  (r.folder.relativeTo root).text.toList ++ ':' :: r.sha.toList

theorem toList_snapshot (m : Manifest) :
    m.snapshot.toList = (m.rules.map (lineOf m.root)).flatMap (· ++ ['\n']) := by
  have hline : ∀ r, (snapshotLine m.root r).toList = lineOf m.root r ++ ['\n'] := by
    intro r
    simp [snapshotLine, lineOf]
  rw [snapshot, String.toList_join, List.flatMap_map, List.flatMap_map]
  simp only [hline]

theorem getLast?_lineOf (root : Path) (r : Rule) :
    (lineOf root r).getLast? = r.sha.toList.getLast? := by
  obtain ⟨c, cs, hsha⟩ := List.exists_cons_of_ne_nil r.toList_sha_ne_nil
  rw [lineOf, hsha, List.getLast?_append, List.getLast?_cons_cons]
  cases h : (c :: cs).getLast? with
  | none => exact absurd (List.getLast?_eq_none_iff.mp h) (List.cons_ne_nil _ _)
  | some d => rfl

/-- The lines of a snapshot are the lines of the rules. -/
theorem linesOf_snapshot (h : m.HasPlainLines) :
    Text.linesOf m.snapshot.toList = m.rules.map (lineOf m.root) := by
  rw [toList_snapshot]
  refine Text.linesOf_flatMap (fun l hl => ?_) fun l hl => ?_
  · obtain ⟨r, hr, rfl⟩ := List.mem_map.mp hl
    have hsha : '\n' ∉ r.sha.toList := r.notMem_sha (by decide)
    simp [lineOf, (h r hr).1, hsha]
  · obtain ⟨r, -, rfl⟩ := List.mem_map.mp hl
    rw [getLast?_lineOf]
    intro hlast
    exact r.notMem_sha (by decide) (List.mem_of_getLast? hlast)

/-- The line of a rule is not trimmed. -/
theorem trimChars_lineOf {root : Path} {r : Rule} (hr : r.folder.IsNormal)
    (h : ∀ c ∈ (r.folder.relativeTo root).text.toList.head?, Text.isBlank c = false) :
    Text.trimChars (lineOf root r) = lineOf root r := by
  obtain ⟨x, xs, hrel⟩ :=
    List.exists_cons_of_ne_nil (Path.text_relativeTo_ne_empty hr.isAbsolute)
  refine Text.trimChars_eq_self (fun c hc => h c ?_) fun c hc => ?_
  · rw [lineOf, hrel, List.cons_append, List.head?_cons] at hc
    rwa [hrel, List.head?_cons]
  · rw [getLast?_lineOf] at hc
    exact Rule.isBlank_of_mem_sha (List.mem_of_getLast? hc)

/-- The line of a rule is taken apart into its folder and its digest. -/
theorem splitLine?_lineOf {root : Path} {r : Rule} (hr : r.folder.IsNormal) :
    splitLine? (lineOf root r) = some ((r.folder.relativeTo root).text, r.sha) := by
  have hcolon : ':' ∉ r.sha.toList := r.notMem_sha (by decide)
  have hcut := Text.cutAtLast_append_cons (r.folder.relativeTo root).text.toList hcolon
  obtain ⟨c, cs, hrel⟩ :=
    List.exists_cons_of_ne_nil (Path.text_relativeTo_ne_empty hr.isAbsolute)
  obtain ⟨d, ds, hsha⟩ := List.exists_cons_of_ne_nil r.toList_sha_ne_nil
  rw [splitLine?, lineOf, hcut, hrel, hsha]
  simp only [← hrel, ← hsha, String.ofList_toList]

/-! ## Recording -/

/-- The digests of a manifest, in the order of the folders. -/
def digests (m : Manifest) : Recorded :=
  m.rules.map fun r => (r.folder, r.sha)

/-- A folder behind all the recorded ones is recorded at the end. -/
theorem record_eq_append {folder : Path} (sha : String) {recorded : Recorded}
    (h : ∀ e ∈ recorded, e.1.order folder = .lt) :
    record folder sha recorded = recorded ++ [(folder, sha)] := by
  induction recorded with
  | nil => rfl
  | cons e recorded ih =>
    obtain ⟨p, s⟩ := e
    have hgt : folder.order p = .gt := Path.order_gt_iff.mpr (h (p, s) List.mem_cons_self)
    rw [record, hgt]
    exact congrArg _ (ih fun e he => h e (List.mem_cons_of_mem _ he))

/-- Reading the lines of rules in order records one after the other. -/
theorem readLines_lineOf (file : Path) {root : Path} (hroot : root.IsNormal)
    {rules : List Rule} (hrising : Path.IsRising Rule.folder rules)
    (hnormal : ∀ r ∈ rules, r.folder.IsNormal)
    (hplain : ∀ r ∈ rules, ∀ c ∈ (r.folder.relativeTo root).text.toList.head?,
      Text.isBlank c = false)
    {recorded : Recorded} (hrecorded : ∀ e ∈ recorded, ∀ r ∈ rules, e.1.order r.folder = .lt)
    (i : Nat) :
    readLines file root recorded ((rules.map (lineOf root)).zipIdx i) =
      .ok (recorded ++ rules.map fun r => (r.folder, r.sha)) := by
  induction rules generalizing recorded i with
  | nil => simp [readLines]
  | cons r rules ih =>
    obtain ⟨hlt, hrising'⟩ := List.pairwise_cons.mp hrising
    have hr := hnormal r List.mem_cons_self
    have htrim := trimChars_lineOf hr (hplain r List.mem_cons_self)
    obtain ⟨c, cs, hline⟩ : ∃ c cs, lineOf root r = c :: cs :=
      List.exists_cons_of_ne_nil (by simp [lineOf])
    have hback : Path.absolutize ⟨(r.folder.relativeTo root).text⟩ root = r.folder :=
      Path.absolutize_relativeTo hr hroot
    have hrecord : record r.folder r.sha recorded = recorded ++ [(r.folder, r.sha)] :=
      record_eq_append r.sha fun e he => hrecorded e he r List.mem_cons_self
    -- The folder just recorded is below those of all later lines, which are therefore appended.
    have hnext : ∀ e ∈ recorded ++ [(r.folder, r.sha)], ∀ s ∈ rules,
        e.1.order s.folder = .lt := by
      intro e he s hs
      rcases List.mem_append.mp he with he | he
      · exact hrecorded e he s (List.mem_cons_of_mem _ hs)
      · rw [List.mem_singleton.mp he]
        exact hlt s hs
    rw [List.map_cons, List.zipIdx_cons, readLines, htrim, hline]
    simp only
    rw [← hline, splitLine?_lineOf hr]
    simp only
    rw [hback, hrecord, ih hrising' (fun s hs => hnormal s (List.mem_cons_of_mem _ hs))
      (fun s hs => hplain s (List.mem_cons_of_mem _ hs)) hnext, List.append_assoc]
    rfl

/-- **Reading a snapshot.** A snapshot reads as the digests that it was written from. -/
theorem readSnapshot_snapshot (hm : m.IsSound) (h : m.HasPlainLines) (file : Path) :
    readSnapshot file m.root m.snapshot = .ok m.digests := by
  rw [readSnapshot, linesOf_snapshot h]
  exact readLines_lineOf file hm.isNormal_root hm.isRising hm.isNormal_folder
    (fun r hr => (h r hr).2) (by simp) 0

/-! ## Comparing -/

/-- The digest that a manifest gives to a folder, if it has a rule for it. -/
def shaAt? (m : Manifest) (folder : Path) : Option String :=
  (m.ruleAt? folder.components).map Rule.sha

theorem shaAt?_folder (hm : m.IsSound) {r : Rule} (hr : r ∈ m.rules) :
    m.shaAt? r.folder = some r.sha := by
  rw [shaAt?, (ruleAt?_eq_some_iff hm).mpr ⟨hr, rfl⟩]
  rfl

theorem shaAt?_eq_some_iff (hm : m.IsSound) {p : Path} (hp : p.IsNormal) {sha : String} :
    m.shaAt? p = some sha ↔ ∃ r ∈ m.rules, r.folder = p ∧ r.sha = sha := by
  rw [shaAt?, Option.map_eq_some_iff]
  constructor
  · rintro ⟨r, hr, hsha⟩
    obtain ⟨hmem, hcomp⟩ := (ruleAt?_eq_some_iff hm).mp hr
    exact ⟨r, hmem, (hm.isNormal_folder r hmem).ext hp hcomp, hsha⟩
  · rintro ⟨r, hmem, rfl, hsha⟩
    exact ⟨r, (ruleAt?_eq_some_iff hm).mpr ⟨hmem, rfl⟩, hsha⟩

theorem shaAt?_eq_none_iff {p : Path} :
    m.shaAt? p = none ↔ ∀ r ∈ m.rules, r.folder.components ≠ p.components := by
  rw [shaAt?, Option.map_eq_none_iff, ruleAt?_eq_none_iff]

/-- Whether a recorded folder is reported. -/
theorem all_ruleAt?_ne_iff {folder : Path} {sha : String} :
    (m.ruleAt? folder.components).all (fun r => decide (r.sha ≠ sha)) = true ↔
      m.shaAt? folder ≠ some sha := by
  rw [shaAt?]
  cases m.ruleAt? folder.components <;> simp

/-- Whether a folder is recorded. -/
theorem any_same_digests_iff {folder : Path} :
    (old.digests.any fun e => e.1.same folder) = true ↔ old.shaAt? folder ≠ none := by
  rw [ne_eq, shaAt?_eq_none_iff]
  simp [digests, Path.same]

theorem mem_changes_iff {p : Path} :
    p ∈ m.changes old.digests ↔
      (∃ r ∈ old.rules, r.folder = p ∧ m.shaAt? p ≠ some r.sha) ∨
        ∃ r ∈ m.rules, r.folder = p ∧ old.shaAt? p = none := by
  rw [changes, List.mem_append]
  refine or_congr ?_ ?_
  · simp only [List.mem_map, List.mem_filter, digests]
    constructor
    · rintro ⟨e, ⟨⟨r, hr, rfl⟩, hsha⟩, rfl⟩
      exact ⟨r, hr, rfl, all_ruleAt?_ne_iff.mp hsha⟩
    · rintro ⟨r, hr, rfl, hsha⟩
      exact ⟨_, ⟨⟨r, hr, rfl⟩, all_ruleAt?_ne_iff.mpr hsha⟩, rfl⟩
  · simp only [List.mem_map, List.mem_filter, Bool.not_eq_true', ← Bool.not_eq_true,
      any_same_digests_iff, ne_eq, Decidable.not_not]
    constructor
    · rintro ⟨r, ⟨hr, hnone⟩, rfl⟩
      exact ⟨r, hr, rfl, hnone⟩
    · rintro ⟨r, hr, rfl, hnone⟩
      exact ⟨r, ⟨hr, hnone⟩, rfl⟩

theorem isNormal_of_mem_changes (hm : m.IsSound) (hold : old.IsSound) {p : Path}
    (h : p ∈ m.changes old.digests) : p.IsNormal := by
  rcases mem_changes_iff.mp h with ⟨r, hr, rfl, -⟩ | ⟨r, hr, rfl, -⟩
  · exact hold.isNormal_folder r hr
  · exact hm.isNormal_folder r hr

/-- **Comparing with digests.** A folder is reported when the two manifests give it different
digests, or only one of them gives it any. -/
theorem mem_changedFolders_iff (hm : m.IsSound) (hold : old.IsSound) {p : Path} :
    p ∈ m.changedFolders old.digests ↔ p.IsNormal ∧ old.shaAt? p ≠ m.shaAt? p := by
  have hsort : p ∈ m.changedFolders old.digests ↔ p ∈ m.changes old.digests := by
    refine Path.mem_sortNew_iff fun q hq r hr hqr => ?_
    exact (isNormal_of_mem_changes hm hold hr).ext (isNormal_of_mem_changes hm hold hq) hqr.symm
  rw [hsort]
  constructor
  · intro h
    refine ⟨isNormal_of_mem_changes hm hold h, ?_⟩
    rcases mem_changes_iff.mp h with ⟨r, hr, rfl, hsha⟩ | ⟨r, hr, rfl, hnone⟩
    · rw [shaAt?_folder hold hr]
      exact Ne.symm hsha
    · rw [hnone, shaAt?_folder hm hr]
      exact (Option.some_ne_none _).symm
  · rintro ⟨hp, hne⟩
    rw [mem_changes_iff]
    cases hsha : old.shaAt? p with
    | some sha =>
      obtain ⟨r, hr, hfolder, rfl⟩ := (shaAt?_eq_some_iff hold hp).mp hsha
      exact Or.inl ⟨r, hr, hfolder, fun h => hne (by rw [hsha, h])⟩
    | none =>
      have hsome : m.shaAt? p ≠ none := fun h => hne (by rw [hsha, h])
      obtain ⟨sha, hm'⟩ := Option.ne_none_iff_exists'.mp hsome
      obtain ⟨r, hr, hfolder, -⟩ := (shaAt?_eq_some_iff hm hp).mp hm'
      exact Or.inr ⟨r, hr, hfolder, rfl⟩

theorem readText_of_writeSnapshot {d d' : Disk} {file : Path}
    (h : m.writeSnapshot d file = .ok d') : d'.readText file = .ok m.snapshot := by
  rw [writeSnapshot, mapError_eq_ok_iff] at h
  exact Disk.readText_of_writeText h

/-- Comparing with a written snapshot is comparing with the digests of the manifest that wrote
it. -/
theorem compareSnapshot_of_writeSnapshot (hold : old.IsSound) (hroot : old.root = m.root)
    (hplain : old.HasPlainLines) {d d' : Disk} {file : Path}
    (hw : old.writeSnapshot d file = .ok d') :
    m.compareSnapshot d' file true = .ok (m.changedFolders old.digests) := by
  rw [compareSnapshot, readText_of_writeSnapshot hw, ← hroot]
  simp only [readSnapshot_snapshot hold hplain file, if_true]

/-- The folders of the rules. -/
def folders (m : Manifest) : List Path :=
  m.rules.map Rule.folder

/-- Two manifest files. Between them one folder gains a rule, one loses it, and one of the others,
whose name contains a colon, has another rule. -/
def sampleDisk : Disk where
  tree := .folder [("w", .folder [
    ("new.yml", .file (.text "/w:\na:b:\nlib:\n/out:\n")),
    ("old.yml", .file (.text ("/w:\na:b:\n  depends_components: [soc]\n" ++
      "apps:\n  depends_components: [soc]\n/out:\n")))])]
  cwd := ["w"]

/-- A rule of a sample file. -/
def sampleRule (file folder : String) (components : List String) : Rule where
  folder := ⟨folder⟩
  components := .flat components
  filePatterns := .flat []
  file := some ⟨file⟩

/-- The manifest before the change. -/
def sampleOld : Manifest where
  rules := [sampleRule "old.yml" "/out" [], sampleRule "old.yml" "/w" [],
    sampleRule "old.yml" "/w/a:b" ["soc"], sampleRule "old.yml" "/w/apps" ["soc"]]
  root := ⟨"/w"⟩

/-- The manifest after the change. -/
def sampleNew : Manifest where
  rules := [sampleRule "new.yml" "/out" [], sampleRule "new.yml" "/w" [],
    sampleRule "new.yml" "/w/a:b" [], sampleRule "new.yml" "/w/lib" []]
  root := ⟨"/w"⟩

/-- A dependency makes a difference to the digest, whatever the folder and the file. -/
theorem sha_sampleRule_ne (file folder file' folder' : String) :
    (sampleRule file folder ["soc"]).sha ≠ (sampleRule file' folder' []).sha := by
  show Sha512.hexDigest (sampleRule "" "" ["soc"]).canonicalText ≠
    Sha512.hexDigest (sampleRule "" "" []).canonicalText
  decide +kernel

theorem load_sampleOld : load sampleDisk [⟨"old.yml"⟩] ⟨"."⟩ false = .ok sampleOld :=
  eq_ok_of_toOption (by decide +kernel)

theorem load_sampleNew : load sampleDisk [⟨"new.yml"⟩] ⟨"."⟩ false = .ok sampleNew :=
  eq_ok_of_toOption (by decide +kernel)

theorem hasPlainLines_sampleOld : sampleOld.HasPlainLines := by
  decide +kernel

theorem writeSnapshot_sampleOld : ∃ d', sampleOld.writeSnapshot sampleDisk ⟨"shas"⟩ = .ok d' :=
  ⟨_, rfl⟩

end Manifest

end BuildMatrix
