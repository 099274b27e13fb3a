import BuildMatrix.Proofs.Outcome
import BuildMatrix.Proofs.Text.Lines
import BuildMatrix.Sdk.Config
import Mathlib.Data.List.Nodup

/-!
# Configuration files are read back

A configuration file that holds one line `KEY="value"` for each of some entries, among blank lines
and lines that begin with a hash, is read as the table of these entries, where the last value of a
key counts. The value may hold quotes, hashes and equals signs: the quotes at its two ends are taken
off once.

* `Sdk.WritesEntry`, `Sdk.IsIdleLine`: the lines of such a file; `Sdk.WritesConfig`: all of them.
* `Sdk.readEntry?_of_writesEntry`, `Sdk.readEntry?_of_isIdleLine`: what is read in a line.
* `Sdk.readConfig_of_writesConfig`: what is read in a file.
* `Sdk.configs_read_back`: the last value of a key counts, within a file and across files.
-/

namespace BuildMatrix

/-! ## The keys of a table -/

namespace Table

variable {κ ν : Type} [DecidableEq κ]

theorem keys_insert (k : κ) (v : ν) (t : Table κ ν) :
    keys (insert k v t) = if k ∈ keys t then keys t else keys t ++ [k] := by
  induction t with
  | nil => rfl
  | cons e t ih =>
    obtain ⟨k', v'⟩ := e
    by_cases hk : k = k'
    · subst hk
      simp [insert, keys]
    · have hmem : k ∈ keys ((k', v') :: t) ↔ k ∈ keys t := by simp [keys, hk]
      simp only [insert, if_neg hk, hmem]
      show k' :: keys (insert k v t) = _
      rw [ih]
      split <;> rfl

/-- No key has two values. -/
theorem nodup_keys_insert {t : Table κ ν} (h : (keys t).Nodup) (k : κ) (v : ν) :
    (keys (insert k v t)).Nodup := by
  rw [keys_insert]
  split
  · exact h
  · next hk =>
    rw [List.nodup_append]
    refine ⟨h, List.nodup_singleton k, fun a ha b hb => ?_⟩
    rw [List.mem_singleton.mp hb]
    exact ne_of_mem_of_not_mem ha hk

end Table

namespace Sdk

open Text

/-! ## Lines -/

/-- A key that a line can hold. -/
structure IsKey (key : List Char) : Prop where
  ne_nil : key ≠ []
  head : ∀ c ∈ key.head?, isBlank c = false
  last : ∀ c ∈ key.getLast?, isBlank c = false
  notMem_hash : '#' ∉ key
  notMem_equals : '=' ∉ key

theorem isKey_iff {key : List Char} :
    IsKey key ↔ key ≠ [] ∧ key.head?.all (!isBlank ·) = true ∧
      key.getLast?.all (!isBlank ·) = true ∧ '#' ∉ key ∧ '=' ∉ key := by
  simp only [Option.all_eq_true, Bool.not_eq_true']
  exact ⟨fun ⟨h₁, h₂, h₃, h₄, h₅⟩ => ⟨h₁, h₂, h₃, h₄, h₅⟩,
    fun ⟨h₁, h₂, h₃, h₄, h₅⟩ => ⟨h₁, h₂, h₃, h₄, h₅⟩⟩

instance (key : List Char) : Decidable (IsKey key) :=
  decidable_of_iff _ isKey_iff.symm

/-- A line with a key, an equals sign and a quoted value; white space may stand around all three. -/
def WritesEntry (line : List Char) (key value : String) : Prop :=
  IsKey key.toList ∧ ∃ before behindKey beforeValue after : List Char,
    (∀ c ∈ before ++ behindKey ++ beforeValue ++ after, isBlank c = true) ∧
    line = before ++ (key.toList ++ behindKey ++
      '=' :: (beforeValue ++ '"' :: (value.toList ++ ['"']))) ++ after

/-- A blank line, or one that begins with a hash after white space. -/
def IsIdleLine (line : List Char) : Prop :=
  (∀ c ∈ line, isBlank c = true) ∨
    ∃ before text, (∀ c ∈ before, isBlank c = true) ∧ line = before ++ '#' :: text

theorem unquote_quoted (value : List Char) : unquote ('"' :: (value ++ ['"'])) = value := by
  rw [unquote, List.reverse_append, List.reverse_singleton, List.singleton_append]
  exact List.reverse_reverse value

/-- A line is read as what stands on the two sides of its first equals sign. -/
theorem readEntry?_of_cutAtFirst {line key value : List Char}
    (h : cutAtFirst '=' (trimChars line) = some (key, value)) (hkey : key ≠ []) (hhash : '#' ∉ key)
    (hvalue : value ≠ []) : readEntry? line = some (trimChars key, unquote (trimChars value)) := by
  obtain ⟨c, key, rfl⟩ := List.exists_cons_of_ne_nil hkey
  obtain ⟨d, value, rfl⟩ := List.exists_cons_of_ne_nil hvalue
  unfold readEntry?
  rw [h]
  exact if_neg (by rwa [List.contains_iff_mem])

/-- A line with an entry is cut at the equals sign behind its key. -/
theorem cutAtFirst_entry {before key behindKey value after : List Char} (hkey : IsKey key)
    (hbefore : ∀ c ∈ before, isBlank c = true) (hbehindKey : ∀ c ∈ behindKey, isBlank c = true)
    (hafter : ∀ c ∈ after, isBlank c = true) :
    cutAtFirst '=' (trimChars (before ++ (key ++ behindKey ++ '=' :: value) ++ after)) =
      some (key ++ behindKey, dropEndWhile isBlank value) := by
  obtain ⟨c, cs, rfl⟩ := List.exists_cons_of_ne_nil hkey.ne_nil
  have hequals : '=' ∉ c :: cs ++ behindKey := by
    rw [List.mem_append, not_or]
    exact ⟨hkey.notMem_equals, fun h => absurd (hbehindKey _ h) (by decide)⟩
  rw [trimChars_append_blank _ hafter]
  show cutAtFirst '=' (trimChars (before ++ c :: (cs ++ behindKey ++ '=' :: value))) = _
  rw [trimChars_append_cons hbefore (hkey.head c rfl), dropEndWhile_append_cons (by decide)]
  exact cutAtFirst_append_cons _ hequals

/-- The key and the value of an entry are read, without what surrounds them. -/
theorem readEntry?_of_writesEntry {line : List Char} {key value : String}
    (h : WritesEntry line key value) : readEntry? line = some (key.toList, value.toList) := by
  obtain ⟨hkey, before, behindKey, beforeValue, after, hblank, rfl⟩ := h
  simp only [List.forall_mem_append] at hblank
  obtain ⟨⟨⟨hbefore, hbehindKey⟩, hbeforeValue⟩, hafter⟩ := hblank
  have hend : dropEndWhile isBlank (beforeValue ++ '"' :: (value.toList ++ ['"'])) =
      beforeValue ++ '"' :: (value.toList ++ ['"']) := by
    rw [dropEndWhile_append_cons (by decide), dropEndWhile_append_cons (by decide)]
    rfl
  have hvalue : trimChars (beforeValue ++ '"' :: (value.toList ++ ['"'])) =
      '"' :: (value.toList ++ ['"']) := by
    rw [trimChars_append_cons hbeforeValue (by decide), dropEndWhile_append_cons (by decide)]
    rfl
  have hhash : '#' ∉ key.toList ++ behindKey := by
    rw [List.mem_append, not_or]
    exact ⟨hkey.notMem_hash, fun h => absurd (hbehindKey _ h) (by decide)⟩
  have htrim : trimChars (key.toList ++ behindKey) = key.toList := by
    rw [trimChars_append_blank _ hbehindKey, trimChars_eq_self hkey.head hkey.last]
  rw [readEntry?_of_cutAtFirst (cutAtFirst_entry hkey hbefore hbehindKey hafter)
    (List.append_ne_nil_of_left_ne_nil hkey.ne_nil _) hhash (by simp [hend]), htrim, hend, hvalue,
    unquote_quoted]

/-- Blank lines and lines that begin with a hash say nothing. -/
theorem readEntry?_of_isIdleLine {line : List Char} (h : IsIdleLine line) :
    readEntry? line = none := by
  obtain hblank | ⟨before, text, hbefore, rfl⟩ := h
  · unfold readEntry?
    rw [← List.nil_append line, trimChars_append_blank [] hblank]
    rfl
  · unfold readEntry?
    rw [trimChars_append_cons hbefore (by decide), cutAtFirst_cons_of_ne (by decide)]
    cases cutAtFirst '=' (dropEndWhile isBlank text) with
    | none => rfl
    | some sides =>
      obtain ⟨key, value⟩ := sides
      cases value <;> rfl

/-- A carriage return at the end of a line is white space like any other. -/
theorem readEntry?_dropReturn (line : List Char) : readEntry? (dropReturn line) = readEntry? line := by
  rw [dropReturn]
  split
  · next rest hreverse =>
    have hline : line = rest.reverse ++ ['\r'] := by
      rw [← List.reverse_reverse line, hreverse, List.reverse_cons]
    unfold readEntry?
    rw [hline, trimChars_append_blank _ (List.forall_mem_singleton.mpr (by decide))]
  · rfl

/-! ## Files -/

/-- The lines of a file with one line for each of some entries, among idle ones. -/
inductive WritesConfig : List (List Char) → List (String × String) → Prop
  | nil : WritesConfig [] []
  | idle {line : List Char} {lines : List (List Char)} {entries : List (String × String)} :
    IsIdleLine line → WritesConfig lines entries → WritesConfig (line :: lines) entries
  | entry {line : List Char} {key value : String} {lines : List (List Char)}
    {entries : List (String × String)} :
    WritesEntry line key value → WritesConfig lines entries →
      WritesConfig (line :: lines) ((key, value) :: entries)

/-- The table that some entries make up, one after the other. -/
def tableOf (entries : List (String × String)) : Table String String :=
  entries.foldl (fun t e => t.insert e.1 e.2) []

theorem foldl_addEntry_linesOf (t : Table String String) (cs : List Char) :
    (linesOf cs).foldl addEntry t = (piecesOf '\n' cs).foldl addEntry t := by
  have hreturn : (fun (t : Table String String) line => addEntry t (dropReturn line)) = addEntry := by
    funext t line
    rw [addEntry, addEntry, readEntry?_dropReturn]
  have hclosed (ps : List (List Char)) (t : Table String String) :
      (ps.map dropReturn).foldl addEntry t = ps.foldl addEntry t := by
    rw [List.foldl_map, hreturn]
  obtain ⟨ps, last, hps⟩ := (List.eq_nil_or_concat _).resolve_left (piecesOf_ne_nil '\n' cs)
  rw [List.concat_eq_append] at hps
  rw [linesOf, hps, List.dropLast_concat, List.getLast?_concat, List.foldl_append]
  cases last with
  | nil => exact hclosed ps t
  | cons c last =>
    show (ps.map dropReturn ++ [c :: last]).foldl addEntry t = _
    rw [List.foldl_append, hclosed]

theorem foldl_addEntry_of_writesConfig {lines : List (List Char)}
    {entries : List (String × String)} (h : WritesConfig lines entries)
    (t : Table String String) :
    lines.foldl addEntry t = entries.foldl (fun t e => t.insert e.1 e.2) t := by
  induction h generalizing t with
  | nil => rfl
  | idle hline _ ih =>
    rw [List.foldl_cons, addEntry, readEntry?_of_isIdleLine hline]
    exact ih t
  | entry hline _ ih =>
    rw [List.foldl_cons, List.foldl_cons, addEntry, readEntry?_of_writesEntry hline]
    simp only [String.ofList_toList]
    exact ih _

/-- A file is read as the table of its entries. -/
theorem readConfig_of_writesConfig {lines : List (List Char)} {entries : List (String × String)}
    (h : WritesConfig lines entries) (hfeed : ∀ line ∈ lines, '\n' ∉ line) :
    readConfig (String.ofList (List.intercalate ['\n'] lines)) = tableOf entries := by
  rw [readConfig, String.toList_ofList, foldl_addEntry_linesOf]
  cases lines with
  | nil =>
    cases h
    rfl
  | cons line lines =>
    rw [piecesOf_intercalate (List.cons_ne_nil _ _) hfeed]
    exact foldl_addEntry_of_writesConfig h []

/-! ## The last value of a key -/

/-- The last value that some entries give to a key. -/
def lastValue? (key : String) (entries : List (String × String)) : Option String :=
  entries.reverse.lookup key

theorem get?_foldl_insert (key : String) (entries : List (String × String))
    (t : Table String String) :
    Table.get? key (entries.foldl (fun t e => t.insert e.1 e.2) t) =
      (lastValue? key entries).or (Table.get? key t) := by
  induction entries generalizing t with
  | nil => rfl
  | cons e entries ih =>
    obtain ⟨k, v⟩ := e
    rw [List.foldl_cons, ih, Table.get?_insert, lastValue?, lastValue?, List.reverse_cons,
      List.lookup_append, Option.or_assoc]
    congr 1
    by_cases hk : key = k
    · rw [if_pos hk, hk, List.lookup_cons_self]
      rfl
    · rw [if_neg hk, List.lookup_cons, beq_eq_false_iff_ne.mpr hk]
      rfl

/-- The table of some entries gives each key its last value. -/
theorem get?_tableOf (key : String) (entries : List (String × String)) :
    Table.get? key (tableOf entries) = lastValue? key entries := by
  rw [tableOf, get?_foldl_insert]
  exact Option.or_none

/-- No key of the table of some entries has two values. -/
theorem nodup_keys_tableOf (entries : List (String × String)) :
    (Table.keys (tableOf entries)).Nodup := by
  have hfold (t : Table String String) (ht : (Table.keys t).Nodup) :
      (Table.keys (entries.foldl (fun t e => t.insert e.1 e.2) t)).Nodup := by
    induction entries generalizing t with
    | nil => exact ht
    | cons e entries ih => exact ih _ (Table.nodup_keys_insert ht e.1 e.2)
  exact hfold [] List.nodup_nil

theorem lastValue?_eq_none_iff {key : String} {entries : List (String × String)} :
    lastValue? key entries = none ↔ key ∉ entries.map Prod.fst := by
  rw [lastValue?, List.lookup_eq_none_iff]
  simp only [List.mem_reverse, List.mem_map, not_exists, not_and]
  exact forall₂_congr fun e _ => bne_iff_ne.trans ⟨Ne.symm, Ne.symm⟩

/-- Whether a file of a disk holds lines with some entries. -/
def HoldsConfig (d : Disk) (file : Path) (entries : List (String × String)) : Prop :=
  ∃ lines, WritesConfig lines entries ∧ (∀ line ∈ lines, '\n' ∉ line) ∧
    d.readText file = .ok (String.ofList (List.intercalate ['\n'] lines))

theorem loadConfig_of_holdsConfig {d : Disk} {file : Path} {entries : List (String × String)}
    (h : HoldsConfig d file entries) : loadConfig d file = tableOf entries := by
  obtain ⟨lines, hwrites, hfeed, hread⟩ := h
  rw [loadConfig, hread]
  exact readConfig_of_writesConfig hwrites hfeed

/-- The last member of a list with an image. -/
theorem getLast?_filterMap_eq_some_iff {α β : Type} {f : α → Option β} {as : List α} {b : β} :
    (as.filterMap f).getLast? = some b ↔
      ∃ before a after, as = before ++ a :: after ∧ f a = some b ∧ ∀ c ∈ after, f c = none := by
  rw [List.getLast?_filterMap, List.findSome?_eq_some_iff]
  constructor
  · rintro ⟨after, a, before, has, ha, hafter⟩
    refine ⟨before.reverse, a, after.reverse, ?_, ha, fun c hc => hafter c (List.mem_reverse.mp hc)⟩
    rw [← List.reverse_reverse as, has]
    simp
  · rintro ⟨before, a, after, rfl, ha, hafter⟩
    exact ⟨after.reverse, a, before.reverse, by simp, ha,
      fun c hc => hafter c (List.mem_reverse.mp hc)⟩

/-- **Configuration files are read back.** A file with one line `KEY="value"` for each of some entries,
among blank lines, lines that begin with a hash and white space around keys and values, is read as the
table that gives each key its last value. The target that such files pin is the last value of the key
for it in the last file with this key. -/
theorem configs_read_back (d : Disk) :
    (∀ file entries, HoldsConfig d file entries →
      (Table.keys (loadConfig d file)).Nodup ∧
      ∀ key, Table.get? key (loadConfig d file) = lastValue? key entries) ∧
    ∀ files : List (Path × List (String × String)), (∀ f ∈ files, HoldsConfig d f.1 f.2) →
      ∀ target, pinnedTarget d (files.map Prod.fst) = some target ↔
        ∃ before file entries after, files = before ++ (file, entries) :: after ∧
          lastValue? targetKey entries = some target ∧
          ∀ f ∈ after, targetKey ∉ f.2.map Prod.fst := by
  refine ⟨fun file entries h => ?_, fun files h target => ?_⟩
  · rw [loadConfig_of_holdsConfig h]
    exact ⟨nodup_keys_tableOf entries, fun key => get?_tableOf key entries⟩
  · have hpinned : pinnedTarget d (files.map Prod.fst) =
        (files.filterMap fun f => lastValue? targetKey f.2).getLast? := by
      rw [pinnedTarget, List.filterMap_map]
      refine congrArg List.getLast? (List.filterMap_congr fun f hf => ?_)
      show Table.get? targetKey (loadConfig d f.1) = _
      rw [loadConfig_of_holdsConfig (h f hf), get?_tableOf]
    rw [hpinned, getLast?_filterMap_eq_some_iff]
    simp only [Prod.exists, lastValue?_eq_none_iff]

/-- The lines of a file that gives a target twice, and a value with quotes of its own. -/
def sampleLines : List (List Char) :=
  ["\r", " # CONFIG_IDF_TARGET=\"linux\"", "\tCONFIG_IDF_TARGET =\"esp32\" \r", "Q=\"\"a\"#=\"",
    "CONFIG_IDF_TARGET=\"esp32s2\""].map String.toList

/-- The entries in these lines. -/
def sampleEntries : List (String × String) :=
  [("CONFIG_IDF_TARGET", "esp32"), ("Q", "\"a\"#="), ("CONFIG_IDF_TARGET", "esp32s2")]

/-- A disk with such a file, and with one that gives no target. -/
def sampleDisk : Disk where
  tree := .folder [
    ("a", .file (.text (String.ofList (List.intercalate ['\n'] sampleLines)))),
    ("b", .file (.text "E=\"\""))]
  cwd := []

theorem writesConfig_sampleLines : WritesConfig sampleLines sampleEntries := by
  refine .idle (.inl (List.all_eq_true.mp (by decide)))
    (.idle (.inr ⟨[' '], _, List.all_eq_true.mp (by decide), rfl⟩)
      (.entry ?_ (.entry ?_ (.entry ?_ .nil))))
  · exact ⟨by decide, ['\t'], [' '], [], [' ', '\r'], List.all_eq_true.mp (by decide), by decide⟩
  · exact ⟨by decide, [], [], [], [], nofun, by decide⟩
  · exact ⟨by decide, [], [], [], [], nofun, by decide⟩

theorem holdsConfig_sampleDisk :
    HoldsConfig sampleDisk ⟨"a"⟩ sampleEntries ∧ HoldsConfig sampleDisk ⟨"b"⟩ [("E", "")] := by
  refine ⟨⟨sampleLines, writesConfig_sampleLines, by decide, ?_⟩,
    ["E=\"\"".toList], .entry ⟨by decide, [], [], [], [], nofun, by decide⟩ .nil, by decide, ?_⟩
  · exact eq_ok_of_toOption (by decide +kernel)
  · exact eq_ok_of_toOption (by decide +kernel)

theorem configs_read_back_sample :
    HoldsConfig sampleDisk ⟨"a"⟩ sampleEntries ∧ HoldsConfig sampleDisk ⟨"b"⟩ [("E", "")] ∧
      Table.get? "Q" (loadConfig sampleDisk ⟨"a"⟩) = some "\"a\"#=" ∧
      pinnedTarget sampleDisk [⟨"a"⟩, ⟨"b"⟩] = some "esp32s2" := by
  obtain ⟨ha, hb⟩ := holdsConfig_sampleDisk
  refine ⟨ha, hb, ?_, ?_⟩
  · rw [((configs_read_back sampleDisk).1 _ _ ha).2 "Q"]
    decide
  · refine ((configs_read_back sampleDisk).2 [(⟨"a"⟩, sampleEntries), (⟨"b"⟩, [("E", "")])]
      (by simp [ha, hb]) "esp32s2").mpr ?_
    exact ⟨[], _, _, _, rfl, by decide, by decide⟩

end Sdk

end BuildMatrix
