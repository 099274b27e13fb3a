import BuildMatrix.App.Basic
import BuildMatrix.Proofs.Path.Components
import BuildMatrix.Proofs.Text.Number
import BuildMatrix.Proofs.Text.Replace
import Mathlib.Data.List.Chain
import Mathlib.Logic.Function.Basic
import Mathlib.Tactic.Linarith

/-!
# Filling in templates

A template is filled in one kind of placeholder after the other, and each turn looks at the whole text, at
what earlier turns have put in as well. This gives what one reading of the template from the left gives
as long as no turn finds more placeholders than the template has. A turn finds more where a folder or a
target brings an `@` along, or where one in the template gets an inserted text behind it.

* `TemplatePart.read`, `TemplatePart.fill`: a template is read once, and its parts are filled in.
* `TemplatePart.replaceAll_fill`: one turn fills in one kind of placeholder, unless there are more of
  it in the text than in the template.
* `TemplatePart.pairs_fill`: texts without `@` bring no placeholders along.
* `App.IsClear`: what a turn has to find.
* `App.expand_eq_fillOnce`: when a template is filled in as if it was read once.
-/

namespace BuildMatrix

/-- A placeholder of a template. -/
inductive Placeholder
  | index
  | target
  | name
  | folder
  | configName
  deriving DecidableEq, Repr

namespace Placeholder

/-- The letter of a placeholder. -/
def letter : Placeholder → Char
  | index => 'i'
  | target => 't'
  | name => 'n'
  | folder => 'f'
  | configName => 'w'

/-- The turn at which a placeholder is filled in. -/
def turn : Placeholder → Nat
  | index => 0
  | target => 1
  | name => 2
  | folder => 3
  | configName => 4

/-- The placeholder with a letter. -/
def ofLetter? (c : Char) : Option Placeholder :=
  [index, target, name, folder, configName].find? fun p => p.letter = c

/-- A placeholder as it stands in a template. -/
def written (p : Placeholder) : List Char :=
  ['@', p.letter]

theorem letter_injective : Function.Injective letter := by
  intro p q h
  cases p <;> cases q <;> first | rfl | exact absurd h (by decide)

theorem letter_ne_mark (p : Placeholder) : p.letter ≠ '@' := by
  cases p <;> decide

theorem ofLetter?_letter (p : Placeholder) : ofLetter? p.letter = some p := by
  cases p <;> decide

theorem letter_of_ofLetter? {c : Char} {p : Placeholder} (h : ofLetter? c = some p) :
    p.letter = c := by
  simpa using List.find?_some h

end Placeholder

/-- A part of a template: a character that stands for itself, or a placeholder. -/
inductive TemplatePart
  | char (c : Char)
  | hole (p : Placeholder)
  deriving DecidableEq, Repr

namespace TemplatePart

/-- The parts of a template, which is read once from the left. -/
def read : List Char → List TemplatePart
  | a :: b :: cs =>
    match if a = '@' then Placeholder.ofLetter? b else none with
    | some p => hole p :: read cs
    | none => char a :: read (b :: cs)
  | [c] => [char c]
  | [] => []

/-- Whether a part is a placeholder. -/
def isHole : TemplatePart → Bool
  | char _ => false
  | hole _ => true

/-- What a part stands for, given what the placeholders do. -/
def text (value : Placeholder → List Char) : TemplatePart → List Char
  | char c => [c]
  | hole p => value p

/-- The text of parts whose placeholders are filled in. -/
def fill (value : Placeholder → List Char) (parts : List TemplatePart) : List Char :=
  parts.flatMap (text value)

variable {value : Placeholder → List Char} {parts : List TemplatePart} {p : Placeholder}

theorem fill_cons (value : Placeholder → List Char) (x : TemplatePart)
    (parts : List TemplatePart) : fill value (x :: parts) = x.text value ++ fill value parts :=
  List.flatMap_cons

/-! ## Reading -/

/-- Placeholders that are filled in with themselves leave the template. -/
theorem fill_written_read (cs : List Char) : fill Placeholder.written (read cs) = cs := by
  fun_induction read cs with
  | case1 a b cs p hp ih =>
    have ha : a = '@' := by
      by_contra hne
      rw [if_neg hne] at hp
      exact absurd hp nofun
    rw [if_pos ha] at hp
    rw [fill_cons, ih, text, Placeholder.written, Placeholder.letter_of_ofLetter? hp, ha]
    rfl
  | case2 a b cs hp ih =>
    rw [fill_cons, ih]
    rfl
  | case3 c => rfl
  | case4 => rfl

/-- A character `@` that stands for itself is followed by no letter of a placeholder that does. -/
theorem isChain_read (cs : List Char) :
    (read cs).IsChain fun x y =>
      x = char '@' → ∀ c, y = char c → Placeholder.ofLetter? c = none := by
  fun_induction read cs with
  | case1 a b cs p hp ih =>
    exact List.isChain_cons.mpr ⟨fun y _ hx => absurd hx nofun, ih⟩
  | case2 a b cs hp ih =>
    refine List.isChain_cons.mpr ⟨fun y hy hx c hc => ?_, ih⟩
    rw [char.injEq] at hx
    rw [if_pos hx] at hp
    subst hc
    -- the next part is read from `b` on, so it is `b` if it is a character
    have hb : c = b := by
      unfold read at hy
      split at hy
      · next heq =>
        split at hy
        · exact absurd hy (by simp)
        · rw [(List.cons.inj heq).1]
          simpa [eq_comm] using hy
      · next heq =>
        rw [(List.cons.inj heq).1]
        simpa [eq_comm] using hy
      · next heq => exact absurd heq nofun
    rw [hb, hp]
  | case3 c => exact List.isChain_singleton _
  | case4 => exact List.IsChain.nil

/-! ## One turn -/

theorem pairs_written (p : Placeholder) (cs : List Char) :
    Text.pairs '@' p.letter (p.written ++ cs.head?.toList) = 1 := by
  cases cs with
  | nil => simp [Placeholder.written, Text.pairs]
  | cons c cs => simp [Placeholder.written, Text.pairs, p.letter_ne_mark]

theorem pairs_written_of_ne {q : Placeholder} (h : q ≠ p) (cs : List Char) :
    Text.pairs '@' p.letter (q.written ++ cs.head?.toList) = 0 := by
  have hletter : q.letter ≠ p.letter := fun heq => h (Placeholder.letter_injective heq)
  cases cs with
  | nil => simp [Placeholder.written, Text.pairs, hletter]
  | cons c cs => simp [Placeholder.written, Text.pairs, hletter, q.letter_ne_mark]

/-- The placeholders of a template that are not filled in yet are there. -/
theorem count_le_pairs_fill (hp : value p = p.written) (parts : List TemplatePart) :
    parts.count (hole p) ≤ Text.pairs '@' p.letter (fill value parts) := by
  induction parts with
  | nil => exact Nat.zero_le _
  | cons x parts ih =>
    rw [fill_cons, Text.pairs_append]
    by_cases hx : x = hole p
    · subst hx
      rw [List.count_cons_self, text, hp, pairs_written, Nat.add_comm]
      exact Nat.add_le_add_left ih 1
    · rw [List.count_cons_of_ne hx]
      exact Nat.le_trans ih (Nat.le_add_left _ _)

/-- A turn fills in the placeholders of one kind, if it finds no more of them than the template
has. -/
theorem replaceAll_fill (new : List Char) (hp : value p = p.written)
    (h : Text.pairs '@' p.letter (fill value parts) = parts.count (hole p)) :
    Text.replaceAll p.written new (fill value parts) =
      fill (Function.update value p new) parts := by
  induction parts with
  | nil => exact Text.replaceAll_nil _ _
  | cons x parts ih =>
    have hrest := count_le_pairs_fill hp parts
    rw [fill_cons, Text.pairs_append] at h
    rw [fill_cons, fill_cons]
    by_cases hx : x = hole p
    · subst hx
      rw [List.count_cons_self, text, hp, pairs_written] at h
      rw [text, text, hp, Function.update_self, ← ih (by omega)]
      exact Text.replaceAll_pair '@' p.letter new _
    · rw [List.count_cons_of_ne hx] at h
      -- the other parts may not add any, for the rest has as many as the template
      have hfirst : Text.pairs '@' p.letter (x.text value ++ (fill value parts).head?.toList) = 0 := by
        omega
      have htext : x.text (Function.update value p new) = x.text value := by
        cases x with
        | char c => rfl
        | hole q => exact Function.update_of_ne (fun hq => hx (congrArg hole hq)) new value
      rw [htext, ← ih (by omega)]
      exact Text.replaceAll_append new hfirst

theorem length_fill_update (new : List Char) (hp : value p = p.written)
    (parts : List TemplatePart) :
    (fill (Function.update value p new) parts).length + 2 * parts.count (hole p) =
      (fill value parts).length + parts.count (hole p) * new.length := by
  induction parts with
  | nil => simp [fill]
  | cons x parts ih =>
    rw [fill_cons, fill_cons, List.length_append, List.length_append]
    by_cases hx : x = hole p
    · subst hx
      have hwritten : p.written.length = 2 := rfl
      rw [List.count_cons_self, text, text, Function.update_self, hp, hwritten, Nat.add_mul]
      omega
    · have htext : x.text (Function.update value p new) = x.text value := by
        cases x with
        | char c => rfl
        | hole q => exact Function.update_of_ne (fun hq => hx (congrArg hole hq)) new value
      rw [List.count_cons_of_ne hx, htext]
      omega

/-- A turn that finds more placeholders than the template has does something else, unless it puts in
texts as long as a placeholder. -/
theorem replaceAll_fill_iff {new : List Char} (hp : value p = p.written) (hnew : new.length ≠ 2) :
    Text.replaceAll p.written new (fill value parts) =
        fill (Function.update value p new) parts ↔
      Text.pairs '@' p.letter (fill value parts) = parts.count (hole p) := by
  refine ⟨fun h => ?_, replaceAll_fill new hp⟩
  have hreplaced := Text.length_replaceAll p.letter_ne_mark.symm new (fill value parts)
  have hfilled := length_fill_update new hp parts
  rw [← h] at hfilled
  rw [Placeholder.written] at hfilled
  have hzero : ((Text.pairs '@' p.letter (fill value parts) : ℤ) - parts.count (hole p)) *
      (new.length - 2) = 0 := by
    zify at hreplaced hfilled
    linarith
  rcases mul_eq_zero.mp hzero with hzero | hzero
  · omega
  · exact absurd hzero (by omega)

/-! ## Texts without marks -/

/-- Whether a template has no `@` that stands for itself directly before a placeholder. -/
def HasLoneMarks (parts : List TemplatePart) : Prop :=
  parts.IsChain fun x y => ¬(x = char '@' ∧ y.isHole = true)

instance (parts : List TemplatePart) : Decidable (HasLoneMarks parts) :=
  inferInstanceAs (Decidable (List.IsChain _ _))

/-- Filled in texts without `@` bring no placeholders along, if each `@` of the template is followed
by a character that does not make a placeholder of it. -/
theorem pairs_fill (hp : value p = p.written)
    (hvalue : ∀ q, q ≠ p → '@' ∉ value q ∨ value q = q.written)
    (hparts : parts.IsChain fun x y =>
      x = char '@' → ∃ c, (y.text value).head? = some c ∧ c ≠ p.letter) :
    Text.pairs '@' p.letter (fill value parts) = parts.count (hole p) := by
  induction parts with
  | nil => rfl
  | cons x parts ih =>
    obtain ⟨hnext, hrest⟩ := List.isChain_cons.mp hparts
    rw [fill_cons, Text.pairs_append, ih hrest]
    cases x with
    | hole q =>
      by_cases hq : q = p
      · subst hq
        rw [List.count_cons_self, text, hp, pairs_written, Nat.add_comm]
      · rw [List.count_cons_of_ne fun h => hq (hole.inj h), text]
        rcases hvalue q hq with hnone | hwritten
        · rw [Text.pairs_eq_zero_of_notMem hnone, Nat.zero_add]
        · rw [hwritten, pairs_written_of_ne hq, Nat.zero_add]
    | char c =>
      have hne : char c ≠ hole p := nofun
      rw [List.count_cons_of_ne hne]
      -- A lone mark makes a placeholder only with what is filled in behind it.
      refine (congrArg (· + _) (Text.pairs_singleton_iff.mpr ?_)).trans (Nat.zero_add _)
      rintro ⟨rfl, hhead⟩
      cases parts with
      | nil => exact absurd hhead nofun
      | cons y parts =>
        obtain ⟨d, hd, hne⟩ := hnext y rfl rfl
        rw [fill_cons, List.head?_append, hd] at hhead
        exact hne (Option.some.inj hhead)

theorem isChain_and {R S : TemplatePart → TemplatePart → Prop} {parts : List TemplatePart}
    (hR : parts.IsChain R) (hS : parts.IsChain S) : parts.IsChain fun x y => R x y ∧ S x y := by
  induction parts with
  | nil => exact List.IsChain.nil
  | cons x parts ih =>
    obtain ⟨hxR, hR⟩ := List.isChain_cons.mp hR
    obtain ⟨hxS, hS⟩ := List.isChain_cons.mp hS
    exact List.isChain_cons.mpr ⟨fun y hy => ⟨hxR y hy, hxS y hy⟩, ih hR hS⟩

/-- What follows an `@` of a template makes no placeholder of it if the texts that are put in do
not. -/
theorem isChain_read_text {cs : List Char} (hholes : (read cs).IsChain fun x y =>
      x = char '@' → ∀ q, y = hole q → ∃ c, (value q).head? = some c ∧ c ≠ p.letter) :
    (read cs).IsChain fun x y =>
      x = char '@' → ∃ c, (y.text value).head? = some c ∧ c ≠ p.letter := by
  refine (isChain_and (isChain_read cs) hholes).imp fun x y h hx => ?_
  cases y with
  | char c =>
    refine ⟨c, rfl, ?_⟩
    rintro rfl
    exact absurd (h.1 hx _ rfl) (by rw [Placeholder.ofLetter?_letter]; exact nofun)
  | hole q => exact h.2 hx q rfl

/-- A placeholder is in a template as often as its letter stands directly behind an `@`. -/
theorem pairs_read (p : Placeholder) (cs : List Char) :
    Text.pairs '@' p.letter cs = (read cs).count (hole p) := by
  have hchain : (read cs).IsChain fun x y =>
      x = char '@' → ∃ c, (y.text Placeholder.written).head? = some c ∧ c ≠ p.letter :=
    isChain_read_text <| (isChain_read cs).imp fun _ _ _ _ q _ =>
      ⟨'@', rfl, p.letter_ne_mark.symm⟩
  have hpairs := pairs_fill rfl (fun _ _ => Or.inr rfl) hchain
  rwa [fill_written_read] at hpairs

/-- Where no `@` is directly followed by another one, none stands before a placeholder. -/
theorem hasLoneMarks_of_pairs {parts : List TemplatePart}
    (h : Text.pairs '@' '@' (fill Placeholder.written parts) = 0) : HasLoneMarks parts := by
  induction parts with
  | nil => exact List.IsChain.nil
  | cons x parts ih =>
    rw [fill_cons, Text.pairs_append, Nat.add_eq_zero_iff] at h
    refine List.isChain_cons.mpr ⟨fun y hy => ?_, ih h.2⟩
    rintro ⟨rfl, hhole⟩
    obtain ⟨parts, rfl⟩ := List.head?_eq_some_iff.mp hy
    cases y with
    | char c => exact absurd hhole nofun
    | hole q => exact absurd h.1 nofun

end TemplatePart

namespace App

open TemplatePart

variable {a : App} {template : String} {p : Placeholder}

/-- What a placeholder stands for; the index stands for itself as long as there is none. -/
def valueOf (a : App) : Placeholder → List Char
  | .index => (a.index.map fun i => (toString i).toList).getD Placeholder.index.written
  | .target => a.target.toList
  | .name => a.name.toList
  | .folder => a.flatFolder
  | .configName => a.configName.toList

/-- A template that is read once from the left: each placeholder gives what it stands for, and all
else is copied. -/
def fillOnce (a : App) (template : String) : String :=
  String.ofList (fill a.valueOf (read template.toList))

/-- What the placeholders stand for before the turn of one of them. -/
def valueBefore (a : App) (p q : Placeholder) : List Char :=
  if q.turn < p.turn then a.valueOf q else q.written

/-- The text of a template before the turn of a placeholder. -/
def filledBefore (a : App) (p : Placeholder) (template : String) : List Char :=
  fill (a.valueBefore p) (read template.toList)

/-- Whether a placeholder, at its turn, is in the text as often as in the template. -/
def IsClear (a : App) (template : String) (p : Placeholder) : Prop :=
  Text.pairs '@' p.letter (a.filledBefore p template) = (read template.toList).count (.hole p)

instance (a : App) (template : String) (p : Placeholder) : Decidable (a.IsClear template p) :=
  inferInstanceAs (Decidable (_ = _))

/-! ## Turns -/

theorem valueBefore_self (a : App) (p : Placeholder) : a.valueBefore p p = p.written :=
  if_neg (Nat.lt_irrefl _)

/-- After its turn a placeholder stands for its value. -/
theorem update_valueBefore {q : Placeholder} (h : q.turn = p.turn + 1) :
    Function.update (a.valueBefore p) p (a.valueOf p) = a.valueBefore q := by
  funext r
  by_cases hr : r = p
  · subst hr
    rw [Function.update_self, valueBefore, if_pos (by omega)]
  · have hturn : r.turn ≠ p.turn := by
      intro heq
      exact hr (by cases r <;> cases p <;> first | rfl | exact absurd heq (by decide))
    rw [Function.update_of_ne hr, valueBefore, valueBefore]
    split
    · next hlt => rw [if_pos (by omega)]
    · next hge => rw [if_neg (by omega)]

/-- A turn that is clear leads on to the next one. -/
theorem replaceAll_filledBefore {q : Placeholder} (h : q.turn = p.turn + 1)
    (hclear : a.IsClear template p) :
    Text.replaceAll p.written (a.valueOf p) (a.filledBefore p template) =
      a.filledBefore q template := by
  rw [filledBefore, replaceAll_fill _ (a.valueBefore_self p) hclear, update_valueBefore h,
    filledBefore]

theorem update_valueBefore_configName (a : App) :
    Function.update (a.valueBefore .configName) .configName (a.valueOf .configName) = a.valueOf := by
  funext r
  cases r <;> rfl

/-- Before the first turn there is the template. -/
theorem filledBefore_index (a : App) (template : String) :
    a.filledBefore .index template = template.toList := by
  have hvalue : a.valueBefore .index = Placeholder.written := by
    funext q
    exact if_neg (Nat.not_lt_zero _)
  rw [filledBefore, hvalue, fill_written_read]

/-- A turn is clear if no text that is put in before it holds an `@` of its own, and no text that is
put in behind an `@` of the template is empty or begins with the letter of the placeholder. -/
theorem isClear_of_forall
    (hvalue : ∀ q : Placeholder, q.turn < p.turn → '@' ∉ a.valueOf q ∨ a.valueOf q = q.written)
    (hholes : (read template.toList).IsChain fun x y => x = .char '@' → ∀ q, y = .hole q →
      q.turn < p.turn → ∃ c, (a.valueOf q).head? = some c ∧ c ≠ p.letter) :
    a.IsClear template p := by
  refine pairs_fill (a.valueBefore_self p) (fun q _ => ?_)
    (isChain_read_text (hholes.imp fun x y h hx q hq => ?_))
  · rw [valueBefore]
    split
    · next hlt => exact hvalue q hlt
    · exact Or.inr rfl
  · rw [valueBefore]
    split
    · next hlt => exact h hx q hq hlt
    · exact ⟨'@', rfl, p.letter_ne_mark.symm⟩

/-- The digits of an index make no placeholder. -/
theorem exists_head_index {i : Nat} (hindex : a.index = some i) :
    '@' ∉ a.valueOf .index ∧ ∃ c, (a.valueOf .index).head? = some c ∧ c ≠ p.letter := by
  have hvalue : a.valueOf .index = Nat.toDigits 10 i := by
    rw [valueOf, hindex, Option.map_some, Option.getD_some, Nat.toString_eq_repr,
      Nat.toList_repr]
  have hdigit : ∀ c ∈ a.valueOf .index, c.isDigit = true :=
    fun c hc => Text.isDigit_of_mem_toDigits (hvalue ▸ hc)
  have hletter : p.letter.isDigit = false := by cases p <;> decide
  refine ⟨fun h => absurd (hdigit _ h) (by decide), ?_⟩
  obtain ⟨c, cs, hcs⟩ := List.exists_cons_of_ne_nil (hvalue ▸ Nat.toDigits_ne_nil)
  refine ⟨c, by rw [hcs]; rfl, ?_⟩
  rintro rfl
  have hc := hdigit p.letter (by rw [hcs]; exact List.mem_cons_self)
  exact absurd (hc.symm.trans hletter) (by decide)

theorem isClear_index (a : App) (template : String) : a.IsClear template .index :=
  isClear_of_forall (fun _ hq => absurd hq (Nat.not_lt_zero _))
    ((isChain_read _).imp fun _ _ _ _ _ _ hq => absurd hq (Nat.not_lt_zero _))

/-- The index is the only text that is put in before the turn of the target. -/
theorem isClear_target {i : Nat} (hindex : a.index = some i) (template : String) :
    a.IsClear template .target := by
  have hfirst : ∀ q : Placeholder, q.turn < Placeholder.target.turn → q = .index := by
    intro q hq
    cases q <;> first | rfl | exact absurd hq (by decide)
  refine isClear_of_forall (fun q hq => ?_)
    ((isChain_read _).imp fun _ _ _ _ q _ hq => ?_)
  · rw [hfirst q hq]
    exact Or.inl (exists_head_index (p := .target) hindex).1
  · rw [hfirst q hq]
    exact (exists_head_index hindex).2

/-! ## All turns -/

theorem expand_eq {i : Nat} (hindex : a.index = some i) (hconfig : a.configName ≠ "") :
    a.expand template = String.ofList (Text.replaceAll (Placeholder.configName.written)
      (a.valueOf .configName) (Text.replaceAll Placeholder.folder.written (a.valueOf .folder)
        (Text.replaceAll Placeholder.name.written (a.valueOf .name)
          (Text.replaceAll Placeholder.target.written (a.valueOf .target)
            (Text.replaceAll Placeholder.index.written (a.valueOf .index) template.toList))))) := by
  have hempty : a.configName.isEmpty = false := by
    rw [← Bool.not_eq_true, String.isEmpty_iff]
    exact hconfig
  rw [expand, expandChars, expandConfigName, hempty, hindex, valueOf, hindex]
  rfl

/-- What is left of the expansion at the last turn, if the others are clear. -/
theorem expand_of_isClear {i : Nat} (hindex : a.index = some i) (hconfig : a.configName ≠ "")
    (hname : a.IsClear template .name) (hfolder : a.IsClear template .folder) :
    a.expand template = String.ofList (Text.replaceAll Placeholder.configName.written
      (a.valueOf .configName) (a.filledBefore .configName template)) := by
  rw [expand_eq hindex hconfig, ← replaceAll_filledBefore rfl hfolder,
    ← replaceAll_filledBefore rfl hname,
    ← replaceAll_filledBefore rfl (isClear_target hindex template),
    ← replaceAll_filledBefore rfl (a.isClear_index template), filledBefore_index]

theorem mem_of_mem_name {c : Char} (h : c ∈ a.name.toList) : c ∈ a.folder.text.toList := by
  rw [name, Path.fileName?] at h
  split at h
  · next s hs =>
    have hstep : .name s ∈ a.folder.steps := by
      rw [Path.steps_eq_filter, List.mem_filter]
      exact ⟨List.mem_of_getLast? hs, decide_eq_true ⟨nofun, nofun⟩⟩
    obtain ⟨piece, hpiece, hname⟩ := List.mem_filterMap.mp hstep
    have hrender := Component.toList_render_of_ofPiece? hname
    exact Text.mem_of_mem_piecesOf hpiece (hrender ▸ h)
  · exact absurd h (by simp)

theorem mark_notMem_flatFolder (h : '@' ∉ a.folder.text.toList) : '@' ∉ a.flatFolder := by
  rw [flatFolder, List.mem_map]
  rintro ⟨c, hc, heq⟩
  split at heq
  · exact absurd heq (by decide)
  · exact h (heq ▸ hc)

/-- Each turn is clear if neither the target nor the folder holds an `@` and none of the template
stands directly before a placeholder. -/
theorem isClear_of_hasLoneMarks
    (hindex : '@' ∉ a.valueOf .index ∨ a.valueOf .index = Placeholder.index.written)
    (htarget : '@' ∉ a.target.toList) (hfolder : '@' ∉ a.folder.text.toList)
    (hlone : HasLoneMarks (read template.toList)) : a.IsClear template p := by
  refine isClear_of_forall (fun q hq => ?_)
    (hlone.imp fun x y h hx q hy _ => absurd ⟨hx, by rw [hy]; rfl⟩ h)
  cases q with
  | index => exact hindex
  | target => exact Or.inl htarget
  | name => exact Or.inl fun h => hfolder (mem_of_mem_name h)
  | folder => exact Or.inl (mark_notMem_flatFolder hfolder)
  | configName => cases p <;> exact absurd hq (by decide)

theorem isClear_of_mark_notMem {i : Nat} (hindex : a.index = some i)
    (htarget : '@' ∉ a.target.toList) (hfolder : '@' ∉ a.folder.text.toList)
    (hlone : HasLoneMarks (read template.toList)) : a.IsClear template p :=
  isClear_of_hasLoneMarks (Or.inl (exists_head_index (p := p) hindex).1) htarget hfolder hlone

theorem expand_eq_fillOnce_of_isClear {i : Nat} (hindex : a.index = some i)
    (hconfig : a.configName ≠ "") (hname : a.IsClear template .name)
    (hfolder : a.IsClear template .folder) (hlast : a.IsClear template .configName) :
    a.expand template = a.fillOnce template := by
  rw [expand_of_isClear hindex hconfig hname hfolder, filledBefore,
    replaceAll_fill _ (a.valueBefore_self .configName) hlast, update_valueBefore_configName, fillOnce]

/-- A last turn that is not clear is seen in the expansion, unless the config name is as long as a
placeholder. -/
theorem isClear_of_expand_eq_fillOnce {i : Nat} (hindex : a.index = some i)
    (hconfig : a.configName ≠ "") (hname : a.IsClear template .name)
    (hfolder : a.IsClear template .folder) (hlength : a.configName.toList.length ≠ 2)
    (h : a.expand template = a.fillOnce template) : a.IsClear template .configName := by
  rw [expand_of_isClear hindex hconfig hname hfolder, fillOnce, ← update_valueBefore_configName]
    at h
  exact (replaceAll_fill_iff (a.valueBefore_self .configName) hlength).mp
    (String.ofList_injective h)

/-- **A template is filled in as if it was read once from the left**, each placeholder giving what it
stands for and all else being copied, for an app with an index and a config name, as long as each
turn finds its placeholder as often in the text as it is in the template. Only the turns of the name,
of the folder and of the config name may find more. They do not if neither the target nor the folder
holds an `@` and no `@` of the template stands directly before a placeholder. If just the turn of the
config name does, and the config name is not as long as a placeholder, then the text is a different
one. -/
theorem expand_eq_fillOnce {i : Nat} (hindex : a.index = some i) (hconfig : a.configName ≠ "") :
    ('@' ∉ a.target.toList → '@' ∉ a.folder.text.toList → HasLoneMarks (read template.toList) →
      a.expand template = a.fillOnce template) ∧
    (a.IsClear template .name → a.IsClear template .folder →
      (a.IsClear template .configName → a.expand template = a.fillOnce template) ∧
      (a.configName.toList.length ≠ 2 → a.expand template = a.fillOnce template →
        a.IsClear template .configName)) := by
  refine ⟨fun htarget hfolder hlone => ?_, fun hname hfolder =>
    ⟨expand_eq_fillOnce_of_isClear hindex hconfig hname hfolder,
      isClear_of_expand_eq_fillOnce hindex hconfig hname hfolder⟩⟩
  exact expand_eq_fillOnce_of_isClear hindex hconfig
    (isClear_of_mark_notMem hindex htarget hfolder hlone)
    (isClear_of_mark_notMem hindex htarget hfolder hlone)
    (isClear_of_mark_notMem hindex htarget hfolder hlone)

/-- An app with an index and a config name, in a folder with a name. -/
def releaseIn (folder : String) : App :=
  { folder := ⟨folder⟩, target := "esp32", configName := "release", index := some 3 }

theorem expand_eq_fillOnce_sample :
    ((releaseIn "/x/blink").expand "@n_@w/@i" = (releaseIn "/x/blink").fillOnce "@n_@w/@i" ∧
      (releaseIn "/x/blink").fillOnce "@n_@w/@i" = "blink_release/3") ∧
    (releaseIn "/x/my@work").expand "@n" ≠ (releaseIn "/x/my@work").fillOnce "@n" := by
  have hconfig (folder : String) : (releaseIn folder).configName ≠ "" := by simp [releaseIn]
  refine ⟨⟨(expand_eq_fillOnce rfl (hconfig _)).1 (by decide) (by decide) (by decide),
    by decide +kernel⟩, fun heq => ?_⟩
  -- the turn of the config name finds a placeholder that is not in the template
  exact absurd (((expand_eq_fillOnce rfl (hconfig _)).2 (by decide +kernel)
    (by decide +kernel)).2 (by decide) heq) (by decide +kernel)

/-- The name of a folder brings a placeholder along, which is filled in at a later turn. -/
theorem inserted_mark_is_expanded : (releaseIn "/x/my@work").expand "@n" = "myreleaseork" ∧
    (releaseIn "/x/my@work").fillOnce "@n" = "my@work" := by
  decide +kernel

end App

end BuildMatrix
