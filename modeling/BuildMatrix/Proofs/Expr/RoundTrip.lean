import BuildMatrix.Proofs.Expr.Lexing
import BuildMatrix.Proofs.Expr.Reading

/-!
# Conditions are read back from their written form

The written form of a condition that was read from a statement is always a statement again. It reads
as the same condition, apart from texts with characters that quoting escapes and reading does not
know.

* `Expr.IsReadable`: what holds of conditions that are read (`Expr.Derives.isReadable`).
* `Expr.reread`: what comes back for a condition.
* `Expr.spells_render`: the written form spells lexemes that derive it.
* `Expr.parse_render`: so it reads as what comes back.
-/

namespace BuildMatrix

/-! ## Readable conditions -/

/-- What holds of operands that are read. -/
def Operand.IsReadable : Operand → Prop
  | attr name => IsName name.toList
  | literal l => l.lexeme.IsReadable
  | list items => items ≠ [] ∧ ∀ l ∈ items, l.lexeme.IsReadable

theorem Operand.DerivesItems.isReadable {ls : List Lexeme} {items : List Literal}
    (h : DerivesItems ls items) (hls : ∀ l ∈ ls, l.IsReadable) :
    ∀ l ∈ items, l.lexeme.IsReadable := by
  induction h with
  | nil => simp
  | cons l _ ih =>
    rw [List.forall_mem_cons, List.forall_mem_cons] at hls
    exact List.forall_mem_cons.mpr ⟨hls.2.1, ih hls.2.2⟩

theorem Operand.Derives.isReadable {ls : List Lexeme} {x : Operand} (h : Derives ls x)
    (hls : ∀ l ∈ ls, l.IsReadable) : x.IsReadable := by
  cases h with
  | attr name => exact hls (.attr name) List.mem_cons_self
  | literal l => exact hls l.lexeme List.mem_cons_self
  | list first hitems =>
    rw [List.forall_mem_cons, List.forall_mem_cons] at hls
    exact ⟨List.cons_ne_nil _ _,
      List.forall_mem_cons.mpr ⟨hls.2.1, hitems.isReadable hls.2.2⟩⟩

namespace Expr

/-- What holds of conditions that are read. -/
def IsReadable : Expr → Prop
  | compare x _ y => x.IsReadable ∧ y.IsReadable
  | combine e₁ _ e₂ => e₁.IsReadable ∧ e₂.IsReadable

theorem Derives.isReadable {p : Phrase} {ls : List Lexeme} {e : Expr} (h : Derives p ls e)
    (hls : ∀ l ∈ ls, l.IsReadable) : e.IsReadable := by
  induction h with
  | group _ ih => exact ih hls
  | combine op _ _ ih₁ ih₂ =>
    rw [List.forall_mem_append, List.forall_mem_cons] at hls
    exact ⟨ih₁ hls.1, ih₂ hls.2.2⟩
  | paren _ ih =>
    rw [List.forall_mem_cons, List.forall_mem_append] at hls
    exact ih hls.2.1
  | compare op hx hy =>
    rw [List.forall_mem_append, List.forall_mem_cons] at hls
    exact ⟨hx.isReadable hls.1, hy.isReadable hls.2.2⟩

theorem isReadable_of_parse {stmt : String} {e : Expr} (h : parse stmt = .ok e) :
    e.IsReadable := by
  obtain ⟨ts, hts, hderives⟩ := parse_eq_ok_iff.mp h
  refine hderives.isReadable fun l hl => ?_
  obtain ⟨t, ht, rfl⟩ := List.mem_map.mp hl
  exact Token.isReadable_of_scan hts t ht

end Expr

/-! ## What comes back -/

/-- What comes back for a number or a text. -/
def Literal.reread : Literal → Literal
  | int n => int n
  | str s => str (Text.rereadText s)

/-- What comes back for an operand. -/
def Operand.reread : Operand → Operand
  | attr name => attr name
  | literal l => literal l.reread
  | list items => list (items.map Literal.reread)

/-- The texts among numbers and texts. -/
def Literal.texts : Literal → List String
  | int _ => []
  | str s => [s]

/-- The texts of an operand. -/
def Operand.texts : Operand → List String
  | attr _ => []
  | literal l => l.texts
  | list items => items.flatMap Literal.texts

namespace Expr

/-- What comes back for a condition. -/
def reread : Expr → Expr
  | compare x op y => compare x.reread op y.reread
  | combine e₁ op e₂ => combine e₁.reread op e₂.reread

/-- The texts of a condition. -/
def texts : Expr → List String
  | compare x _ y => x.texts ++ y.texts
  | combine e₁ _ e₂ => e₁.texts ++ e₂.texts

end Expr

theorem Literal.reread_eq_self_iff {l : Literal} :
    l.reread = l ↔ ∀ s ∈ l.texts, Text.IsKeptText s := by
  cases l with
  | int n => simp [reread, texts]
  | str s =>
    rw [reread, texts, List.forall_mem_singleton, ← Text.rereadText_eq_self_iff,
      Literal.str.injEq]

theorem Operand.reread_eq_self_iff {x : Operand} :
    x.reread = x ↔ ∀ s ∈ x.texts, Text.IsKeptText s := by
  cases x with
  | attr name => simp [reread, texts]
  | literal l => rw [reread, texts, ← Literal.reread_eq_self_iff, Operand.literal.injEq]
  | list items =>
    rw [reread, texts, Operand.list.injEq]
    induction items with
    | nil => simp
    | cons l items ih =>
      rw [List.map_cons, List.flatMap_cons, List.forall_mem_append, List.cons.injEq, ih,
        Literal.reread_eq_self_iff]

/-- A condition comes back exactly when its texts do. -/
theorem Expr.reread_eq_self_iff {e : Expr} : e.reread = e ↔ ∀ s ∈ e.texts, Text.IsKeptText s := by
  induction e with
  | compare x op y =>
    rw [reread, texts, List.forall_mem_append, ← Operand.reread_eq_self_iff,
      ← Operand.reread_eq_self_iff]
    simp
  | combine e₁ op e₂ ih₁ ih₂ =>
    rw [reread, texts, List.forall_mem_append, ← ih₁, ← ih₂]
    simp

/-! ## The written form -/

open Token

theorem Literal.spells_render {l : Literal} (h : l.lexeme.IsReadable) :
    Spells l.render.toList [l.reread.lexeme] := by
  cases l with
  | int n => exact spells_int h
  | str s => exact spells_quoted s

/-- The items of a list after the first one, as they are written. -/
def Literal.renderItems (items : List Literal) : List Char :=
  items.flatMap fun l => ',' :: ' ' :: l.render.toList

theorem Literal.toList_intercalate (first : Literal) (items : List Literal) :
    (", ".intercalate ((first :: items).map render)).toList =
      first.render.toList ++ renderItems items := by
  induction items generalizing first with
  | nil => simp [renderItems, String.intercalate_singleton]
  | cons l items ih =>
    rw [List.map_cons, List.map_cons, String.intercalate_cons_cons, ← List.map_cons,
      String.toList_append, ih l, String.toList_append]
    simp [renderItems]

theorem Literal.separates_renderItems (items : List Literal) (rest : List Char) :
    Separates (renderItems items ++ ']' :: rest) := by
  cases items with
  | nil => exact separates_cons (by simp) _
  | cons l items => exact separates_cons (by simp) _

theorem Literal.lexes_renderItems {items : List Literal}
    (h : ∀ l ∈ items, l.lexeme.IsReadable) :
    ∃ ls, Operand.DerivesItems ls (items.map reread) ∧ ∀ rest after, Lexes rest after →
      Lexes (renderItems items ++ ']' :: rest) (ls ++ after) := by
  induction items with
  | nil => exact ⟨_, .nil, fun rest after hafter => hafter.cons (by decide) rfl⟩
  | cons l items ih =>
    obtain ⟨hl, hitems⟩ := List.forall_mem_cons.mp h
    obtain ⟨ls, hderives, hlexes⟩ := ih hitems
    refine ⟨_, .cons l.reread hderives, fun rest after hafter => ?_⟩
    have hitem := spells_render hl _ _ (separates_renderItems items rest) (hlexes rest after hafter)
    have hcomma := (hitem.blank Text.isBlank_space).cons (c := ',') (by decide) rfl
    rw [renderItems, List.flatMap_cons, ← renderItems, List.append_assoc]
    exact hcomma

theorem Operand.spells_render {x : Operand} (h : x.IsReadable) :
    ∃ ls, Spells x.render.toList ls ∧ Operand.Derives ls x.reread := by
  cases x with
  | attr name =>
    have hname := spells_attr h
    rw [String.ofList_toList] at hname
    exact ⟨_, hname, .attr name⟩
  | literal l => exact ⟨_, l.spells_render h, .literal l.reread⟩
  | list items =>
    obtain ⟨hne, hitems⟩ := h
    obtain ⟨first, items, rfl⟩ := List.exists_cons_of_ne_nil hne
    obtain ⟨hfirst, hitems⟩ := List.forall_mem_cons.mp hitems
    obtain ⟨ls, hderives, hlexes⟩ := Literal.lexes_renderItems hitems
    refine ⟨_, fun rest after _ hafter => ?_, .list first.reread hderives⟩
    have hitem := Literal.spells_render hfirst _ _ (Literal.separates_renderItems items rest)
      (hlexes rest after hafter)
    have hopen := hitem.cons (c := '[') (by decide) rfl
    have hrender : (Operand.list (first :: items)).render.toList =
        '[' :: (first.render.toList ++ Literal.renderItems items ++ [']']) := by
      rw [render, String.toList_append, String.toList_append, Literal.toList_intercalate]
      rfl
    rw [hrender]
    simpa using hopen

namespace Expr

theorem toList_render_compare (x y : Operand) (op : CompareOp) :
    (compare x op y).render.toList =
      x.render.toList ++ ' ' :: (op.render.toList ++ ' ' :: y.render.toList) := by
  simp

theorem toList_render_combine (e₁ e₂ : Expr) (op : BoolOp) :
    (combine e₁ op e₂).render.toList =
      (group e₁ e₁.render).toList ++ ' ' :: (op.render.toList ++ ' ' ::
        (group e₂ e₂.render).toList) := by
  simp

/-- The written form of a condition spells lexemes that derive what comes back for it, and those of
a group when it is written as a group. -/
theorem spells_render {e : Expr} (h : e.IsReadable) :
    (∃ ls, Spells e.render.toList ls ∧ Derives .condition ls e.reread) ∧
      ∃ ls, Spells (group e e.render).toList ls ∧ Derives .group ls e.reread := by
  induction e with
  | compare x op y =>
    obtain ⟨ls₁, hspells₁, hderives₁⟩ := x.spells_render h.1
    obtain ⟨ls₂, hspells₂, hderives₂⟩ := y.spells_render h.2
    have hspells := hspells₁.append_blank ((spells_compareOp op).append_blank hspells₂)
    have hderives : Derives .group _ (compare x op y).reread := .compare op hderives₁ hderives₂
    rw [← toList_render_compare] at hspells
    exact ⟨⟨_, hspells, .group hderives⟩, _, hspells, hderives⟩
  | combine e₁ op e₂ ih₁ ih₂ =>
    obtain ⟨-, ls₁, hspells₁, hderives₁⟩ := ih₁ h.1
    obtain ⟨-, ls₂, hspells₂, hderives₂⟩ := ih₂ h.2
    have hspells := hspells₁.append_blank ((spells_boolOp op).append_blank hspells₂)
    have hderives : Derives .condition _ (combine e₁ op e₂).reread :=
      .combine op hderives₁ hderives₂
    rw [← toList_render_combine] at hspells
    refine ⟨⟨_, hspells, hderives⟩, _, ?_, .paren hderives⟩
    have hgroup : (group (combine e₁ op e₂) (combine e₁ op e₂).render).toList =
        '(' :: ((combine e₁ op e₂).render.toList ++ [')']) := by
      rw [group, if_pos (by rfl), String.toList_append, String.toList_append]
      rfl
    rw [hgroup]
    exact hspells.paren

/-- The written form of a readable condition reads as what comes back for it. -/
theorem parse_render_eq_reread {e : Expr} (h : e.IsReadable) :
    parse e.render = .ok e.reread := by
  obtain ⟨ls, hspells, hderives⟩ := (spells_render h).1
  obtain ⟨ts, hts, rfl⟩ := hspells.lexes 0
  exact parse_eq_ok_iff.mpr ⟨ts, hts, hderives⟩

/-- **Conditions are read back.** The written form of a condition that was read from a statement is
read again, as what comes back for the condition. That is the condition itself exactly when each
character of its texts is quoted as itself or by an escape of a quote, a backslash, a line feed or a
tabulator. -/
theorem parse_render {stmt : String} {e : Expr} (h : parse stmt = .ok e) :
    parse e.render = .ok e.reread ∧
      (parse e.render = .ok e ↔ ∀ s ∈ e.texts, ∀ c ∈ s.toList, Text.quotedChar c = [c] ∨
        Text.quotedChar c ∈ [['\\', '"'], ['\\', '\\'], ['\\', 'n'], ['\\', 't']]) := by
  have hread := parse_render_eq_reread (isReadable_of_parse h)
  refine ⟨hread, ?_⟩
  rw [hread, Except.ok.injEq]
  exact reread_eq_self_iff

/-- A condition with every kind of operand, and with all that comes back. -/
def sample : Expr :=
  combine (compare (.attr "A") .notIn (.list [.int (-31), .str "\"\\\n\té"])) .or
    (combine (compare (.attr "B") .eq (.literal (.int 1))) .and
      (compare (.literal (.str "")) .lt (.attr "C_1")))

/-- A condition with a text. -/
def sampleText (s : String) : Expr :=
  compare (.attr "A") .eq (.literal (.str s))

theorem parse_render_sample :
    parse "A not  in [-0x1F, \"\\\"\\\\\\n\\té\"] or (B==1 and \"\"<C_1)" = .ok sample ∧
      parse sample.render = .ok sample ∧
      parse "A == \"\r\"" = .ok (sampleText "\r") ∧
      parse (sampleText "\r").render = .ok (sampleText "r") := by
  have h : parse "A not  in [-0x1F, \"\\\"\\\\\\n\\té\"] or (B==1 and \"\"<C_1)" =
      .ok sample := eq_ok_of_toOption (by decide +kernel)
  have hreturn : parse "A == \"\r\"" = .ok (sampleText "\r") :=
    eq_ok_of_toOption (by decide +kernel)
  have hkept : ∀ s ∈ sample.texts, Text.IsKeptText s := by decide +kernel
  exact ⟨h, (parse_render h).2.mpr hkept, hreturn, (parse_render hreturn).1⟩

end Expr

end BuildMatrix
