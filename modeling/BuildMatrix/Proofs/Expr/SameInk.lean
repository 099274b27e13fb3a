import BuildMatrix.Proofs.Expr.RoundTrip
import BuildMatrix.Proofs.Expr.Scanned

/-!
# Statements that differ in white space only

White space separates lexemes, stands between the two words of `not in`, and is kept within texts.
In a condition each lexeme may follow the one before it, so statements that differ in white space
only are read as the same condition apart from what its texts say.

* `Expr.Derives.isChain_meets`: lexemes that derive a condition may follow each other.
* `Expr.withoutTexts`: a condition without what its texts say.
* `Expr.Derives.withoutTexts`, `Expr.Derives.texts_eq`: both from the lexemes.
* `Expr.alike_of_ink_eq`: conditions of statements that differ in white space only.
-/

namespace BuildMatrix

/-! ## Lexemes that follow each other -/

namespace Lexeme

variable {l m : Lexeme} {ls ms : List Lexeme}

/-- Whether a lexeme may stand next to any other one. -/
structure IsMark (l : Lexeme) : Prop where
  isWord : l.isWord = false
  isCompare : l.isCompare = false

theorem IsMark.meets (h : l.IsMark) (m : Lexeme) : l.Meets m :=
  ⟨fun hl => absurd (h.isWord.symm.trans hl) nofun,
    fun hl => absurd (h.isCompare.symm.trans hl) nofun⟩

theorem IsMark.meets_left (h : m.IsMark) (l : Lexeme) : l.Meets m :=
  ⟨fun _ => h.isWord, fun _ => h.isCompare⟩

/-- A mark stands between lexemes. -/
theorem IsMark.isChain_append (h : m.IsMark) (hls : ls.IsChain Meets) (hms : ms.IsChain Meets) :
    (ls ++ m :: ms).IsChain Meets := by
  refine hls.append (List.isChain_cons.mpr ⟨fun x _ => h.meets x, hms⟩) fun l _ x hx => ?_
  rw [List.head?_cons, Option.mem_some_iff] at hx
  exact hx ▸ h.meets_left l

/-- A comparison operator stands between lexemes that are none. -/
theorem isChain_compare (op : CompareOp) (hls : ls.IsChain Meets) (hms : ms.IsChain Meets)
    (hlcompare : ∀ l ∈ ls, l.isCompare = false) (hmcompare : ∀ m ∈ ms, m.isCompare = false) :
    (ls ++ compare op :: ms).IsChain Meets := by
  have hright : ∀ m ∈ ms.head?, (compare op).Meets m := fun m hm =>
    ⟨fun h => absurd h nofun, fun _ => hmcompare m (List.mem_of_mem_head? hm)⟩
  refine hls.append (List.isChain_cons.mpr ⟨hright, hms⟩) fun l hl x hx => ?_
  rw [List.head?_cons, Option.mem_some_iff] at hx
  subst hx
  have hnot := hlcompare l (List.mem_of_getLast? hl)
  exact ⟨fun _ => rfl, fun h => absurd (hnot.symm.trans h) nofun⟩

end Lexeme

open Lexeme (Meets)

theorem Literal.isCompare_lexeme (l : Literal) : l.lexeme.isCompare = false := by
  cases l <;> rfl

/-- What follows the first item of a list begins with a mark. -/
theorem Operand.DerivesItems.isChain_meets {ls : List Lexeme} {items : List Literal}
    (h : DerivesItems ls items) (first : Literal) :
    (first.lexeme :: ls).IsChain Meets ∧ ∀ l ∈ first.lexeme :: ls, l.isCompare = false := by
  induction h generalizing first with
  | nil =>
    have hmark : Lexeme.rightBracket.IsMark := ⟨rfl, rfl⟩
    refine ⟨hmark.isChain_append (List.isChain_singleton first.lexeme) .nil, ?_⟩
    simpa using ⟨first.isCompare_lexeme, hmark.isCompare⟩
  | cons l _ ih =>
    obtain ⟨hchain, hcompare⟩ := ih l
    have hmark : Lexeme.comma.IsMark := ⟨rfl, rfl⟩
    refine ⟨hmark.isChain_append (List.isChain_singleton first.lexeme) hchain, ?_⟩
    rw [List.forall_mem_cons, List.forall_mem_cons]
    exact ⟨first.isCompare_lexeme, hmark.isCompare, hcompare⟩

theorem Operand.Derives.isChain_meets {ls : List Lexeme} {x : Operand} (h : Derives ls x) :
    ls.IsChain Meets ∧ ∀ l ∈ ls, l.isCompare = false := by
  cases h with
  | attr name => exact ⟨List.isChain_singleton _, List.forall_mem_singleton.mpr rfl⟩
  | literal l => exact ⟨List.isChain_singleton _, List.forall_mem_singleton.mpr l.isCompare_lexeme⟩
  | list first hitems =>
    obtain ⟨hchain, hcompare⟩ := hitems.isChain_meets first
    have hmark : Lexeme.leftBracket.IsMark := ⟨rfl, rfl⟩
    exact ⟨hmark.isChain_append .nil hchain, List.forall_mem_cons.mpr ⟨rfl, hcompare⟩⟩

namespace Expr

/-- In a condition each lexeme may follow the one before it. -/
theorem Derives.isChain_meets {p : Phrase} {ls : List Lexeme} {e : Expr} (h : Derives p ls e) :
    ls.IsChain Meets := by
  induction h with
  | group _ ih => exact ih
  | combine op _ _ ih₁ ih₂ => exact Lexeme.IsMark.isChain_append ⟨rfl, rfl⟩ ih₁ ih₂
  | @paren ls e _ ih =>
    have hclose : (ls ++ [Lexeme.rightParen]).IsChain Meets :=
      Lexeme.IsMark.isChain_append ⟨rfl, rfl⟩ ih .nil
    have hopen : Lexeme.leftParen.IsMark := ⟨rfl, rfl⟩
    exact hopen.isChain_append .nil hclose
  | compare op hx hy =>
    obtain ⟨hxchain, hxcompare⟩ := hx.isChain_meets
    obtain ⟨hychain, hycompare⟩ := hy.isChain_meets
    exact Lexeme.isChain_compare op hxchain hychain hxcompare hycompare

end Expr

/-! ## Conditions without what their texts say -/

/-- A number, or a text that says nothing. -/
def Literal.withoutText : Literal → Literal
  | int n => int n
  | str _ => str ""

/-- An operand without what its texts say. -/
def Operand.withoutTexts : Operand → Operand
  | attr name => attr name
  | literal l => literal l.withoutText
  | list items => list (items.map Literal.withoutText)

/-- A condition without what its texts say. -/
def Expr.withoutTexts : Expr → Expr
  | compare x op y => compare x.withoutTexts op y.withoutTexts
  | combine e₁ op e₂ => combine e₁.withoutTexts op e₂.withoutTexts

/-- The text that a lexeme is. -/
def Lexeme.texts : Lexeme → List String
  | str s => [s]
  | _ => []

theorem Literal.lexeme_withoutText (l : Literal) :
    l.withoutText.lexeme = l.lexeme.withoutText := by
  cases l <;> rfl

theorem Literal.texts_lexeme (l : Literal) : l.lexeme.texts = l.texts := by
  cases l <;> rfl

theorem Operand.DerivesItems.withoutTexts {ls : List Lexeme} {items : List Literal}
    (h : DerivesItems ls items) :
    DerivesItems (ls.map Lexeme.withoutText) (items.map Literal.withoutText) := by
  induction h with
  | nil => exact .nil
  | cons l _ ih =>
    rw [List.map_cons, List.map_cons, List.map_cons, ← l.lexeme_withoutText]
    exact .cons l.withoutText ih

theorem Operand.Derives.withoutTexts {ls : List Lexeme} {x : Operand} (h : Derives ls x) :
    Derives (ls.map Lexeme.withoutText) x.withoutTexts := by
  cases h with
  | attr name => exact .attr name
  | literal l =>
    rw [List.map_singleton, ← l.lexeme_withoutText]
    exact .literal l.withoutText
  | list first hitems =>
    rw [List.map_cons, List.map_cons, ← first.lexeme_withoutText]
    exact .list first.withoutText hitems.withoutTexts

theorem Operand.DerivesItems.texts_eq {ls : List Lexeme} {items : List Literal}
    (h : DerivesItems ls items) : ls.flatMap Lexeme.texts = items.flatMap Literal.texts := by
  induction h with
  | nil => rfl
  | cons l _ ih =>
    rw [List.flatMap_cons, List.flatMap_cons, List.flatMap_cons, ih, l.texts_lexeme]
    rfl

theorem Operand.Derives.texts_eq {ls : List Lexeme} {x : Operand} (h : Derives ls x) :
    ls.flatMap Lexeme.texts = x.texts := by
  cases h with
  | attr name => rfl
  | literal l => rw [List.flatMap_singleton, l.texts_lexeme, texts]
  | list first hitems =>
    rw [List.flatMap_cons, List.flatMap_cons, hitems.texts_eq, first.texts_lexeme, texts,
      List.flatMap_cons]
    rfl

namespace Expr

/-- Lexemes without what texts say derive the condition without what its texts say. -/
theorem Derives.withoutTexts {p : Phrase} {ls : List Lexeme} {e : Expr} (h : Derives p ls e) :
    Derives p (ls.map Lexeme.withoutText) e.withoutTexts := by
  induction h with
  | group _ ih => exact .group ih
  | combine op _ _ ih₁ ih₂ =>
    rw [List.map_append, List.map_cons]
    exact .combine op ih₁ ih₂
  | paren _ ih =>
    rw [List.map_cons, List.map_append]
    exact .paren ih
  | compare op hx hy =>
    rw [List.map_append, List.map_cons]
    exact .compare op hx.withoutTexts hy.withoutTexts

/-- The texts of a condition are those among its lexemes. -/
theorem Derives.texts_eq {p : Phrase} {ls : List Lexeme} {e : Expr} (h : Derives p ls e) :
    ls.flatMap Lexeme.texts = e.texts := by
  induction h with
  | group _ ih => exact ih
  | combine op _ _ ih₁ ih₂ =>
    rw [List.flatMap_append, List.flatMap_cons, ih₁, ih₂]
    rfl
  | paren _ ih =>
    rw [List.flatMap_cons, List.flatMap_append, ih]
    exact List.append_nil _
  | compare op hx hy =>
    rw [List.flatMap_append, List.flatMap_cons, hx.texts_eq, hy.texts_eq]
    rfl

end Expr

/-- Lexemes that are the same apart from what texts say are the same if the texts say the same. -/
theorem Lexeme.eq_of_texts_eq {ls ms : List Lexeme}
    (h : ls.map withoutText = ms.map withoutText)
    (htexts : ls.flatMap texts = ms.flatMap texts) : ls = ms := by
  induction ls generalizing ms with
  | nil => exact (List.map_eq_nil_iff.mp h.symm).symm
  | cons l ls ih =>
    obtain ⟨m, ms, rfl, hm, htail⟩ := List.map_eq_cons_iff.mp h.symm
    rw [List.flatMap_cons, List.flatMap_cons] at htexts
    by_cases hl : ∃ s, l = .str s
    · obtain ⟨s, rfl⟩ := hl
      obtain ⟨t, rfl⟩ := Token.withoutText_eq_str_iff.mp hm
      have hcons : s :: ls.flatMap texts = t :: ms.flatMap texts := htexts
      obtain ⟨rfl, hrest⟩ := List.cons.inj hcons
      rw [ih htail.symm hrest]
    · rw [not_exists] at hl
      rw [Token.withoutText_eq_self hl] at hm
      have hmtext : ∀ t, m ≠ .str t := by
        rintro t rfl
        exact hl "" hm.symm
      rw [Token.withoutText_eq_self hmtext] at hm
      rw [hm] at htexts
      rw [hm, ih htail.symm (List.append_cancel_left htexts)]

/-! ## Conditions of statements -/

namespace Expr

variable {s t : String} {e f : Expr}

/-- The characters within the texts of a statement as they are written. -/
def textChars (stmt : String) : List Char :=
  Token.insideChars .outside stmt.toList

/-- Whether two statements that are read as conditions differ at most within their texts, and there
in white space only. -/
structure Alike (s t : String) (e f : Expr) : Prop where
  withoutTexts_eq : e.withoutTexts = f.withoutTexts
  ink_eq : Text.ink (textChars s) = Text.ink (textChars t)

theorem exists_isScanned_of_parse (h : parse s = .ok e) :
    ∃ ls, Token.IsScanned s.toList ls ∧ Derives .condition ls e := by
  obtain ⟨ts, hts, hderives⟩ := parse_eq_ok_iff.mp h
  exact ⟨ts.map Token.lexeme, Token.isScanned_of_scan hts, hderives⟩

/-- **Statements that differ in white space only.** They say the same apart from their texts, and
their conditions are the same exactly if the texts are, which the characters within them tell. -/
theorem alike_of_ink_eq (h : Text.ink s.toList = Text.ink t.toList) (he : parse s = .ok e)
    (hf : parse t = .ok f) :
    Alike s t e f ∧ (e = f ↔ e.texts = f.texts) ∧ (textChars s = textChars t → e = f) := by
  obtain ⟨ls, hls, hlderives⟩ := exists_isScanned_of_parse he
  obtain ⟨ms, hms, hmderives⟩ := exists_isScanned_of_parse hf
  obtain ⟨hlexemes, hinside⟩ :=
    hls.withoutText_eq hms h hlderives.isChain_meets hmderives.isChain_meets
  have hwithout : e.withoutTexts = f.withoutTexts :=
    hlderives.withoutTexts.unique (hlexemes ▸ hmderives.withoutTexts)
  have heq : ls = ms → e = f := by
    rintro rfl
    exact hlderives.unique hmderives
  refine ⟨⟨hwithout, hinside⟩, ⟨fun h => h ▸ rfl, fun htexts => ?_⟩, fun hchars => ?_⟩
  · have hsame : ls.flatMap Lexeme.texts = ms.flatMap Lexeme.texts := by
      rw [hlderives.texts_eq, hmderives.texts_eq, htexts]
    exact heq (Lexeme.eq_of_texts_eq hlexemes hsame)
  · have hread : Token.ReadsTexts ms (textChars s) := hchars ▸ hms.readsTexts
    exact heq (Token.eq_of_readsTexts hls.readsTexts hread hlexemes)

end Expr

end BuildMatrix
