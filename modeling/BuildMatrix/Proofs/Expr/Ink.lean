import BuildMatrix.Proofs.Expr.Lexing
import BuildMatrix.Proofs.Expr.Place
import Mathlib.Data.List.Chain

/-!
# Lexemes without white space

Names, numbers and operators cannot be told apart where they stand close together. But two names or
numbers never follow each other in a condition, nor do two comparison operators, and then the
characters of a statement that are not white space tell its lexemes: no lexeme goes on where another
one may begin. Of a text only its opening quote stands outside of texts, so lexemes are compared
without what their texts say.

* `Lexeme.Meets`: lexemes that may follow each other.
* `Lexeme.IsWritten`, `Lexeme.Written`: the characters that lexemes are written with.
* `Lexeme.not_runs_on`: no lexeme goes on where another one begins.
* `Lexeme.eq_of_written`: the characters tell the lexemes.
-/

namespace BuildMatrix

namespace Lexeme

/-! ## Lexemes that meet -/

/-- Whether a lexeme is a name or a number. -/
def isWord : Lexeme → Bool
  | attr _ | int _ => true
  | _ => false

/-- Whether a lexeme is a comparison operator. -/
def isCompare : Lexeme → Bool
  | compare _ => true
  | _ => false

/-- Whether a lexeme may follow another one: they are neither names or numbers both, nor both
comparison operators. -/
structure Meets (l m : Lexeme) : Prop where
  word : l.isWord = true → m.isWord = false
  compare : l.isCompare = true → m.isCompare = false

/-- The lexeme without what its text says. -/
def withoutText : Lexeme → Lexeme
  | str _ => str ""
  | l => l

/-! ## Written lexemes -/

/-- The characters of a lexeme that is neither a name nor a number, without white space. Of a text
only the opening quote is left. -/
def ink : Lexeme → List Char
  | str _ => ['"']
  | compare .notIn => ['n', 'o', 't', 'i', 'n']
  | l => l.render.toList

/-- The characters of all lexemes that are neither names nor numbers. -/
def inks : List (List Char × Lexeme) :=
  [(['"'], str ""), (['('], leftParen), ([')'], rightParen), (['['], leftBracket),
    ([']'], rightBracket), ([','], comma), (['a', 'n', 'd'], combine .and),
    (['o', 'r'], combine .or), (['=', '='], compare .eq), (['!', '='], compare .ne),
    (['<'], compare .lt), (['<', '='], compare .le), (['>'], compare .gt),
    (['>', '='], compare .ge), (['i', 'n'], compare .isIn),
    (['n', 'o', 't', 'i', 'n'], compare .notIn)]

theorem mem_inks {l : Lexeme} (h : l.isWord = false) : (l.ink, l.withoutText) ∈ inks := by
  cases l with
  | attr name => exact absurd h nofun
  | int n => exact absurd h nofun
  | str s => exact List.mem_cons_self
  | compare op => cases op <;> decide
  | combine op => cases op <;> decide
  | _ => decide

/-- Of these lexemes only a comparison operator goes on as another one, by an equals sign. -/
theorem prefix_of_mem_inks : ∀ a ∈ inks, ∀ b ∈ inks, a.1 <+: b.1 →
    a = b ∨ a.2.isCompare = true ∧ b.1 = a.1 ++ ['='] := by
  decide

theorem exists_cons_of_any {p : Char → Prop} [DecidablePred p] {cs : List Char}
    (h : (cs.head?.any fun c => decide (p c)) = true) : ∃ c rest, cs = c :: rest ∧ p c := by
  obtain ⟨c, hc, hdecide⟩ := (Option.any_eq_true _ _).mp h
  obtain ⟨rest, rfl⟩ := List.head?_eq_some_iff.mp hc
  exact ⟨c, rest, rfl, of_decide_eq_true hdecide⟩

/-- No such lexeme begins like a name or a number, and only comparison operators begin with an
equals sign. -/
theorem head_of_mem_inks {a : List Char × Lexeme} (h : a ∈ inks) : ∃ c cs, a.1 = c :: cs ∧
    ¬ (c.isUpper = true ∨ c = '-' ∨ c.isDigit = true) ∧ (c = '=' → a.2.isCompare = true) := by
  refine exists_cons_of_any ?_
  revert a
  decide

/-- A character of a number after its first one. -/
def IsNumeralChar (c : Char) : Prop :=
  (Text.digitValue c).isSome ∨ c = 'x'

/-- Whether a text is how a number is written. -/
structure IsNumeral (n : Int) (w : List Char) : Prop where
  head : ∃ c cs, w = c :: cs ∧ (c = '-' ∨ c.isDigit = true) ∧ ∀ d ∈ cs, IsNumeralChar d
  scanInt_eq : Token.scanInt w = .ok (.int n, [])

/-- Whether a text is how a lexeme is written, without white space. -/
def IsWritten : Lexeme → List Char → Prop
  | attr name, w => w = name.toList ∧ IsName w
  | int n, w => IsNumeral n w
  | l, w => w = l.ink

/-- Whether a text is how some lexemes are written one after the other, without white space. -/
inductive Written : List Lexeme → List Char → Prop
  | nil : Written [] []
  | cons {l : Lexeme} {ls : List Lexeme} {w cs : List Char} :
    l.IsWritten w → Written ls cs → Written (l :: ls) (w ++ cs)

variable {l m x : Lexeme} {ls ms : List Lexeme} {w cs : List Char} {c : Char}

theorem isWritten_of_not_isWord (h : l.isWord = false) : l.IsWritten w ↔ w = l.ink := by
  cases l with
  | attr name => exact absurd h nofun
  | int n => exact absurd h nofun
  | _ => exact Iff.rfl

/-- What a lexeme is written with begins like a name or a number exactly if it is one. -/
theorem IsWritten.exists_head (h : l.IsWritten w) : ∃ c cs, w = c :: cs ∧
    (l.isWord = true ↔ c.isUpper = true ∨ c = '-' ∨ c.isDigit = true) := by
  cases hword : l.isWord with
  | true =>
    cases l with
    | attr name =>
      obtain ⟨c, cs, hcs, hc⟩ := h.2.isUpper_head
      exact ⟨c, cs, hcs, iff_of_true rfl (Or.inl hc)⟩
    | int n =>
      obtain ⟨c, cs, hcs, hc, -⟩ := IsNumeral.head h
      exact ⟨c, cs, hcs, iff_of_true rfl (Or.inr hc)⟩
    | _ => exact absurd hword nofun
  | false =>
    obtain rfl := (isWritten_of_not_isWord hword).mp h
    obtain ⟨c, cs, hcs, hc, -⟩ := head_of_mem_inks (mem_inks hword)
    exact ⟨c, cs, hcs, iff_of_false nofun hc⟩

theorem IsWritten.ne_nil (h : l.IsWritten w) : w ≠ [] := by
  obtain ⟨c, cs, rfl, -⟩ := h.exists_head
  exact List.cons_ne_nil c cs

/-- A lexeme that begins like a name or a number is one. -/
theorem IsWritten.isWord_iff (h : l.IsWritten (c :: cs)) :
    l.isWord = true ↔ c.isUpper = true ∨ c = '-' ∨ c.isDigit = true := by
  obtain ⟨d, ds, heq, hiff⟩ := h.exists_head
  obtain ⟨rfl, -⟩ := List.cons.inj heq
  exact hiff

theorem isCompare_withoutText (l : Lexeme) : l.withoutText.isCompare = l.isCompare := by
  cases l <;> rfl

theorem IsWritten.isCompare_of_equals (h : l.IsWritten ('=' :: cs)) : l.isCompare = true := by
  have hword : l.isWord = false := by
    rw [← Bool.not_eq_true, h.isWord_iff]
    decide
  have hink : '=' :: cs = l.ink := (isWritten_of_not_isWord hword).mp h
  obtain ⟨c, cs, hcs, -, hequals⟩ := head_of_mem_inks (mem_inks hword)
  obtain ⟨hc, -⟩ := List.cons.inj (hink.trans hcs)
  rw [← isCompare_withoutText]
  exact hequals hc.symm

/-- The first of some lexemes is written at the start. -/
theorem Written.exists_first (h : Written ls (c :: cs)) : ∃ x xs v ds,
    ls = x :: xs ∧ x.IsWritten (c :: v) ∧ Written xs ds ∧ cs = v ++ ds := by
  generalize hall : c :: cs = all at h
  cases h with
  | nil => exact absurd hall nofun
  | @cons x xs w ds hx hxs =>
    obtain ⟨d, v, rfl⟩ := List.exists_cons_of_ne_nil hx.ne_nil
    obtain ⟨rfl, rfl⟩ := List.cons.inj hall
    exact ⟨x, xs, v, ds, rfl, hx, hxs, rfl⟩

/-! ## No lexeme runs on -/

/-- Of the lexemes that are neither names nor numbers, none begins with a character that a name may
go on with, and only `and` begins with one that a number may go on with. -/
theorem goesOn_of_mem_inks {a : List Char × Lexeme} (h : a ∈ inks) : ∃ c cs, a.1 = c :: cs ∧
    ¬ (Token.isWordChar c = true ∧ c.isLower = false) ∧
      ((Text.digitValue c).isSome ∨ c = 'x' → a.1 = ['a', 'n', 'd']) ∧
      (c = 'n' → a.1 = ['n', 'o', 't', 'i', 'n']) := by
  refine exists_cons_of_any ?_
  revert a
  decide

theorem IsWritten.goesOn (h : x.IsWritten (c :: cs)) (hword : x.isWord = false) :
    ¬ (Token.isWordChar c = true ∧ c.isLower = false) ∧
      (IsNumeralChar c → c :: cs = ['a', 'n', 'd']) ∧
      (c = 'n' → c :: cs = ['n', 'o', 't', 'i', 'n']) := by
  have hink : c :: cs = x.ink := (isWritten_of_not_isWord hword).mp h
  obtain ⟨d, ds, hds, hall⟩ := goesOn_of_mem_inks (mem_inks hword)
  obtain ⟨rfl, -⟩ := List.cons.inj (hink.trans hds)
  rwa [← hink] at hall

/-- Lexemes that are written with the same first character are both names or numbers, or none of
them is. -/
theorem isWord_eq_of_head {d : Char} {v : List Char} (hl : l.IsWritten (d :: cs))
    (hm : m.IsWritten (d :: v)) : l.isWord = m.isWord := by
  rw [Bool.eq_iff_iff, hl.isWord_iff, hm.isWord_iff]

/-- What follows a number does not begin like the `and` that the number could go on with. -/
theorem not_written_nd (h : Written ls ('n' :: 'd' :: cs)) : False := by
  obtain ⟨x, xs, v, ds, rfl, hx, -, heq⟩ := h.exists_first
  have hword : x.isWord = false := by
    rw [← Bool.not_eq_true, hx.isWord_iff]
    decide
  have hnot := (List.cons.inj ((hx.goesOn hword).2.2 rfl)).2
  rw [hnot] at heq
  exact absurd (List.cons.inj heq).1 (by decide)

/-- A number does not go on where a lexeme that is neither a name nor a number begins: it would have
to go on with the first letter of `and` and end before the second. -/
theorem IsNumeral.not_runs_on {n : Int} {d : Char} {u v ink ds : List Char}
    (hm : IsNumeral n (d :: w ++ c :: v)) (hx : x.IsWritten (c :: u)) (hword : x.isWord = false)
    (htail : v ++ ink = u ++ ds) (hms : Written ms ink) : False := by
  obtain ⟨_, _, heq, -, hchars⟩ := hm.head
  obtain ⟨-, rfl⟩ := List.cons.inj heq
  obtain ⟨-, hnumber, -⟩ := hx.goesOn hword
  have hand := hnumber (hchars c (List.mem_append_right _ List.mem_cons_self))
  obtain ⟨rfl, rfl⟩ := List.cons.inj hand
  cases v with
  | nil =>
    rw [List.nil_append] at htail
    rw [htail] at hms
    exact not_written_nd hms
  | cons e v =>
    obtain ⟨rfl, -⟩ := List.cons.inj htail
    have hn := hchars 'n' (List.mem_append_right _ (List.mem_cons_of_mem _ List.mem_cons_self))
    exact absurd hn (by rw [IsNumeralChar]; decide)

/-- Of the lexemes that are neither names nor numbers, only a comparison operator goes on as another
one, by an equals sign. -/
theorem eq_or_isCompare_of_append {v : List Char} (hl : l.IsWritten w) (hlword : l.isWord = false)
    (hm : m.IsWritten (w ++ v)) (hmword : m.isWord = false) :
    (v = [] ∧ l.withoutText = m.withoutText) ∨ (v = ['='] ∧ l.isCompare = true) := by
  have hlink := (isWritten_of_not_isWord hlword).mp hl
  have hmink := (isWritten_of_not_isWord hmword).mp hm
  have hprefix : l.ink <+: m.ink := ⟨v, by rw [← hlink, ← hmink]⟩
  rcases prefix_of_mem_inks _ (mem_inks hlword) _ (mem_inks hmword) hprefix with
    heq | ⟨hcompare, heq⟩
  · obtain ⟨hink, hsame⟩ := Prod.mk.inj heq
    rw [← hlink, ← hmink] at hink
    exact Or.inl ⟨List.self_eq_append_right.mp hink, hsame⟩
  · dsimp only at heq
    rw [← hlink, ← hmink] at heq
    rw [isCompare_withoutText] at hcompare
    exact Or.inr ⟨List.append_cancel_left heq, hcompare⟩

/-- **No lexeme runs on.** A lexeme that others follow is not the beginning of a longer one that the
same characters are written with. -/
theorem not_runs_on (hl : l.IsWritten w) {v ink : List Char} (hls : Written ls (c :: (v ++ ink)))
    (hmeets : ∀ x ∈ ls.head?, l.Meets x) (hm : m.IsWritten (w ++ c :: v))
    (hms : Written ms ink) : False := by
  obtain ⟨x, xs, u, ds, rfl, hx, -, htail⟩ := hls.exists_first
  have hmeets : l.Meets x := hmeets x rfl
  obtain ⟨d, w, rfl⟩ := List.exists_cons_of_ne_nil hl.ne_nil
  have hsame : l.isWord = m.isWord := isWord_eq_of_head hl hm
  cases hword : m.isWord with
  | true =>
    have hnext : x.isWord = false := hmeets.word (hsame.trans hword)
    cases m with
    | attr name =>
      have hchar : c ∈ d :: w ++ c :: v := List.mem_append_right _ List.mem_cons_self
      refine (hx.goesOn hnext).1 ⟨hm.2.isWordChar c hchar, ?_⟩
      simpa using List.any_eq_false.mp hm.2.not_isLower c hchar
    | int n => exact IsNumeral.not_runs_on hm hx hnext htail hms
    | _ => exact absurd hword nofun
  | false =>
    rcases eq_or_isCompare_of_append hl (hsame.trans hword) hm hword with
      ⟨hnil, -⟩ | ⟨hequals, hcompare⟩
    · exact absurd hnil nofun
    · obtain ⟨rfl, -⟩ := List.cons.inj hequals
      exact absurd (hmeets.compare hcompare) (by rw [hx.isCompare_of_equals]; decide)

/-- No text is both a name and a number. -/
theorem not_isNumeral_of_isName {n : Int} (hname : IsName w) (hnumber : IsNumeral n w) : False := by
  obtain ⟨c, cs, rfl, hupper⟩ := hname.isUpper_head
  obtain ⟨d, ds, heq, hd, -⟩ := hnumber.head
  obtain ⟨rfl, -⟩ := List.cons.inj heq
  rcases hd with rfl | hdigit
  · exact absurd hupper (by decide)
  · exact absurd ((Token.isDigit_of_isUpper hupper).symm.trans hdigit) nofun

/-- What a lexeme is written with tells the lexeme, apart from what its text says. -/
theorem withoutText_eq_of_isWritten (hl : l.IsWritten w) (hm : m.IsWritten w) :
    l.withoutText = m.withoutText := by
  obtain ⟨d, w, rfl⟩ := List.exists_cons_of_ne_nil hl.ne_nil
  have hsame : l.isWord = m.isWord := isWord_eq_of_head hl hm
  cases hword : m.isWord with
  | true =>
    cases m with
    | attr name =>
      cases l with
      | attr name' => rw [String.toList_inj.mp (hl.1.symm.trans hm.1)]
      | int n => exact (not_isNumeral_of_isName hm.2 hl).elim
      | _ => exact absurd (hsame.trans hword) nofun
    | int n =>
      cases l with
      | attr name => exact (not_isNumeral_of_isName hl.2 hm).elim
      | int n' =>
        have hscan := Except.ok.inj ((IsNumeral.scanInt_eq hl).symm.trans (IsNumeral.scanInt_eq hm))
        rw [(Prod.mk.inj hscan).1]
      | _ => exact absurd (hsame.trans hword) nofun
    | _ => exact absurd hword nofun
  | false =>
    have hempty : m.IsWritten (d :: w ++ []) := (List.append_nil (d :: w)).symm ▸ hm
    rcases eq_or_isCompare_of_append hl (hsame.trans hword) hempty hword with
      ⟨-, heq⟩ | ⟨hnil, -⟩
    · exact heq
    · exact absurd hnil nofun

/-- **Characters tell lexemes.** Lexemes that are written with the same characters, white space
aside, are the same apart from what their texts say, as long as each may follow the one before
it. -/
theorem eq_of_written (hls : Written ls cs) (hms : Written ms cs) (hlchain : ls.IsChain Meets)
    (hmchain : ms.IsChain Meets) : ls.map withoutText = ms.map withoutText := by
  induction hls generalizing ms with
  | nil =>
    generalize hnil : ([] : List Char) = ink at hms
    cases hms with
    | nil => rfl
    | cons hm _ => exact absurd (List.append_eq_nil_iff.mp hnil.symm).1 hm.ne_nil
  | @cons l ls w cs hl hls ih =>
    generalize hall : w ++ cs = ink at hms
    cases hms with
    | nil => exact absurd (List.append_eq_nil_iff.mp hall).1 hl.ne_nil
    | @cons m ms u ds hm hms =>
      obtain ⟨hlhead, hltail⟩ := List.isChain_cons.mp hlchain
      obtain ⟨hmhead, hmtail⟩ := List.isChain_cons.mp hmchain
      -- If one of the first lexemes were written shorter, it would run on into the other one.
      have hsplit : u = w := by
        rcases List.append_eq_append_iff.mp hall with ⟨v, hu, hcs⟩ | ⟨v, hw, hds⟩
        · cases v with
          | nil => rw [hu, List.append_nil]
          | cons c v => exact (not_runs_on hl (hcs ▸ hls) hlhead (hu ▸ hm) hms).elim
        · cases v with
          | nil => rw [hw, List.append_nil]
          | cons c v => exact (not_runs_on hm (hds ▸ hms) hmhead (hw ▸ hl) hls).elim
      subst hsplit
      rw [List.map_cons, List.map_cons, withoutText_eq_of_isWritten hl hm,
        ih (List.append_cancel_left hall ▸ hms) hltail hmtail]

end Lexeme

end BuildMatrix
