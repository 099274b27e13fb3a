import BuildMatrix.Text.Blank
import Mathlib.Data.List.Basic

/-!
# Texts within a statement

A quote begins a text within a statement, and the next quote that no backslash stands before ends
it. Two statements that differ in white space only agree in which of their characters stand within
texts: if a quote ended a text in one of them and not in the other, each quote after it would begin
a text in one and end it in the other, so one of the two would not be closed.

* `Text.SameInk`: texts that agree apart from white space (`Text.sameInk_of_ink_eq`).
* `Token.Place`, `Token.Closes`: whether the texts of a statement are closed.
* `Token.not_closes_of_sameInk`: statements that are apart stay apart.
* `Token.agree_of_sameInk`: so the characters within texts are the same, and so are those outside.
-/

namespace BuildMatrix

/-! ## White space aside -/

namespace Text

/-- The characters of a text that are not white space. -/
def ink (cs : List Char) : List Char :=
  cs.filter fun c => !isBlank c

theorem ink_append (cs ds : List Char) : ink (cs ++ ds) = ink cs ++ ink ds :=
  List.filter_append _ _

theorem ink_cons_blank {c : Char} (hc : isBlank c = true) (cs : List Char) :
    ink (c :: cs) = ink cs :=
  List.filter_cons_of_neg (by simp [hc])

theorem ink_cons {c : Char} (hc : isBlank c = false) (cs : List Char) :
    ink (c :: cs) = c :: ink cs :=
  List.filter_cons_of_pos (by simp [hc])

theorem ink_eq_self {cs : List Char} (h : ∀ c ∈ cs, isBlank c = false) : ink cs = cs :=
  List.filter_eq_self.mpr fun c hc => by simp [h c hc]

/-- Whether two texts agree apart from white space. -/
inductive SameInk : List Char → List Char → Prop
  | nil : SameInk [] []
  | left {c : Char} {cs ds : List Char} : isBlank c = true → SameInk cs ds → SameInk (c :: cs) ds
  | right {c : Char} {cs ds : List Char} : isBlank c = true → SameInk cs ds → SameInk cs (c :: ds)
  | both {c : Char} {cs ds : List Char} :
    isBlank c = false → SameInk cs ds → SameInk (c :: cs) (c :: ds)

theorem sameInk_nil {ds : List Char} (h : ink ds = []) : SameInk [] ds := by
  induction ds with
  | nil => exact .nil
  | cons d ds ih =>
    cases hd : isBlank d with
    | true => exact .right hd (ih (by rwa [ink_cons_blank hd] at h))
    | false =>
      rw [ink_cons hd] at h
      exact absurd h (List.cons_ne_nil _ _)

theorem sameInk_cons {c : Char} {cs ds : List Char} (hc : isBlank c = false)
    (ih : ∀ {ds}, ink cs = ink ds → SameInk cs ds) (h : c :: ink cs = ink ds) :
    SameInk (c :: cs) ds := by
  induction ds with
  | nil => exact absurd h (List.cons_ne_nil _ _)
  | cons d ds ihd =>
    cases hd : isBlank d with
    | true => exact .right hd (ihd (by rwa [ink_cons_blank hd] at h))
    | false =>
      rw [ink_cons hd] at h
      obtain ⟨hcd, htail⟩ := List.cons.inj h
      subst hcd
      exact .both hc (ih htail)

theorem sameInk_of_ink_eq {cs ds : List Char} (h : ink cs = ink ds) : SameInk cs ds := by
  induction cs generalizing ds with
  | nil => exact sameInk_nil h.symm
  | cons c cs ih =>
    cases hc : isBlank c with
    | true => exact .left hc (ih (by rwa [ink_cons_blank hc] at h))
    | false => exact sameInk_cons hc ih (by rwa [ink_cons hc] at h)

end Text

namespace Token

/-! ## Places -/

/-- Where a character of a statement stands: outside of texts, inside of one, or inside of one after
a backslash. -/
inductive Place
  | outside
  | inside
  | escaped
  deriving DecidableEq, Repr

/-- The place after a character. -/
def Place.next : Place → Char → Place
  | outside, c => if c = '"' then inside else outside
  | inside, c => if c = '"' then outside else if c = '\\' then escaped else inside
  | escaped, _ => inside

/-- Whether all texts are closed from a place on, and no backslash stands outside of them. -/
def Closes : Place → List Char → Prop
  | p, [] => p = .outside
  | p, c :: cs => (p = .outside → c ≠ '\\') ∧ Closes (p.next c) cs

/-- The characters outside of texts that are not white space, from a place on. The quotes that begin
texts are among them. -/
def outsideInk : Place → List Char → List Char
  | _, [] => []
  | p, c :: cs =>
    if p = .outside ∧ Text.isBlank c = false then c :: outsideInk (p.next c) cs
    else outsideInk (p.next c) cs

/-- The characters inside of texts as they are written, from a place on. The quotes that end texts
are among them. -/
def insideChars : Place → List Char → List Char
  | _, [] => []
  | p, c :: cs =>
    if p = .outside then insideChars (p.next c) cs else c :: insideChars (p.next c) cs

theorem ne_of_isBlank {c : Char} (hc : Text.isBlank c = true) : c ≠ '"' ∧ c ≠ '\\' := by
  constructor <;>
  · rintro rfl
    exact absurd hc (by decide)

theorem next_of_ne {c : Char} (hquote : c ≠ '"') (hslash : c ≠ '\\') :
    Place.outside.next c = .outside ∧ Place.inside.next c = .inside := by
  rw [Place.next, Place.next, if_neg hquote, if_neg hquote, if_neg hslash]
  exact ⟨rfl, rfl⟩

/-- White space leads neither into a text nor out of one. -/
theorem next_blank_eq_outside_iff {c : Char} (hc : Text.isBlank c = true) (p : Place) :
    p.next c = .outside ↔ p = .outside := by
  obtain ⟨hquote, hslash⟩ := ne_of_isBlank hc
  cases p with
  | outside => rw [(next_of_ne hquote hslash).1]
  | inside => rw [(next_of_ne hquote hslash).2]
  | escaped => exact iff_of_false nofun nofun

theorem outsideInk_cons_blank {c : Char} (hc : Text.isBlank c = true) (p : Place)
    (cs : List Char) : outsideInk p (c :: cs) = outsideInk (p.next c) cs := by
  rw [outsideInk, if_neg (by simp [hc])]

theorem ink_insideChars_cons_blank {c : Char} (hc : Text.isBlank c = true) (p : Place)
    (cs : List Char) :
    Text.ink (insideChars p (c :: cs)) = Text.ink (insideChars (p.next c) cs) := by
  rw [insideChars]
  split
  · rfl
  · exact Text.ink_cons_blank hc _

/-! ## Statements that differ in white space only -/

variable {u v : List Char}

/-- Statements that differ in white space only, one of them within a text and the other one not, are
not both closed: they change roles at each quote. -/
theorem not_closes_of_sameInk (h : Text.SameInk u v) :
    (Closes .outside u → ¬ Closes .inside v) ∧ (Closes .inside u → ¬ Closes .outside v) := by
  induction h with
  | nil => exact ⟨fun _ h => absurd h nofun, fun h => absurd h nofun⟩
  | left hc _ ih =>
    obtain ⟨houtside, hinside⟩ := next_of_ne (ne_of_isBlank hc).1 (ne_of_isBlank hc).2
    rw [Closes, Closes, houtside, hinside]
    exact ⟨fun hu => ih.1 hu.2, fun hu => ih.2 hu.2⟩
  | right hc _ ih =>
    obtain ⟨houtside, hinside⟩ := next_of_ne (ne_of_isBlank hc).1 (ne_of_isBlank hc).2
    rw [Closes, Closes, houtside, hinside]
    exact ⟨fun hu hv => ih.1 hu hv.2, fun hu hv => ih.2 hu hv.2⟩
  | @both c cs ds _ _ ih =>
    rw [Closes, Closes, Closes, Closes]
    -- Of the two places of a backslash one is outside of texts, where none may stand.
    by_cases hslash : c = '\\'
    · exact ⟨fun hu => absurd hslash (hu.1 rfl), fun _ hv => absurd hslash (hv.1 rfl)⟩
    by_cases hquote : c = '"'
    · subst hquote
      exact ⟨fun hu hv => ih.2 hu.2 hv.2, fun hu hv => ih.1 hu.2 hv.2⟩
    · obtain ⟨houtside, hinside⟩ := next_of_ne hquote hslash
      rw [houtside, hinside]
      exact ⟨fun hu hv => ih.1 hu.2 hv.2, fun hu hv => ih.2 hu.2 hv.2⟩

/-- Inside of texts, the next place is outside after a quote with no backslash before it, and then
inside in the other case. -/
theorem apart_of_not_iff {p q : Place} {c : Char} (hpq : p = .outside ↔ q = .outside)
    (hnext : ¬ (p.next c = .outside ↔ q.next c = .outside)) :
    (p.next c = .outside ∧ q.next c = .inside) ∨ (p.next c = .inside ∧ q.next c = .outside) := by
  by_cases hquote : c = '"'
  · subst hquote
    cases p <;> cases q <;> simp_all [Place.next]
  · refine absurd ?_ hnext
    have hstays : ∀ p : Place, p.next c = .outside ↔ p = .outside := by
      intro p
      cases p with
      | outside => simp [Place.next, hquote]
      | inside => by_cases hslash : c = '\\' <;> simp [Place.next, hquote, hslash]
      | escaped => simp [Place.next]
    rw [hstays, hstays]
    exact hpq

/-- Statements that differ in white space only agree in the characters outside of texts and in those
inside. -/
theorem agree_of_sameInk (h : Text.SameInk u v) :
    ∀ {p q : Place}, (p = .outside ↔ q = .outside) → Closes p u → Closes q v →
      outsideInk p u = outsideInk q v ∧
        Text.ink (insideChars p u) = Text.ink (insideChars q v) := by
  induction h with
  | nil => exact fun _ _ _ => ⟨rfl, rfl⟩
  | left hc _ ih =>
    intro p q hpq hu hv
    rw [outsideInk_cons_blank hc, ink_insideChars_cons_blank hc]
    exact ih ((next_blank_eq_outside_iff hc p).trans hpq) hu.2 hv
  | right hc _ ih =>
    intro p q hpq hu hv
    rw [outsideInk_cons_blank hc, ink_insideChars_cons_blank hc]
    exact ih (hpq.trans (next_blank_eq_outside_iff hc q).symm) hu hv.2
  | @both c cs ds hc hsame ih =>
    intro p q hpq hu hv
    -- where the places part, one statement is not closed
    have hnext : p.next c = .outside ↔ q.next c = .outside := by
      by_contra hnot
      obtain ⟨hp, hq⟩ | ⟨hp, hq⟩ := apart_of_not_iff hpq hnot
      · exact (not_closes_of_sameInk hsame).1 (hp ▸ hu.2) (hq ▸ hv.2)
      · exact (not_closes_of_sameInk hsame).2 (hp ▸ hu.2) (hq ▸ hv.2)
    obtain ⟨houtside, hinside⟩ := ih hnext hu.2 hv.2
    rw [outsideInk, outsideInk, insideChars, insideChars]
    by_cases hp : p = .outside
    · have hq := hpq.mp hp
      rw [if_pos ⟨hp, hc⟩, if_pos ⟨hq, hc⟩, if_pos hp, if_pos hq, houtside]
      exact ⟨rfl, hinside⟩
    · have hq : ¬ q = .outside := fun hq => hp (hpq.mpr hq)
      rw [if_neg fun h => hp h.1, if_neg fun h => hq h.1, if_neg hp, if_neg hq, Text.ink_cons hc,
        Text.ink_cons hc, hinside]
      exact ⟨houtside, rfl⟩

end Token

end BuildMatrix
