import BuildMatrix.Proofs.Expr.Spelling
import BuildMatrix.Proofs.Outcome

/-!
# White space splits statements

A statement is white space and the spellings of its tokens, each at its offset, which is counted in
bytes. No lexeme can tell white space that follows it from the end of the statement: words and
numbers end there, an operator is not continued there, a text is closed before, and so is `not in`.
So two statements with white space between them have the tokens of the first one and then those of
the second one, as many bytes later.

* `Token.LaidOut`, `Token.laidOut_of_scan`: where the tokens of a statement stand.
* `Token.LaidOut.pairwise`, `Token.LaidOut.exists_written`: their offsets rise, and each is the
  place of the token's spelling.
* `Token.Extends`, `Token.extends_scanLexeme`: white space after a lexeme is like the end.
* `Token.scan_add`, `Token.scan_append_blank`: scanning further on, and scanning on.
* `Expr.tokenize_splits`: white space splits statements.
-/

namespace BuildMatrix

/-! ## Bytes -/

namespace Text

theorem byteLength_cons (c : Char) (cs : List Char) :
    byteLength (c :: cs) = c.utf8Size + byteLength cs := rfl

theorem byteLength_append (cs ds : List Char) :
    byteLength (cs ++ ds) = byteLength cs + byteLength ds := by
  induction cs with
  | nil => exact (Nat.zero_add _).symm
  | cons c cs ih => rw [List.cons_append, byteLength_cons, byteLength_cons, ih, Nat.add_assoc]

theorem byteLength_pos {cs : List Char} (h : cs ≠ []) : 0 < byteLength cs := by
  obtain ⟨c, cs, rfl⟩ := List.exists_cons_of_ne_nil h
  exact Nat.add_pos_left c.utf8Size_pos _

theorem byteLength_eq_utf8ByteSize (cs : List Char) :
    byteLength cs = (String.ofList cs).utf8ByteSize := by
  induction cs with
  | nil => rfl
  | cons c cs ih =>
    rw [byteLength_cons, String.ofList_cons, String.utf8ByteSize_append,
      String.utf8ByteSize_singleton, ih]

/-- The bytes of a text are those of its characters. -/
theorem byteLength_toList (s : String) : byteLength s.toList = s.utf8ByteSize := by
  rw [byteLength_eq_utf8ByteSize, String.ofList_toList]

end Text

namespace Token

variable {c d : Char} {cs ds rest after : List Char} {l : Lexeme} {offset : Nat}
  {ts us : List Token}

/-- The token, so many bytes later. -/
def later (k : Nat) (t : Token) : Token :=
  ⟨t.lexeme, t.offset + k⟩

/-! ## Where tokens stand -/

/-- Whether a text that starts at byte `offset` of a statement is the spellings of some tokens, each
at its place, with white space before, between and after them. -/
inductive LaidOut : Nat → List Char → List Token → Prop
  | nil (offset : Nat) : LaidOut offset [] []
  | blank {offset : Nat} {c : Char} {cs : List Char} {ts : List Token} : Text.isBlank c = true →
    LaidOut (offset + c.utf8Size) cs ts → LaidOut offset (c :: cs) ts
  | token {offset : Nat} {l : Lexeme} {written cs : List Char} {ts : List Token} :
    l.IsSpelled written → LaidOut (offset + Text.byteLength written) cs ts →
      LaidOut offset (written ++ cs) (⟨l, offset⟩ :: ts)

theorem laidOut_of_scan (h : scan offset cs = .ok ts) : LaidOut offset cs ts := by
  fun_induction scan offset cs generalizing ts with
  | case1 offset =>
    obtain rfl := Except.ok.inj h
    exact .nil offset
  | case2 _ c rest hc ih => exact .blank hc (ih h)
  | case3 => cases h
  | case4 => cases h
  | case5 offset c rest hc l after hl tokens htokens ih =>
    obtain rfl := Except.ok.inj h
    obtain ⟨written, hsplit, hwritten⟩ := exists_isSpelled_of_scanLexeme hl
    have hrest := ih htokens
    rw [hsplit, Text.byteLength_append, Nat.add_sub_cancel] at hrest
    rw [hsplit]
    exact .token hwritten hrest

namespace LaidOut

theorem le_offset (h : LaidOut offset cs ts) : ∀ t ∈ ts, offset ≤ t.offset := by
  induction h with
  | nil => exact nofun
  | blank _ _ ih => exact fun t ht => Nat.le_trans (Nat.le_add_right _ _) (ih t ht)
  | token _ _ ih =>
    refine List.forall_mem_cons.mpr ⟨Nat.le_refl _, fun t ht => ?_⟩
    exact Nat.le_trans (Nat.le_add_right _ _) (ih t ht)

/-- The offsets of tokens rise. -/
theorem pairwise (h : LaidOut offset cs ts) : (ts.map Token.offset).Pairwise (· < ·) := by
  induction h with
  | nil => exact .nil
  | blank _ _ ih => exact ih
  | @token offset l written cs ts hwritten hrest ih =>
    refine List.pairwise_cons.mpr ⟨fun place hplace => ?_, ih⟩
    obtain ⟨t, ht, rfl⟩ := List.mem_map.mp hplace
    have hpos := Text.byteLength_pos hwritten.ne_nil
    have hle := hrest.le_offset t ht
    show offset < t.offset
    omega

/-- Each token is spelled at its offset. -/
theorem exists_written (h : LaidOut offset cs ts) : ∀ t ∈ ts, ∃ before written after,
    cs = before ++ written ++ after ∧ t.offset = offset + Text.byteLength before ∧
      t.lexeme.IsSpelled written := by
  induction h with
  | nil => exact nofun
  | @blank offset c cs ts _ _ ih =>
    intro t ht
    obtain ⟨before, written, after, rfl, hplace, hwritten⟩ := ih t ht
    refine ⟨c :: before, written, after, rfl, ?_, hwritten⟩
    rw [hplace, Text.byteLength_cons, Nat.add_assoc]
  | @token offset l spelling cs ts hspelling _ ih =>
    refine List.forall_mem_cons.mpr ⟨⟨[], spelling, cs, rfl, rfl, hspelling⟩, fun t ht => ?_⟩
    obtain ⟨before, written, after, rfl, hplace, hwritten⟩ := ih t ht
    refine ⟨spelling ++ before, written, after, ?_, ?_, hwritten⟩
    · rw [List.append_assoc, List.append_assoc, List.append_assoc]
    · rw [hplace, Text.byteLength_append, Nat.add_assoc]

end LaidOut

/-! ## White space after a lexeme -/

/-- Whether a scanner that gives a lexeme gives it also where what follows it goes on with
`tail`. -/
def Extends (tail : List Char) (x y : Except LexError (Lexeme × List Char)) : Prop :=
  ∀ l after, x = .ok (l, after) → y = .ok (l, after ++ tail)

section

variable {tail : List Char} {x y x' y' : Except LexError (Lexeme × List Char)}

theorem extends_ok (l : Lexeme) (after tail : List Char) :
    Extends tail (.ok (l, after)) (.ok (l, after ++ tail)) := by
  intro m rest h
  obtain ⟨rfl, rfl⟩ := Prod.mk.inj (Except.ok.inj h)
  rfl

theorem extends_error (e : LexError) : Extends tail (.error e) y :=
  fun _ _ h => absurd h nofun

theorem Extends.ite {p : Prop} [Decidable p] (hx : Extends tail x x') (hy : Extends tail y y') :
    Extends tail (if p then x else y) (if p then x' else y') := by
  split
  · exact hx
  · exact hy

end

theorem extends_scanAttr (w cs tail : List Char) :
    Extends tail (scanAttr w cs) (scanAttr w (cs ++ tail)) :=
  (extends_error _).ite (extends_ok _ cs tail)

theorem afterBlanks_append (h : afterBlanks cs ≠ []) (tail : List Char) :
    afterBlanks (cs ++ tail) = afterBlanks cs ++ tail := by
  rw [afterBlanks, List.dropWhile_append, if_neg]
  · rfl
  · rw [List.isEmpty_iff]
    exact h

section

variable (hd : Text.isBlank d = true) (ds : List Char)

include hd

theorem isWordChar_of_isBlank : isWordChar d = false := by
  refine Bool.eq_false_iff.mpr fun hchar => ?_
  rw [isBlank_of_isWordChar hchar] at hd
  exact absurd hd nofun

theorem word_append_blank (cs : List Char) : word (cs ++ d :: ds) = word cs := by
  induction cs with
  | nil => exact List.takeWhile_cons_of_neg (by simp [isWordChar_of_isBlank hd])
  | cons c cs ih =>
    by_cases hc : isWordChar c = true
    · rw [List.cons_append, word, word, List.takeWhile_cons_of_pos hc,
        List.takeWhile_cons_of_pos hc]
      exact congrArg _ ih
    · rw [List.cons_append, word, word, List.takeWhile_cons_of_neg hc,
        List.takeWhile_cons_of_neg hc]

theorem afterWord_append_blank (cs : List Char) :
    afterWord (cs ++ d :: ds) = afterWord cs ++ d :: ds := by
  have hsplit := word_append_afterWord (cs ++ d :: ds)
  rw [word_append_blank hd] at hsplit
  conv at hsplit => rhs; rw [← word_append_afterWord cs, List.append_assoc]
  exact List.append_cancel_left hsplit

theorem extends_scanInt (c : Char) (cs : List Char) :
    Extends (d :: ds) (scanInt (c :: cs)) (scanInt (c :: (cs ++ d :: ds))) := by
  by_cases hc : c = '-'
  · subst hc
    rw [scanInt, scanInt, word_append_blank hd, afterWord_append_blank hd]
    cases magnitude (word cs) with
    | none => exact extends_error _
    | some n => exact extends_ok _ _ _
  · rw [scanInt_of_ne_minus hc, scanInt_of_ne_minus hc, ← List.cons_append, word_append_blank hd,
      afterWord_append_blank hd]
    cases magnitude (word (c :: cs)) with
    | none => exact extends_error _
    | some n => exact extends_ok _ _ _

/-- White space does not go on with an operator. -/
theorem extends_scanOperator (c : Char) (cs : List Char) :
    Extends (d :: ds) (scanOperator c cs) (scanOperator c (cs ++ d :: ds)) := by
  have hequals : d ≠ '=' := by
    rintro rfl
    exact absurd hd (by decide)
  intro l after h
  unfold scanOperator at h
  split at h
  all_goals simp only [Except.ok.injEq, Prod.mk.injEq, reduceCtorEq] at h
  all_goals
    obtain ⟨rfl, rfl⟩ := h
  · rfl
  · rfl
  · rfl
  · rfl
  · next hne => cases cs <;> simp_all [scanOperator]
  · next hne => cases cs <;> simp_all [scanOperator]

/-- After `not` the second word is read to its end. -/
theorem extends_scanKeyword (w cs : List Char) :
    Extends (d :: ds) (scanKeyword w cs) (scanKeyword w (cs ++ d :: ds)) := by
  refine (extends_ok _ cs _).ite ((extends_ok _ cs _).ite ((extends_ok _ cs _).ite
    (.ite (fun l after h => ?_) (extends_error _))))
  split at h
  · next hin =>
    have hne : afterBlanks cs ≠ [] := by
      intro hnil
      rw [hnil] at hin
      exact absurd hin nofun
    rw [afterBlanks_append hne, word_append_blank hd, if_pos hin, afterWord_append_blank hd]
    exact extends_ok _ _ _ _ _ h
  · exact absurd h nofun

/-- **White space ends a lexeme.** What is scanned at the end of a statement is also scanned before
white space. -/
theorem extends_scanLexeme (c : Char) (cs : List Char) :
    Extends (d :: ds) (scanLexeme c cs) (scanLexeme c (cs ++ d :: ds)) := by
  refine (extends_ok _ cs _).ite ((extends_ok _ cs _).ite ((extends_ok _ cs _).ite
    ((extends_ok _ cs _).ite ((extends_ok _ cs _).ite (.ite (fun l after h => ?_)
    ((extends_scanOperator hd ds c cs).ite ((extends_scanInt hd ds c cs).ite
    (.ite ?_ (.ite ?_ (extends_error _))))))))))
  · split at h
    · next s rest hs =>
      rw [((takesText_of_scanText hs).append _).scanText_eq]
      exact extends_ok _ _ _ _ _ h
    · exact absurd h nofun
  · rw [word_append_blank hd, afterWord_append_blank hd]
    exact extends_scanAttr _ _ _
  · rw [word_append_blank hd, afterWord_append_blank hd]
    exact extends_scanKeyword hd ds _ _

end

/-! ## Scanning on -/

/-- A text that stands further on in a statement has its tokens further on. -/
theorem scan_add (h : scan offset cs = .ok ts) (k : Nat) :
    scan (offset + k) cs = .ok (ts.map (later k)) := by
  fun_induction scan offset cs generalizing ts with
  | case1 offset =>
    obtain rfl := Except.ok.inj h
    exact scan_nil _
  | case2 offset c rest hc ih =>
    rw [scan_blank hc, Nat.add_right_comm]
    exact ih h
  | case3 => cases h
  | case4 => cases h
  | case5 offset c rest hc l after hl tokens htokens ih =>
    obtain rfl := Except.ok.inj h
    refine scan_lexeme (Bool.eq_false_iff.mpr hc) hl _ ?_
    rw [Nat.add_right_comm]
    exact ih htokens

/-- White space is passed over. -/
theorem scan_blanks {w : List Char} (hw : ∀ c ∈ w, Text.isBlank c = true) (offset : Nat)
    (cs : List Char) : scan offset (w ++ cs) = scan (offset + Text.byteLength w) cs := by
  induction w generalizing offset with
  | nil => rfl
  | cons c w ih =>
    rw [List.forall_mem_cons] at hw
    rw [List.cons_append, scan_blank hw.1, ih hw.2, Text.byteLength_cons, Nat.add_assoc]

/-- White space separates the tokens before it from those behind it. -/
theorem scan_append_blank (hd : Text.isBlank d = true) (h : scan offset cs = .ok ts)
    (hus : scan (offset + Text.byteLength cs) (d :: ds) = .ok us) :
    scan offset (cs ++ d :: ds) = .ok (ts ++ us) := by
  fun_induction scan offset cs generalizing ts with
  | case1 offset =>
    obtain rfl := Except.ok.inj h
    exact hus
  | case2 offset c rest hc ih =>
    rw [List.cons_append, scan_blank hc]
    rw [Text.byteLength_cons, ← Nat.add_assoc] at hus
    exact ih h hus
  | case3 => cases h
  | case4 => cases h
  | case5 offset c rest hc l after hl tokens htokens ih =>
    obtain rfl := Except.ok.inj h
    obtain ⟨written, hsplit, -⟩ := exists_isSpelled_of_scanLexeme hl
    have hlength : Text.byteLength (c :: rest) =
        Text.byteLength written + Text.byteLength after := by
      rw [hsplit, Text.byteLength_append]
    -- The lexeme is cut off as at the end of the statement, since white space may follow it.
    refine scan_lexeme (Bool.eq_false_iff.mpr hc) (extends_scanLexeme hd ds c rest l after hl) _ ?_
    rw [← List.cons_append, Text.byteLength_append, Text.byteLength_append, Nat.add_sub_add_right]
    refine ih htokens ?_
    rwa [hlength, Nat.add_sub_cancel, Nat.add_assoc, ← hlength]

end Token

namespace Expr

open Token

/-- **White space splits statements.** Two statements with white space between them have the tokens
of the first one and then the tokens of the second one, later by the bytes that stand before them.
A statement is white space and the spellings of its tokens, whose offsets rise, and each offset is
the number of bytes before the spelling of its token. -/
theorem tokenize_splits :
    (∀ (a b w : String) (ts us : List Token), tokenize a = .ok ts → tokenize b = .ok us →
      w ≠ "" → (∀ c ∈ w.toList, Text.isBlank c = true) →
        tokenize (a ++ w ++ b) = .ok (ts ++ us.map (later (a ++ w).utf8ByteSize))) ∧
    ∀ (stmt : String) (ts : List Token), tokenize stmt = .ok ts →
      LaidOut 0 stmt.toList ts ∧ (ts.map Token.offset).Pairwise (· < ·) ∧
      ∀ t ∈ ts, ∃ before written after : String, stmt = before ++ written ++ after ∧
        t.offset = before.utf8ByteSize ∧ t.lexeme.IsSpelled written.toList := by
  refine ⟨fun a b w ts us ha hb hne hw => ?_, fun stmt ts h => ?_⟩
  · obtain ⟨d, ds, hwhole⟩ := List.exists_cons_of_ne_nil (l := w.toList) (by simpa using hne)
    have hbytes : (a ++ w).utf8ByteSize =
        Text.byteLength a.toList + Text.byteLength w.toList := by
      rw [← Text.byteLength_toList, String.toList_append, Text.byteLength_append]
    have hbehind := scan_add hb (Text.byteLength a.toList + Text.byteLength w.toList)
    rw [← Nat.add_assoc, ← scan_blanks hw, ← hbytes, hwhole] at hbehind
    rw [tokenize, String.toList_append, String.toList_append, List.append_assoc, hwhole]
    exact scan_append_blank (hw d (hwhole ▸ List.mem_cons_self)) ha hbehind
  · have hlaid := laidOut_of_scan h
    refine ⟨hlaid, hlaid.pairwise, fun t ht => ?_⟩
    obtain ⟨before, written, after, hsplit, hplace, hwritten⟩ := hlaid.exists_written t ht
    refine ⟨String.ofList before, String.ofList written, String.ofList after, ?_, ?_, ?_⟩
    · rw [← String.toList_inj, hsplit]
      simp
    · rw [hplace, Nat.zero_add, Text.byteLength_eq_utf8ByteSize]
    · rwa [String.toList_ofList]

/-- An escape, a character and white space of two bytes, and white space in an operator. -/
theorem tokenize_splits_sample :
    tokenize "(A==\"\\té\")\u00a0\tand not\u2003in" =
        .ok [⟨.leftParen, 0⟩, ⟨.attr "A", 1⟩, ⟨.compare .eq, 2⟩, ⟨.str "\té", 4⟩, ⟨.rightParen, 10⟩,
          ⟨.combine .and, 14⟩, ⟨.compare .notIn, 18⟩] ∧
      ([0, 1, 2, 4, 10] : List Nat).Pairwise (· < ·) := by
  have hleft : tokenize "(A==\"\\té\")" = .ok [⟨.leftParen, 0⟩, ⟨.attr "A", 1⟩, ⟨.compare .eq, 2⟩,
      ⟨.str "\té", 4⟩, ⟨.rightParen, 10⟩] := eq_ok_of_toOption (by decide +kernel)
  have hright : tokenize "and not\u2003in" = .ok [⟨.combine .and, 0⟩, ⟨.compare .notIn, 4⟩] :=
    eq_ok_of_toOption (by decide +kernel)
  have hblank : ∀ c ∈ "\u00a0\t".toList, Text.isBlank c = true :=
    List.all_eq_true.mp (by decide +kernel)
  exact ⟨tokenize_splits.1 _ _ _ _ _ hleft hright (by decide) hblank,
    (tokenize_splits.2 _ _ hleft).2.1⟩

end Expr

end BuildMatrix
