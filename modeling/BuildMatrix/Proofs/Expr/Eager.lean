import BuildMatrix.Expr.Eval
import BuildMatrix.Proofs.Expr.Reading

/-!
# Evaluation is eager and boolean

A statement that is read consists of comparisons with joining words and parentheses between them.
Evaluating it asks all comparisons from the left to the right, whatever the joining words could
already decide: it stops at the first one without an answer, and otherwise joins the answers.

* `Expr.comparisons`: the comparisons of a condition from the left to the right;
  `Expr.Derives.exists_parts` finds them in the statement.
* `Expr.propositional`: a condition as a formula whose atoms are its comparisons.
* `Expr.evaluate_eq_mapM`: evaluation asks all comparisons, then gives the value of the formula.
* `Expr.evaluate_eager`: so it fails with the leftmost failing comparison, or gives a truth value.
-/

namespace BuildMatrix

/-- Two operands with an operator between them. -/
structure Comparison where
  left : Operand
  op : CompareOp
  right : Operand
  deriving DecidableEq, Repr

namespace Comparison

/-- What a comparison of the values of its operands gives. -/
def answer (ctx : Context) (c : Comparison) : Except EvalError Bool :=
  (c.left.value ctx).compareWith c.op (c.right.value ctx)

/-- Whether the answer to a comparison is yes. -/
def isTrue (ctx : Context) (c : Comparison) : Bool :=
  match c.answer ctx with
  | .ok b => b
  | .error _ => false

/-- The rule for comparisons. -/
def Derives (ls : List Lexeme) (c : Comparison) : Prop :=
  ∃ ls₁ ls₂, ls = ls₁ ++ .compare c.op :: ls₂ ∧ Operand.Derives ls₁ c.left ∧
    Operand.Derives ls₂ c.right

end Comparison

/-- Whether a lexeme stands between comparisons: a parenthesis or a joining word. -/
def Lexeme.isBetween : Lexeme → Bool
  | leftParen | rightParen | combine _ => true
  | _ => false

/-- The lexemes that comparisons are made of. -/
def Lexeme.ofComparisons (ls : List Lexeme) : List Lexeme :=
  ls.filter fun l => !l.isBetween

namespace Expr

/-- The comparisons of a condition from the left to the right. -/
def comparisons : Expr → List Comparison
  | compare left op right => [⟨left, op, right⟩]
  | combine left _ right => left.comparisons ++ right.comparisons

/-- The truth value of a condition as a formula whose atoms are its comparisons. -/
def propositional (truth : Comparison → Bool) : Expr → Bool
  | compare left op right => truth ⟨left, op, right⟩
  | combine left op right => op.apply (left.propositional truth) (right.propositional truth)

variable {e : Expr}

/-! ## The comparisons of a statement -/

theorem ofComparisons_literal (l : Literal) (ls : List Lexeme) :
    Lexeme.ofComparisons (l.lexeme :: ls) = l.lexeme :: Lexeme.ofComparisons ls := by
  cases l <;> rfl

theorem ofComparisons_items {ls : List Lexeme} {items : List Literal}
    (h : Operand.DerivesItems ls items) : Lexeme.ofComparisons ls = ls := by
  induction h with
  | nil => rfl
  | @cons l ls items _ ih =>
    show .comma :: Lexeme.ofComparisons (l.lexeme :: ls) = _
    rw [ofComparisons_literal, ih]

theorem ofComparisons_operand {ls : List Lexeme} {x : Operand} (h : Operand.Derives ls x) :
    Lexeme.ofComparisons ls = ls := by
  cases h with
  | attr name => rfl
  | literal l => exact ofComparisons_literal l []
  | @list first ls items hitems =>
    show .leftBracket :: Lexeme.ofComparisons (first.lexeme :: ls) = _
    rw [ofComparisons_literal, ofComparisons_items hitems]

theorem ofComparisons_append (ls₁ ls₂ : List Lexeme) :
    Lexeme.ofComparisons (ls₁ ++ ls₂) =
      Lexeme.ofComparisons ls₁ ++ Lexeme.ofComparisons ls₂ :=
  List.filter_append _ _

/-- What derives a condition are its comparisons one after the other, parentheses and joining words
aside. -/
theorem Derives.exists_parts {p : Phrase} {ls : List Lexeme} (h : Derives p ls e) :
    ∃ parts, List.Forall₂ Comparison.Derives parts e.comparisons ∧
      Lexeme.ofComparisons ls = parts.flatten := by
  induction h with
  | group _ ih => exact ih
  | @combine ls₁ ls₂ e₁ e₂ op _ _ ih₁ ih₂ =>
    obtain ⟨parts₁, hparts₁, hls₁⟩ := ih₁
    obtain ⟨parts₂, hparts₂, hls₂⟩ := ih₂
    refine ⟨parts₁ ++ parts₂, List.rel_append hparts₁ hparts₂, ?_⟩
    rw [List.flatten_append, ← hls₁, ← hls₂, ofComparisons_append]
    rfl
  | @paren ls e _ ih =>
    obtain ⟨parts, hparts, hls⟩ := ih
    refine ⟨parts, hparts, ?_⟩
    show Lexeme.ofComparisons (ls ++ [.rightParen]) = _
    rw [ofComparisons_append, hls]
    exact List.append_nil _
  | @compare ls₁ ls₂ x y op hx hy =>
    refine ⟨[ls₁ ++ .compare op :: ls₂], .cons ⟨ls₁, ls₂, rfl, hx, hy⟩ .nil, ?_⟩
    rw [List.flatten_singleton, ofComparisons_append, ofComparisons_operand hx]
    show ls₁ ++ .compare op :: Lexeme.ofComparisons ls₂ = _
    rw [ofComparisons_operand hy]

/-! ## Evaluation -/

/-- Evaluation asks all comparisons from the left to the right, whatever the joining words are, and
gives the value of the formula. -/
theorem evaluate_eq_mapM (e : Expr) (ctx : Context) :
    e.evaluate ctx = (e.comparisons.mapM (Comparison.answer ctx)).map
      fun _ => .bool (e.propositional (Comparison.isTrue ctx)) := by
  induction e with
  | compare left op right =>
    rw [comparisons, List.mapM_cons, List.mapM_nil, propositional, Comparison.isTrue]
    show (Comparison.answer ctx ⟨left, op, right⟩).map Value.bool = _
    cases Comparison.answer ctx ⟨left, op, right⟩ <;> rfl
  | combine left op right ihleft ihright =>
    rw [evaluate, ihleft, ihright, comparisons, List.mapM_append]
    cases left.comparisons.mapM (Comparison.answer ctx) with
    | error err => rfl
    | ok bs => cases right.comparisons.mapM (Comparison.answer ctx) <;> rfl

/-- **Evaluation is eager and boolean.** A statement that is read consists of comparisons, with
parentheses and joining words between them. Evaluating it fails or gives a truth value. It fails
exactly when one of the comparisons fails, wherever that one stands, with the error of the leftmost
one that does. Otherwise the value is the one of the formula of the comparisons' answers. -/
theorem evaluate_eager {stmt : String} (h : parse stmt = .ok e) (ctx : Context) :
    (∃ ts parts, tokenize stmt = .ok ts ∧
      List.Forall₂ Comparison.Derives parts e.comparisons ∧
      Lexeme.ofComparisons (ts.map Token.lexeme) = parts.flatten) ∧
    ((∃ err, e.evaluate ctx = .error err) ∨ ∃ b, e.evaluate ctx = .ok (.bool b)) ∧
    ((∃ err, e.evaluate ctx = .error err) ↔
      ∃ c ∈ e.comparisons, ∃ err, c.answer ctx = .error err) ∧
    (∀ err, e.evaluate ctx = .error err ↔
      ∃ before c after, e.comparisons = before ++ c :: after ∧
        (∀ b ∈ before, ∃ answer, b.answer ctx = .ok answer) ∧ c.answer ctx = .error err) ∧
    ((∀ c ∈ e.comparisons, ∃ answer, c.answer ctx = .ok answer) →
      e.evaluate ctx = .ok (.bool (e.propositional (Comparison.isTrue ctx)))) := by
  -- Every comparison is asked, in order, before any answers are combined.
  have hfails (err : EvalError) : e.evaluate ctx = .error err ↔
      e.comparisons.mapM (Comparison.answer ctx) = .error err := by
    rw [evaluate_eq_mapM, map_eq_error_iff]
  refine ⟨?_, ?_, ?_, fun err => (hfails err).trans mapM_eq_error_iff, fun hanswers => ?_⟩
  · obtain ⟨ts, hts, hderives⟩ := parse_eq_ok_iff.mp h
    obtain ⟨parts, hparts, hls⟩ := hderives.exists_parts
    exact ⟨ts, parts, hts, hparts, hls⟩
  · rw [evaluate_eq_mapM]
    cases e.comparisons.mapM (Comparison.answer ctx) with
    | error err => exact Or.inl ⟨err, rfl⟩
    | ok answers => exact Or.inr ⟨_, rfl⟩
  · simp only [hfails]
    constructor
    · rintro ⟨err, herr⟩
      obtain ⟨c, hc, hanswer⟩ := exists_of_mapM_eq_error herr
      exact ⟨c, hc, err, hanswer⟩
    · rintro ⟨c, hc, err, hanswer⟩
      cases hall : e.comparisons.mapM (Comparison.answer ctx) with
      | error err' => exact ⟨err', rfl⟩
      | ok answers =>
        obtain ⟨answer, hok⟩ := exists_mapM_eq_ok_iff.mp ⟨answers, hall⟩ c hc
        exact absurd (hanswer.symm.trans hok) nofun
  · obtain ⟨answers, hall⟩ := exists_mapM_eq_ok_iff.mpr hanswers
    rw [evaluate_eq_mapM, hall]
    rfl

/-- The target `esp32` without an SDK. -/
def plainContext : Context where
  env := Environment.ofTargets Targets.builtin
  target := "esp32"
  configName := ""

/-- A condition whose left side decides while a comparison on its right has no answer. -/
def sampleUndecided : Expr :=
  combine (compare (.attr "IDF_TARGET") .eq (.literal (.str "esp32"))) .or
    (combine (compare (.attr "CHIP_CORES") .lt (.literal (.str "4"))) .and
      (compare (.attr "CONFIG_NAME") .isIn (.literal (.int 1))))

theorem evaluate_eager_sample :
    parse "IDF_TARGET == \"esp32\" or (CHIP_CORES < \"4\" and CONFIG_NAME in 1)" =
        .ok sampleUndecided ∧
      sampleUndecided.evaluate plainContext = .error (.incomparable (.int 0) .lt (.str "4")) := by
  have h : parse "IDF_TARGET == \"esp32\" or (CHIP_CORES < \"4\" and CONFIG_NAME in 1)" =
      .ok sampleUndecided := eq_ok_of_toOption (by decide +kernel)
  refine ⟨h, ((evaluate_eager h plainContext).2.2.2.1 _).mpr ?_⟩
  exact ⟨[⟨.attr "IDF_TARGET", .eq, .literal (.str "esp32")⟩], _, _, rfl,
    List.forall_mem_singleton.mpr ⟨true, rfl⟩, rfl⟩

end Expr

end BuildMatrix
