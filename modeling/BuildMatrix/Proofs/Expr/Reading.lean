import BuildMatrix.Expr.Parser
import BuildMatrix.Proofs.Expr.Grammar
import BuildMatrix.Proofs.Outcome

/-!
# Reading accepts exactly the grammar

Each reader is compared with the rules of what it reads: it gives an answer exactly on the tokens
that begin with an instance of these rules, and leaves the tokens after it. The rules say nothing
about what follows, but a condition is read only where no joining word does: that is the one place
where the two directions differ.

* `Expr.Begins`: some tokens begin with an instance of some rules.
* `Expr.begins_of_readCondition`, `Expr.begins_of_readGroup`: what is read is derived.
* `Expr.read_of_derives`: what is derived is read.
* `Expr.parse_eq_ok_iff`: a statement is read as a condition exactly when its tokens derive it.
* `Expr.Derives.unique`: no tokens derive two conditions.
-/

namespace BuildMatrix

namespace Expr

variable {ts rest : List Token}

/-- Whether tokens begin with an instance `a` of some rules, before `rest`. -/
def Begins {α : Type} (rules : List Lexeme → α → Prop) (ts : List Token) (a : α)
    (rest : List Token) : Prop :=
  ∃ used, ts = used ++ rest ∧ rules (used.map Token.lexeme) a

theorem map_lexeme_eq_cons {l : Lexeme} {ls : List Lexeme}
    (h : ts.map Token.lexeme = l :: ls) :
    ∃ offset ts', ts = ⟨l, offset⟩ :: ts' ∧ ts'.map Token.lexeme = ls := by
  obtain ⟨⟨l', offset⟩, ts', rfl, rfl, hls⟩ := List.map_eq_cons_iff.mp h
  exact ⟨offset, ts', rfl, hls⟩

/-! ## Operands -/

theorem readLiteral_eq_ok_iff {what : Expected} {l : Literal} :
    readLiteral what ts = .ok (l, rest) ↔ ∃ offset, ts = ⟨l.lexeme, offset⟩ :: rest := by
  constructor
  · intro h
    unfold readLiteral at h
    split at h
    · next n offset ts =>
      obtain ⟨rfl, rfl⟩ := Prod.mk.inj (Except.ok.inj h)
      exact ⟨offset, rfl⟩
    · next s offset ts =>
      obtain ⟨rfl, rfl⟩ := Prod.mk.inj (Except.ok.inj h)
      exact ⟨offset, rfl⟩
    · exact absurd h (by simp [failAt])
  · rintro ⟨offset, rfl⟩
    cases l <;> rfl

theorem begins_of_readListRest {items : List Literal}
    (h : readListRest ts = .ok (items, rest)) : Begins Operand.DerivesItems ts items rest := by
  fun_induction readListRest ts generalizing items with
  | case1 offset ts =>
    obtain ⟨rfl, rfl⟩ := Prod.mk.inj (Except.ok.inj h)
    exact ⟨[⟨.rightBracket, offset⟩], rfl, .nil⟩
  | case2 o₁ n o₂ ts ih =>
    obtain ⟨⟨items, after⟩, hread, h⟩ := bind_eq_ok_iff.mp h
    obtain ⟨rfl, rfl⟩ := Prod.mk.inj (Except.ok.inj h)
    obtain ⟨used, rfl, hused⟩ := ih hread
    exact ⟨⟨.comma, o₁⟩ :: ⟨.int n, o₂⟩ :: used, rfl, .cons (.int n) hused⟩
  | case3 o₁ s o₂ ts ih =>
    obtain ⟨⟨items, after⟩, hread, h⟩ := bind_eq_ok_iff.mp h
    obtain ⟨rfl, rfl⟩ := Prod.mk.inj (Except.ok.inj h)
    obtain ⟨used, rfl, hused⟩ := ih hread
    exact ⟨⟨.comma, o₁⟩ :: ⟨.str s, o₂⟩ :: used, rfl, .cons (.str s) hused⟩
  | case4 => exact absurd h (by simp [failAt])
  | case5 => exact absurd h (by simp [failAt])

/-- One more item at the front of the rest of a list. -/
theorem readListRest_cons {items : List Literal} (l : Literal) (o₁ o₂ : Nat)
    (h : readListRest ts = .ok (items, rest)) :
    readListRest (⟨.comma, o₁⟩ :: ⟨l.lexeme, o₂⟩ :: ts) = .ok (l :: items, rest) := by
  cases l with
  | int n => exact bind_eq_ok_iff.mpr ⟨_, h, rfl⟩
  | str s => exact bind_eq_ok_iff.mpr ⟨_, h, rfl⟩

theorem readListRest_of_begins {items : List Literal}
    (h : Begins Operand.DerivesItems ts items rest) : readListRest ts = .ok (items, rest) := by
  obtain ⟨used, rfl, hused⟩ := h
  generalize hls : used.map Token.lexeme = ls at hused
  induction hused generalizing used with
  | nil =>
    obtain ⟨offset, _, rfl, hnil⟩ := map_lexeme_eq_cons hls
    rw [List.map_eq_nil_iff.mp hnil]
    rfl
  | cons l _ ih =>
    obtain ⟨o₁, ts₁, rfl, hls₁⟩ := map_lexeme_eq_cons hls
    obtain ⟨o₂, ts₂, rfl, hls₂⟩ := map_lexeme_eq_cons hls₁
    exact readListRest_cons l o₁ o₂ (ih ts₂ hls₂)

theorem begins_of_readOperand {x : Operand} (h : readOperand ts = .ok (x, rest)) :
    Begins Operand.Derives ts x rest := by
  unfold readOperand at h
  split at h
  · next name offset ts =>
    obtain ⟨rfl, rfl⟩ := Prod.mk.inj (Except.ok.inj h)
    exact ⟨[⟨.attr name, offset⟩], rfl, .attr name⟩
  · next o₁ ts =>
    obtain ⟨⟨first, ts₁⟩, hfirst, h⟩ := bind_eq_ok_iff.mp h
    obtain ⟨⟨items, ts₂⟩, hitems, h⟩ := bind_eq_ok_iff.mp h
    obtain ⟨rfl, rfl⟩ := Prod.mk.inj (Except.ok.inj h)
    obtain ⟨o₂, rfl⟩ := readLiteral_eq_ok_iff.mp hfirst
    obtain ⟨used, rfl, hused⟩ := begins_of_readListRest hitems
    exact ⟨⟨.leftBracket, o₁⟩ :: ⟨first.lexeme, o₂⟩ :: used, rfl, .list first hused⟩
  · obtain ⟨⟨l, ts₁⟩, hl, h⟩ := bind_eq_ok_iff.mp h
    obtain ⟨rfl, rfl⟩ := Prod.mk.inj (Except.ok.inj h)
    obtain ⟨offset, rfl⟩ := readLiteral_eq_ok_iff.mp hl
    exact ⟨[⟨l.lexeme, offset⟩], rfl, .literal l⟩

theorem readOperand_of_begins {x : Operand} (h : Begins Operand.Derives ts x rest) :
    readOperand ts = .ok (x, rest) := by
  obtain ⟨used, rfl, hused⟩ := h
  generalize hls : used.map Token.lexeme = ls at hused
  cases hused with
  | attr name =>
    obtain ⟨offset, _, rfl, hnil⟩ := map_lexeme_eq_cons hls
    rw [List.map_eq_nil_iff.mp hnil]
    rfl
  | literal l =>
    obtain ⟨offset, _, rfl, hnil⟩ := map_lexeme_eq_cons hls
    rw [List.map_eq_nil_iff.mp hnil]
    cases l <;> rfl
  | @list first ls items hitems =>
    obtain ⟨o₁, ts₁, rfl, hls₁⟩ := map_lexeme_eq_cons hls
    obtain ⟨o₂, ts₂, rfl, rfl⟩ := map_lexeme_eq_cons hls₁
    have hread : readListRest (ts₂ ++ rest) = .ok (items, rest) :=
      readListRest_of_begins ⟨ts₂, rfl, hitems⟩
    exact bind_eq_ok_iff.mpr ⟨_, readLiteral_eq_ok_iff.mpr ⟨o₂, rfl⟩,
      bind_eq_ok_iff.mpr ⟨_, hread, rfl⟩⟩

/-! ## Comparisons -/

theorem readOperator_eq_ok_iff {op : CompareOp} :
    readOperator ts = .ok (op, rest) ↔ ∃ offset, ts = ⟨.compare op, offset⟩ :: rest := by
  constructor
  · intro h
    unfold readOperator at h
    split at h
    · next op' offset ts =>
      obtain ⟨rfl, rfl⟩ := Prod.mk.inj (Except.ok.inj h)
      exact ⟨offset, rfl⟩
    · exact absurd h (by simp [failAt])
  · rintro ⟨offset, rfl⟩
    rfl

/-- A group is a comparison that stands without parentheses. -/
theorem begins_of_readComparison {e : Expr} (h : readComparison ts = .ok (e, rest)) :
    Begins (Derives .group) ts e rest := by
  obtain ⟨⟨x, ts₁⟩, hx, h⟩ := bind_eq_ok_iff.mp h
  obtain ⟨⟨op, ts₂⟩, hop, h⟩ := bind_eq_ok_iff.mp h
  obtain ⟨⟨y, ts₃⟩, hy, h⟩ := bind_eq_ok_iff.mp h
  obtain ⟨rfl, rfl⟩ := Prod.mk.inj (Except.ok.inj h)
  obtain ⟨used₁, rfl, hused₁⟩ := begins_of_readOperand hx
  obtain ⟨offset, rfl⟩ := readOperator_eq_ok_iff.mp hop
  obtain ⟨used₂, rfl, hused₂⟩ := begins_of_readOperand hy
  refine ⟨used₁ ++ ⟨.compare op, offset⟩ :: used₂, ?_, ?_⟩
  · rw [List.append_assoc, List.cons_append]
  · rw [List.map_append, List.map_cons]
    exact .compare op hused₁ hused₂

/-! ## Conditions -/

/-- A condition is sound when its groups are. -/
theorem begins_of_readCondition {group : List Token → Except SyntaxError (Expr × List Token)}
    (hgroup : ∀ {ts e rest}, group ts = .ok (e, rest) → Begins (Derives .group) ts e rest)
    {e : Expr} (h : readCondition group ts = .ok (e, rest)) :
    Begins (Derives .condition) ts e rest := by
  obtain ⟨⟨e₁, ts₁⟩, h₁, hjoin⟩ := bind_eq_ok_iff.mp h
  obtain ⟨used₁, rfl, hused₁⟩ := hgroup h₁
  dsimp only at hjoin
  split at hjoin
  · next op offset ts₂ =>
    obtain ⟨⟨e₂, ts₃⟩, h₂, hend⟩ := bind_eq_ok_iff.mp hjoin
    obtain ⟨used₂, rfl, hused₂⟩ := hgroup h₂
    dsimp only at hend
    split at hend
    · exact absurd hend (by simp)
    · obtain ⟨rfl, rfl⟩ := Prod.mk.inj (Except.ok.inj hend)
      refine ⟨used₁ ++ ⟨.combine op, offset⟩ :: used₂, ?_, ?_⟩
      · rw [List.append_assoc, List.cons_append]
      · rw [List.map_append, List.map_cons]
        exact .combine op hused₁ hused₂
  · obtain ⟨rfl, rfl⟩ := Prod.mk.inj (Except.ok.inj hjoin)
    exact ⟨used₁, rfl, .group hused₁⟩

theorem begins_of_readGroup {depth : Nat} {e : Expr} (h : readGroup depth ts = .ok (e, rest)) :
    Begins (Derives .group) ts e rest := by
  induction depth generalizing ts e rest with
  | zero => exact begins_of_readComparison h
  | succ depth ih =>
    unfold readGroup at h
    split at h
    · next o₁ ts₁ hdepth =>
      obtain rfl := Nat.succ.inj hdepth
      obtain ⟨⟨inner, ts₂⟩, hinner, hclose⟩ := bind_eq_ok_iff.mp h
      obtain ⟨used, rfl, hused⟩ := begins_of_readCondition ih hinner
      dsimp only at hclose
      split at hclose
      · next o₂ ts₃ =>
        obtain ⟨rfl, rfl⟩ := Prod.mk.inj (Except.ok.inj hclose)
        refine ⟨⟨.leftParen, o₁⟩ :: (used ++ [⟨.rightParen, o₂⟩]), by simp, ?_⟩
        rw [List.map_cons, List.map_append]
        exact .paren hused
      · exact absurd hclose (by simp [failAt])
    · exact begins_of_readComparison h

/-! ## Completeness -/

/-- Whether tokens do not go on with a joining word. -/
def EndsJoin (rest : List Token) : Prop :=
  ∀ op offset ts, rest ≠ ⟨.combine op, offset⟩ :: ts

theorem readCondition_of_group {group : List Token → Except SyntaxError (Expr × List Token)}
    {e : Expr} (h : group ts = .ok (e, rest)) (hrest : EndsJoin rest) :
    readCondition group ts = .ok (e, rest) := by
  refine bind_eq_ok_iff.mpr ⟨_, h, ?_⟩
  dsimp only
  split
  · exact absurd rfl (hrest _ _ _)
  · rfl

theorem readCondition_of_joined {group : List Token → Except SyntaxError (Expr × List Token)}
    {e₁ e₂ : Expr} {op : BoolOp} {offset : Nat} {ts₂ : List Token}
    (h₁ : group ts = .ok (e₁, ⟨.combine op, offset⟩ :: ts₂)) (h₂ : group ts₂ = .ok (e₂, rest))
    (hrest : EndsJoin rest) :
    readCondition group ts = .ok (.combine e₁ op e₂, rest) := by
  refine bind_eq_ok_iff.mpr ⟨_, h₁, bind_eq_ok_iff.mpr ⟨_, h₂, ?_⟩⟩
  dsimp only
  split
  · exact absurd rfl (hrest _ _ _)
  · rfl

/-- An operand does not begin with a parenthesis. -/
theorem readGroup_of_operand {used : List Token} {x : Operand}
    (h : Operand.Derives (used.map Token.lexeme) x) (depth : Nat) :
    readGroup depth (used ++ rest) = readComparison (used ++ rest) := by
  generalize hls : used.map Token.lexeme = ls at h
  cases depth with
  | zero => rfl
  | succ depth =>
    cases h with
    | attr name =>
      obtain ⟨offset, _, rfl, -⟩ := map_lexeme_eq_cons hls
      rfl
    | literal l =>
      obtain ⟨offset, _, rfl, -⟩ := map_lexeme_eq_cons hls
      cases l <;> rfl
    | list first hitems =>
      obtain ⟨offset, _, rfl, -⟩ := map_lexeme_eq_cons hls
      rfl

/-- What derives a group is read as this group, whatever follows, and what derives a condition as
this condition, unless it is joined with more. -/
theorem read_of_derives {p : Phrase} {ls : List Lexeme} {e : Expr} (h : Derives p ls e) :
    ∀ (used : List Token) (depth : Nat) (rest : List Token), used.map Token.lexeme = ls →
      used.length ≤ depth → match p with
        | .group => readGroup depth (used ++ rest) = .ok (e, rest)
        | .condition =>
          EndsJoin rest → readCondition (readGroup depth) (used ++ rest) = .ok (e, rest) := by
  -- The induction is on the derivation; the tokens left over and the depth stay arbitrary.
  induction h with
  | group _ ih =>
    intro used depth rest hls hdepth hrest
    exact readCondition_of_group (ih used depth rest hls hdepth) hrest
  | combine op _ _ ih₁ ih₂ =>
    intro used depth rest hls hdepth hrest
    obtain ⟨used₁, tail, rfl, hls₁, htail⟩ := List.map_eq_append_iff.mp hls
    obtain ⟨offset, used₂, rfl, hls₂⟩ := map_lexeme_eq_cons htail
    rw [List.length_append, List.length_cons] at hdepth
    have hread₁ := ih₁ used₁ depth (⟨.combine op, offset⟩ :: (used₂ ++ rest)) hls₁ (by omega)
    have hread₂ := ih₂ used₂ depth rest hls₂ (by omega)
    rw [List.append_assoc]
    exact readCondition_of_joined hread₁ hread₂ hrest
  | paren _ ih =>
    intro used depth rest hls hdepth
    obtain ⟨o₁, tail, rfl, htail⟩ := map_lexeme_eq_cons hls
    obtain ⟨inner, close, rfl, hinner, hclose⟩ := List.map_eq_append_iff.mp htail
    obtain ⟨o₂, _, rfl, hnil⟩ := map_lexeme_eq_cons hclose
    obtain rfl := List.map_eq_nil_iff.mp hnil
    rw [List.length_cons, List.length_append] at hdepth
    obtain ⟨depth, rfl⟩ : ∃ d, depth = d + 1 := ⟨depth - 1, by omega⟩
    have hread := ih inner depth (⟨.rightParen, o₂⟩ :: rest) hinner (by omega) (by simp [EndsJoin])
    rw [List.cons_append, List.append_assoc]
    exact bind_eq_ok_iff.mpr ⟨_, hread, rfl⟩
  | compare op hx hy =>
    intro used depth rest hls _
    obtain ⟨used₁, tail, rfl, rfl, htail⟩ := List.map_eq_append_iff.mp hls
    obtain ⟨offset, used₂, rfl, rfl⟩ := map_lexeme_eq_cons htail
    rw [List.append_assoc, readGroup_of_operand hx]
    exact bind_eq_ok_iff.mpr ⟨_, readOperand_of_begins ⟨used₁, rfl, hx⟩,
      bind_eq_ok_iff.mpr ⟨_, readOperator_eq_ok_iff.mpr ⟨offset, rfl⟩,
        bind_eq_ok_iff.mpr ⟨_, readOperand_of_begins ⟨used₂, rfl, hy⟩, rfl⟩⟩⟩

/-! ## Statements -/

theorem Derives.ne_nil {p : Phrase} {ls : List Lexeme} {e : Expr} (h : Derives p ls e) :
    ls ≠ [] := by
  induction h with
  | group _ ih => exact ih
  | _ => simp

/-- The tokens of a condition are read as this condition, and no others are. -/
theorem ofTokens_eq_ok_iff {e : Expr} :
    ofTokens ts = .ok e ↔ Derives .condition (ts.map Token.lexeme) e := by
  constructor
  · intro h
    unfold ofTokens at h
    split at h
    · exact absurd h (by simp)
    · obtain ⟨⟨e', rest⟩, hread, hend⟩ := bind_eq_ok_iff.mp h
      dsimp only at hend
      split at hend
      · obtain rfl := Except.ok.inj hend
        obtain ⟨used, rfl, hused⟩ := begins_of_readCondition begins_of_readGroup hread
        rwa [List.append_nil]
      · exact absurd hend (by simp)
  · intro h
    have hne : ts.isEmpty = false := by
      cases ts with
      | nil => exact absurd rfl h.ne_nil
      | cons t ts => rfl
    have hread := read_of_derives h ts ts.length [] rfl (Nat.le_refl _) (by simp [EndsJoin])
    rw [List.append_nil] at hread
    rw [ofTokens, hne]
    exact bind_eq_ok_iff.mpr ⟨_, hread, rfl⟩

theorem parse_eq_ok_iff {stmt : String} {e : Expr} :
    parse stmt = .ok e ↔
      ∃ ts, tokenize stmt = .ok ts ∧ Derives .condition (ts.map Token.lexeme) e := by
  unfold parse
  cases tokenize stmt with
  | error err => simp
  | ok ts => simp [mapError_eq_ok_iff, ofTokens_eq_ok_iff]

/-- **The grammar is unambiguous.** What derives two conditions is read as both. -/
theorem Derives.unique {ls : List Lexeme} {e₁ e₂ : Expr} (h₁ : Derives .condition ls e₁)
    (h₂ : Derives .condition ls e₂) : e₁ = e₂ := by
  have hls : (ls.map fun l => Token.mk l 0).map Token.lexeme = ls := by
    rw [List.map_map]
    exact List.map_id ls
  have hread₁ := ofTokens_eq_ok_iff.mpr (hls.symm ▸ h₁)
  have hread₂ := ofTokens_eq_ok_iff.mpr (hls.symm ▸ h₂)
  exact Except.ok.inj (hread₁.symm.trans hread₂)

/-- **Reading accepts exactly the grammar.** A statement is read as a condition exactly when all its
tokens derive it, and no tokens derive two. Two joining words with only balanced parentheses between
them are refused wherever they stand, and no list that is read is empty. -/
theorem parse_exactly_derived :
    (∀ (stmt : String) (e : Expr), parse stmt = .ok e ↔
      ∃ ts, tokenize stmt = .ok ts ∧ Derives .condition (ts.map Token.lexeme) e) ∧
    (∀ (ls : List Lexeme) (e₁ e₂ : Expr),
      Derives .condition ls e₁ → Derives .condition ls e₂ → e₁ = e₂) ∧
    (∀ (stmt : String) (ts : List Token) (pre mid post : List Lexeme) (op₁ op₂ : BoolOp),
      tokenize stmt = .ok ts →
        ts.map Token.lexeme = pre ++ .combine op₁ :: (mid ++ .combine op₂ :: post) →
          IsBalanced mid → ∃ err, parse stmt = .error err) ∧
    (∀ (stmt : String) (e : Expr), parse stmt = .ok e → Operand.list [] ∉ e.operands) := by
  refine ⟨fun _ _ => parse_eq_ok_iff, fun _ _ _ => Derives.unique, ?_, ?_⟩
  · intro stmt ts pre mid post op₁ op₂ hts hls hmid
    cases hparse : parse stmt with
    | error err => exact ⟨err, rfl⟩
    | ok e =>
      obtain ⟨ts', hts', hderives⟩ := parse_eq_ok_iff.mp hparse
      obtain rfl := Except.ok.inj (hts.symm.trans hts')
      exact absurd (hls ▸ hderives) (not_derives_of_joined_twice hmid e)
  · intro stmt e hparse
    obtain ⟨ts, -, hderives⟩ := parse_eq_ok_iff.mp hparse
    exact hderives.notMem_operands

theorem parse_refuses_nested_chain :
    ∃ err, parse "(A == 1 and (B == 2) or C == 3)" = .error err := by
  have hts : tokenize "(A == 1 and (B == 2) or C == 3)" =
      .ok [⟨.leftParen, 0⟩, ⟨.attr "A", 1⟩, ⟨.compare .eq, 3⟩, ⟨.int 1, 6⟩, ⟨.combine .and, 8⟩,
        ⟨.leftParen, 12⟩, ⟨.attr "B", 13⟩, ⟨.compare .eq, 15⟩, ⟨.int 2, 18⟩, ⟨.rightParen, 19⟩,
        ⟨.combine .or, 21⟩, ⟨.attr "C", 24⟩, ⟨.compare .eq, 26⟩, ⟨.int 3, 29⟩,
        ⟨.rightParen, 30⟩] := eq_ok_of_toOption (by decide +kernel)
  exact parse_exactly_derived.2.2.1 _ _ [.leftParen, .attr "A", .compare .eq, .int 1]
    [.leftParen, .attr "B", .compare .eq, .int 2, .rightParen]
    [.attr "C", .compare .eq, .int 3, .rightParen] .and .or hts rfl rfl

end Expr

end BuildMatrix
