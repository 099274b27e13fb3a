import BuildMatrix.Expr.Token

/-!
# The grammar of conditions

    condition := group ((and | or) group)?
    group     := '(' condition ')' | operand compare operand
    operand   := attribute | integer | text | list
    list      := '[' (integer | text) (',' (integer | text))* ']'

The rules are stated about lexemes, apart from the readers. Three facts are proved from the rules
alone.

* `Expr.Derives`: the rules for conditions and groups; `Operand.Derives`: those for operands.
* `Expr.Derives.notMem_operands`: no list is empty.
* `Expr.Derives.joinsOnce`: between two parentheses that belong together stands at most one joining
  word, those inside further parentheses aside.
* `Expr.not_derives_of_joined_twice`: so no condition has two joining words with only balanced
  parentheses between them.
-/

namespace BuildMatrix

/-! ## Operands -/

/-- The lexeme that a number or a text is written with. -/
def Literal.lexeme : Literal → Lexeme
  | int n => .int n
  | str s => .str s

/-- The rules for what follows the first item of a list: items after commas, then the bracket. -/
inductive Operand.DerivesItems : List Lexeme → List Literal → Prop
  | nil : DerivesItems [.rightBracket] []
  | cons (l : Literal) {ls : List Lexeme} {items : List Literal} :
    DerivesItems ls items → DerivesItems (.comma :: l.lexeme :: ls) (l :: items)

/-- The rules for operands. -/
inductive Operand.Derives : List Lexeme → Operand → Prop
  | attr (name : String) : Derives [.attr name] (.attr name)
  | literal (l : Literal) : Derives [l.lexeme] (.literal l)
  | list (first : Literal) {ls : List Lexeme} {items : List Literal} :
    DerivesItems ls items →
      Derives (.leftBracket :: first.lexeme :: ls) (.list (first :: items))

/-! ## Conditions -/

/-- What the rules for conditions are about. -/
inductive Phrase
  | condition
  | group
  deriving DecidableEq, Repr

namespace Expr

/-- The rules for conditions and groups. -/
inductive Derives : Phrase → List Lexeme → Expr → Prop
  | group {ls : List Lexeme} {e : Expr} : Derives .group ls e → Derives .condition ls e
  | combine {ls₁ ls₂ : List Lexeme} {e₁ e₂ : Expr} (op : BoolOp) :
    Derives .group ls₁ e₁ → Derives .group ls₂ e₂ →
      Derives .condition (ls₁ ++ .combine op :: ls₂) (.combine e₁ op e₂)
  | paren {ls : List Lexeme} {e : Expr} :
    Derives .condition ls e → Derives .group (.leftParen :: (ls ++ [.rightParen])) e
  | compare {ls₁ ls₂ : List Lexeme} {x y : Operand} (op : CompareOp) :
    Operand.Derives ls₁ x → Operand.Derives ls₂ y →
      Derives .group (ls₁ ++ .compare op :: ls₂) (.compare x op y)

/-- The operands of a condition. -/
def operands : Expr → List Operand
  | compare x _ y => [x, y]
  | combine e₁ _ e₂ => e₁.operands ++ e₂.operands

/-- No list is empty. -/
theorem Derives.notMem_operands {p : Phrase} {ls : List Lexeme} {e : Expr}
    (h : Derives p ls e) : Operand.list [] ∉ e.operands := by
  induction h with
  | group _ ih => exact ih
  | combine op _ _ ih₁ ih₂ =>
    rw [operands, List.mem_append, not_or]
    exact ⟨ih₁, ih₂⟩
  | paren _ ih => exact ih
  | compare op hx hy =>
    rw [operands]
    cases hx <;> cases hy <;> simp

/-! ## Joining words -/

/-- Whether no level of parentheses holds two joining words. The first argument says whether the
level at hand already has one, the second one says so for the levels around it. -/
def joinsOnce : Bool → List Bool → List Lexeme → Bool
  | _, _, [] => true
  | joined, outer, .leftParen :: ls => joinsOnce false (joined :: outer) ls
  | _, [], .rightParen :: _ => false
  | _, joined :: outer, .rightParen :: ls => joinsOnce joined outer ls
  | joined, outer, .combine _ :: ls => !joined && joinsOnce true outer ls
  | joined, outer, _ :: ls => joinsOnce joined outer ls

/-- The level of parentheses after some lexemes, from a level on; there is none when a parenthesis
closes that was not opened. -/
def levelAfter : Nat → List Lexeme → Option Nat
  | level, [] => some level
  | level, .leftParen :: ls => levelAfter (level + 1) ls
  | 0, .rightParen :: _ => none
  | level + 1, .rightParen :: ls => levelAfter level ls
  | level, _ :: ls => levelAfter level ls

/-- Whether every parenthesis has its partner. -/
def IsBalanced (ls : List Lexeme) : Prop :=
  levelAfter 0 ls = some 0

theorem joinsOnce_literal (l : Literal) (joined : Bool) (outer : List Bool) (ls : List Lexeme) :
    joinsOnce joined outer (l.lexeme :: ls) = joinsOnce joined outer ls := by
  cases l <;> rfl

theorem joinsOnce_items {ls : List Lexeme} {items : List Literal}
    (h : Operand.DerivesItems ls items) (joined : Bool) (outer : List Bool)
    (rest : List Lexeme) :
    joinsOnce joined outer (ls ++ rest) = joinsOnce joined outer rest := by
  induction h with
  | nil => rfl
  | @cons l ls items _ ih =>
    show joinsOnce joined outer (l.lexeme :: (ls ++ rest)) = _
    rw [joinsOnce_literal, ih]

theorem joinsOnce_operand {ls : List Lexeme} {x : Operand} (h : Operand.Derives ls x)
    (joined : Bool) (outer : List Bool) (rest : List Lexeme) :
    joinsOnce joined outer (ls ++ rest) = joinsOnce joined outer rest := by
  cases h with
  | attr name => rfl
  | literal l => exact joinsOnce_literal l joined outer rest
  | @list first ls items hitems =>
    show joinsOnce joined outer (first.lexeme :: (ls ++ rest)) = _
    rw [joinsOnce_literal, joinsOnce_items hitems]

/-- A group leaves the level as it is, and a condition joins it at most once. -/
theorem Derives.joinsOnce_append {p : Phrase} {ls : List Lexeme} {e : Expr} (h : Derives p ls e) :
    ∀ outer rest, match p with
      | .group => ∀ joined, joinsOnce joined outer (ls ++ rest) = joinsOnce joined outer rest
      | .condition =>
        ∃ joined, joinsOnce false outer (ls ++ rest) = joinsOnce joined outer rest := by
  induction h with
  | group _ ih => exact fun outer rest => ⟨false, ih outer rest false⟩
  | combine op _ _ ih₁ ih₂ =>
    intro outer rest
    refine ⟨true, ?_⟩
    rw [List.append_assoc, ih₁ outer _ false]
    exact ih₂ outer rest true
  | @paren ls e _ ih =>
    intro outer rest joined
    obtain ⟨inner, hinner⟩ := ih (joined :: outer) (.rightParen :: rest)
    show joinsOnce false (joined :: outer) ((ls ++ [.rightParen]) ++ rest) = _
    rw [List.append_assoc]
    exact hinner
  | @compare ls₁ ls₂ x y op hx hy =>
    intro outer rest joined
    rw [List.append_assoc, joinsOnce_operand hx]
    exact joinsOnce_operand hy joined outer rest

/-- A condition has at most one joining word on each level of parentheses. -/
theorem Derives.joinsOnce {ls : List Lexeme} {e : Expr} (h : Derives .condition ls e) :
    joinsOnce false [] ls = true := by
  obtain ⟨joined, hjoined⟩ := h.joinsOnce_append [] []
  rw [List.append_nil] at hjoined
  exact hjoined

/-- Balanced parentheses lead back to a level, and a joining word there counts. -/
theorem joinsOnce_of_levelAfter {base : List Bool} (op : BoolOp) (post : List Lexeme) :
    ∀ {mid : List Lexeme} {flags outer : List Bool} {joined : Bool},
      joined :: outer = flags ++ true :: base → levelAfter flags.length mid = some 0 →
        joinsOnce joined outer (mid ++ .combine op :: post) = false := by
  intro mid
  -- The flags of brackets that were opened since stand above the one that is set, and a closing
  -- bracket takes the uppermost away.
  induction mid with
  | nil =>
    intro flags outer joined hflags hlevel
    have hnil : flags = [] := List.length_eq_zero_iff.mp (Option.some_inj.mp hlevel)
    subst hnil
    obtain ⟨rfl, rfl⟩ := List.cons.inj hflags
    rfl
  | cons l mid ih =>
    intro flags outer joined hflags hlevel
    cases l with
    | leftParen =>
      have hopened : false :: (joined :: outer) = (false :: flags) ++ true :: base :=
        congrArg (false :: ·) hflags
      exact ih hopened hlevel
    | rightParen =>
      cases flags with
      | nil => exact absurd hlevel (by simp [levelAfter])
      | cons f flags =>
        obtain ⟨rfl, rfl⟩ := List.cons.inj hflags
        obtain ⟨j, outer, houter⟩ : ∃ j outer, flags ++ true :: base = j :: outer :=
          List.exists_cons_of_ne_nil (by simp)
        show joinsOnce joined (flags ++ true :: base) (.rightParen :: _) = false
        rw [houter]
        exact ih houter.symm hlevel
    | combine op' =>
      cases flags with
      | nil =>
        obtain ⟨rfl, rfl⟩ := List.cons.inj hflags
        rfl
      | cons f flags =>
        obtain ⟨rfl, rfl⟩ := List.cons.inj hflags
        have hjoined : true :: (flags ++ true :: base) = (true :: flags) ++ true :: base := rfl
        show (!joined && joinsOnce true (flags ++ true :: base) (mid ++ _)) = false
        rw [ih hjoined hlevel, Bool.and_false]
    | _ => exact ih hflags hlevel

/-- Two joining words on one level are too many, wherever the level is. -/
theorem joinsOnce_joined_twice (op₁ op₂ : BoolOp) {mid : List Lexeme} (hmid : IsBalanced mid)
    (post : List Lexeme) :
    ∀ (pre : List Lexeme) (joined : Bool) (outer : List Bool),
      joinsOnce joined outer (pre ++ .combine op₁ :: (mid ++ .combine op₂ :: post)) = false := by
  intro pre
  induction pre with
  | nil =>
    intro joined outer
    have hflags : true :: outer = [] ++ true :: outer := rfl
    show (!joined && joinsOnce true outer _) = false
    rw [joinsOnce_of_levelAfter op₂ post hflags hmid, Bool.and_false]
  | cons l pre ih =>
    intro joined outer
    cases l with
    | rightParen =>
      cases outer with
      | nil => rfl
      | cons j outer => exact ih j outer
    | combine op' =>
      show (!joined && joinsOnce true outer _) = false
      rw [List.append_eq, ih true outer, Bool.and_false]
    | _ => exact ih _ _

/-- **One joining word a level.** No condition has two joining words with only balanced parentheses
between them. -/
theorem not_derives_of_joined_twice {pre mid post : List Lexeme} {op₁ op₂ : BoolOp}
    (hmid : IsBalanced mid) (e : Expr) :
    ¬ Derives .condition (pre ++ .combine op₁ :: (mid ++ .combine op₂ :: post)) e := by
  intro h
  have honce := h.joinsOnce
  rw [joinsOnce_joined_twice op₁ op₂ hmid post pre false []] at honce
  exact Bool.false_ne_true honce

end Expr

end BuildMatrix
