import BuildMatrix.Json
import BuildMatrix.Proofs.Text.Number

/-!
# A JSON text determines its value

The text of a value on one line ends where its brackets, its quotes or its digits do, so a reader
who knows that a value comes next can tell it from what follows.

* `JsonValue.eq_of_prefix_escapeChar`: no escape begins with another one.
* `JsonValue.eq_of_quoted_append`: a text in quotes is told from what follows its closing quote.
* `JsonValue.IsDelimited`: a value is told from what follows it.
* `JsonValue.isDelimited`: every value is.
* `JsonValue.compact_injective`: hence two values with the same text are the same.
-/

namespace BuildMatrix.JsonValue

/-! ## Escapes -/

/-- The characters that are not written as themselves. -/
def escapedChars : List Char :=
  '"' :: '\\' :: (List.range 32).map Char.ofNat

theorem escapeChar_of_notMem {c : Char} (h : c ∉ escapedChars) : escapeChar c = [c] := by
  have hne : ∀ d ∈ escapedChars, c ≠ d := fun d hd hcd => h (hcd ▸ hd)
  have hcontrol : ¬ c.toNat < 32 := by
    intro hlt
    have hmem : Char.ofNat c.toNat ∈ (List.range 32).map Char.ofNat :=
      List.mem_map_of_mem (List.mem_range.mpr hlt)
    rw [Char.ofNat_toNat] at hmem
    exact h (List.mem_cons_of_mem _ (List.mem_cons_of_mem _ hmem))
  rw [escapeChar, if_neg (hne '"' (by decide)), if_neg (hne '\\' (by decide)),
    if_neg (hne '\n' (by decide)), if_neg (hne '\r' (by decide)), if_neg (hne '\t' (by decide)),
    if_neg (hne '\x08' (by decide)), if_neg (hne '\x0c' (by decide)),
    if_neg (fun hlt => hcontrol (Nat.lt_trans hlt (by decide))), if_neg hcontrol]

theorem head?_escapeChar_of_mem {c : Char} (h : c ∈ escapedChars) :
    (escapeChar c).head? = some '\\' := by
  have hall : escapedChars.all (fun c => (escapeChar c).head? = some '\\') = true := by
    decide +kernel
  exact of_decide_eq_true (List.all_eq_true.mp hall c h)

theorem head?_escapeChar_ne_quote (c : Char) : (escapeChar c).head? ≠ some '"' := by
  by_cases hc : c ∈ escapedChars
  · rw [head?_escapeChar_of_mem hc]
    decide
  · rw [escapeChar_of_notMem hc]
    rintro ⟨⟩
    exact hc (by decide)

theorem escapeChar_ne_nil (c : Char) : escapeChar c ≠ [] := by
  by_cases hc : c ∈ escapedChars
  · have hhead := head?_escapeChar_of_mem hc
    intro hnil
    rw [hnil] at hhead
    cases hhead
  · rw [escapeChar_of_notMem hc]
    exact List.cons_ne_nil _ _

theorem head?_escapeChar_append (c : Char) (x : List Char) :
    (escapeChar c ++ x).head? = (escapeChar c).head? := by
  obtain ⟨d, ds, hescape⟩ := List.exists_cons_of_ne_nil (escapeChar_ne_nil c)
  rw [hescape, List.cons_append, List.head?_cons, List.head?_cons]

/-- No escape begins with another one. -/
theorem eq_of_prefix_escapeChar {c d : Char} (h : escapeChar c <+: escapeChar d) : c = d := by
  have hhead : (escapeChar c).head? = (escapeChar d).head? := by
    obtain ⟨t, ht⟩ := h
    rw [← ht, head?_escapeChar_append]
  by_cases hc : c ∈ escapedChars
  · by_cases hd : d ∈ escapedChars
    · have hall : escapedChars.all (fun c => escapedChars.all fun d =>
          !(escapeChar c).isPrefixOf (escapeChar d) || c = d) = true := by decide +kernel
      have hcd := List.all_eq_true.mp (List.all_eq_true.mp hall c hc) d hd
      rw [List.isPrefixOf_iff_prefix.mpr h] at hcd
      exact of_decide_eq_true hcd
    · rw [head?_escapeChar_of_mem hc, escapeChar_of_notMem hd] at hhead
      cases hhead
      exact absurd (by decide) hd
  · by_cases hd : d ∈ escapedChars
    · rw [head?_escapeChar_of_mem hd, escapeChar_of_notMem hc] at hhead
      cases hhead
      exact absurd (by decide) hc
    · rw [escapeChar_of_notMem hc, escapeChar_of_notMem hd] at hhead
      exact Option.some.inj hhead

theorem eq_of_escapeChar_append {c d : Char} {x y : List Char}
    (h : escapeChar c ++ x = escapeChar d ++ y) : c = d ∧ x = y := by
  have hcd : c = d := by
    rcases List.prefix_or_prefix_of_prefix (List.prefix_append _ x) (h ▸ List.prefix_append _ y)
      with hpre | hpre
    · exact eq_of_prefix_escapeChar hpre
    · exact (eq_of_prefix_escapeChar hpre).symm
  subst hcd
  exact ⟨rfl, List.append_cancel_left h⟩

/-- A text in quotes is told from what follows its closing quote. -/
theorem eq_of_quoted_append {s t x y : List Char}
    (h : s.flatMap escapeChar ++ '"' :: x = t.flatMap escapeChar ++ '"' :: y) :
    s = t ∧ x = y := by
  have hclosed : ∀ (c : Char) (u v : List Char), '"' :: u ≠ escapeChar c ++ v := by
    intro c u v heq
    have hhead := congrArg List.head? heq
    rw [head?_escapeChar_append] at hhead
    exact head?_escapeChar_ne_quote c hhead.symm
  induction s generalizing t with
  | nil =>
    cases t with
    | nil => exact ⟨rfl, (List.cons.inj h).2⟩
    | cons d t =>
      rw [List.flatMap_cons, List.append_assoc] at h
      exact absurd h (hclosed d _ _)
  | cons c s ih =>
    cases t with
    | nil =>
      rw [List.flatMap_cons, List.append_assoc] at h
      exact absurd h.symm (hclosed c _ _)
    | cons d t =>
      rw [List.flatMap_cons, List.flatMap_cons, List.append_assoc, List.append_assoc] at h
      obtain ⟨rfl, hrest⟩ := eq_of_escapeChar_append h
      obtain ⟨rfl, hxy⟩ := ih hrest
      exact ⟨rfl, hxy⟩

/-! ## What follows a value -/

/-- What may follow a value: nothing, or the rest of the list or the object around it. -/
def IsRest (x : List Char) : Prop :=
  ∀ c ∈ x.head?, c = ',' ∨ c = ']' ∨ c = '\x7d'

theorem isRest_nil : IsRest [] := by
  rintro c ⟨⟩

theorem isRest_cons {c : Char} {x : List Char} :
    IsRest (c :: x) ↔ c = ',' ∨ c = ']' ∨ c = '\x7d' := by
  simp [IsRest]

section Rows

variable {α : Type} {f : α → List Char}

/-- Whether a part is told from what follows it, when it is written by `f`. -/
def IsDelimited (f : α → List Char) (a : α) : Prop :=
  ∀ ⦃b x y⦄, IsRest x → IsRest y → f a ++ x = f b ++ y → a = b ∧ x = y

/-- Parts behind a comma each. -/
def behindCommas (f : α → List Char) (as : List α) : List Char :=
  as.flatMap fun a => ',' :: f a

/-- Parts with commas between them. -/
def row (f : α → List Char) : List α → List Char
  | [] => []
  | a :: as => f a ++ behindCommas f as

theorem isRest_behindCommas (as : List α) {x : List Char} (hx : IsRest x) :
    IsRest (behindCommas f as ++ x) := by
  cases as with
  | nil => exact hx
  | cons a as => exact isRest_cons.mpr (Or.inl rfl)

/-- Parts behind a comma each are told from what follows their closing bracket. -/
theorem eq_of_behindCommas_append {c : Char} (hc : c = ']' ∨ c = '\x7d') {as bs : List α}
    {x y : List Char} (has : ∀ a ∈ as, IsDelimited f a)
    (h : behindCommas f as ++ c :: x = behindCommas f bs ++ c :: y) : as = bs ∧ x = y := by
  have hcomma : c ≠ ',' := by
    rcases hc with rfl | rfl <;> decide
  have hrest : ∀ z, IsRest (c :: z) := fun z => isRest_cons.mpr (Or.inr hc)
  induction as generalizing bs with
  | nil =>
    cases bs with
    | nil => exact ⟨rfl, (List.cons.inj h).2⟩
    | cons b bs => exact absurd (List.cons.inj h).1 hcomma
  | cons a as ih =>
    cases bs with
    | nil => exact absurd (List.cons.inj h).1.symm hcomma
    | cons b bs =>
      have hparts : f a ++ (behindCommas f as ++ c :: x) =
          f b ++ (behindCommas f bs ++ c :: y) := by
        rw [behindCommas, behindCommas, List.flatMap_cons, List.flatMap_cons] at h
        rw [← List.append_assoc, ← List.append_assoc]
        exact (List.cons.inj h).2
      obtain ⟨rfl, htails⟩ := has a List.mem_cons_self
        (isRest_behindCommas as (hrest x)) (isRest_behindCommas bs (hrest y)) hparts
      obtain ⟨rfl, hxy⟩ := ih (fun b hb => has b (List.mem_cons_of_mem _ hb)) htails
      exact ⟨rfl, hxy⟩

/-- Parts with commas between them are told from what follows their closing bracket, where no part
looks like the end of the list. -/
theorem eq_of_row_append {c : Char} (hc : c = ']' ∨ c = '\x7d')
    (hf : ∀ a x, ¬ IsRest (f a ++ x)) {as bs : List α} {x y : List Char}
    (has : ∀ a ∈ as, IsDelimited f a) (h : row f as ++ c :: x = row f bs ++ c :: y) :
    as = bs ∧ x = y := by
  have hrest : ∀ z, IsRest (c :: z) := fun z => isRest_cons.mpr (Or.inr hc)
  -- A closing bracket may follow a value but begins none, so both rows are empty or neither is.
  cases as with
  | nil =>
    cases bs with
    | nil => exact ⟨rfl, (List.cons.inj h).2⟩
    | cons b bs =>
      have hitem : f b ++ (behindCommas f bs ++ c :: y) = c :: x := by
        rw [← List.append_assoc]
        exact h.symm
      exact absurd (hitem ▸ hrest x) (hf b _)
  | cons a as =>
    cases bs with
    | nil =>
      have hitem : f a ++ (behindCommas f as ++ c :: x) = c :: y := by
        rw [← List.append_assoc]
        exact h
      exact absurd (hitem ▸ hrest y) (hf a _)
    | cons b bs =>
      rw [row, row, List.append_assoc, List.append_assoc] at h
      obtain ⟨rfl, htails⟩ := has a List.mem_cons_self
        (isRest_behindCommas as (hrest x)) (isRest_behindCommas bs (hrest y)) h
      obtain ⟨rfl, hxy⟩ := eq_of_behindCommas_append hc
        (fun b hb => has b (List.mem_cons_of_mem _ hb)) htails
      exact ⟨rfl, hxy⟩

end Rows

/-! ## Numbers -/

/-- Digits are told from what follows them, where this does not begin with a digit. -/
theorem eq_of_toDigits_append {m n : Nat} {x y : List Char} (hx : IsRest x) (hy : IsRest y)
    (h : Nat.toDigits 10 m ++ x = Nat.toDigits 10 n ++ y) : m = n ∧ x = y := by
  have hstop : ∀ z, IsRest z → z.takeWhile Char.isDigit = [] := by
    intro z hz
    cases z with
    | nil => rfl
    | cons c z => rcases isRest_cons.mp hz with rfl | rfl | rfl <;> rfl
  have hrun : ∀ k z, IsRest z →
      (Nat.toDigits 10 k ++ z).takeWhile Char.isDigit = Nat.toDigits 10 k := by
    intro k z hz
    rw [List.takeWhile_append_of_pos fun c hc => Text.isDigit_of_mem_toDigits hc, hstop z hz,
      List.append_nil]
  have hdigits : Nat.toDigits 10 m = Nat.toDigits 10 n := by
    rw [← hrun m x hx, h, hrun n y hy]
  have hread : some m = some n := by
    rw [← Text.readNat_toDigits m, hdigits, Text.readNat_toDigits n]
  rw [hdigits] at h
  exact ⟨Option.some.inj hread, List.append_cancel_left h⟩

theorem exists_cons_toDigits (n : Nat) :
    ∃ c cs, Nat.toDigits 10 n = c :: cs ∧ c.isDigit = true := by
  obtain ⟨c, cs, hdigits⟩ := List.exists_cons_of_ne_nil (Nat.toDigits_ne_nil (n := n) (b := 10))
  exact ⟨c, cs, hdigits, Text.isDigit_of_mem_toDigits (hdigits ▸ List.mem_cons_self)⟩

theorem toList_ofNat (n : Nat) : (toString (Int.ofNat n)).toList = Nat.toDigits 10 n := by
  rw [Int.toString_eq_repr]
  exact Nat.toList_repr

theorem toList_negSucc (n : Nat) :
    (toString (Int.negSucc n)).toList = '-' :: Nat.toDigits 10 (n + 1) := by
  rw [Int.toString_eq_repr, Int.repr, String.toList_append, Nat.toList_repr]
  rfl

/-- A number is told from what follows it. -/
theorem eq_of_int_append {m n : Int} {x y : List Char} (hx : IsRest x) (hy : IsRest y)
    (h : (toString m).toList ++ x = (toString n).toList ++ y) : m = n ∧ x = y := by
  have hsign : ∀ (k : Nat) (u v : List Char), Nat.toDigits 10 k ++ u ≠ '-' :: v := by
    intro k u v heq
    obtain ⟨c, cs, hdigits, hc⟩ := exists_cons_toDigits k
    rw [hdigits] at heq
    rw [(List.cons.inj heq).1] at hc
    exact absurd hc (by decide)
  cases m with
  | ofNat m =>
    cases n with
    | ofNat n =>
      rw [toList_ofNat, toList_ofNat] at h
      obtain ⟨rfl, hxy⟩ := eq_of_toDigits_append hx hy h
      exact ⟨rfl, hxy⟩
    | negSucc n =>
      rw [toList_ofNat, toList_negSucc] at h
      exact absurd h (hsign m _ _)
  | negSucc m =>
    cases n with
    | ofNat n =>
      rw [toList_ofNat, toList_negSucc] at h
      exact absurd h.symm (hsign n _ _)
    | negSucc n =>
      rw [toList_negSucc, toList_negSucc] at h
      obtain ⟨hmn, hxy⟩ := eq_of_toDigits_append hx hy (List.cons.inj h).2
      rw [Nat.succ.inj hmn]
      exact ⟨rfl, hxy⟩

/-! ## Values -/

/-- The characters of a value on one line. -/
def chars (j : JsonValue) : List Char :=
  j.compact.toList

/-- The characters of a member of an object on one line. -/
def memberChars (m : String × JsonValue) : List Char :=
  '"' :: (m.1.toList.flatMap escapeChar ++ '"' :: ':' :: chars m.2)

theorem toList_quote (s : String) :
    (quote s).toList = '"' :: (s.toList.flatMap escapeChar ++ ['"']) := by
  rw [quote, String.toList_ofList]

theorem toList_joinWith_cons (s : String) (ss : List String) :
    (Text.joinWith "," (s :: ss)).toList = s.toList ++ behindCommas String.toList ss := by
  induction ss generalizing s with
  | nil => exact (List.append_nil _).symm
  | cons t ss ih =>
    rw [Text.joinWith, String.toList_append, String.toList_append, ih t, List.append_assoc]
    · rfl
    · exact List.cons_ne_nil _ _

theorem toList_joinWith (ss : List String) :
    (Text.joinWith "," ss).toList = row String.toList ss := by
  cases ss with
  | nil => rfl
  | cons s ss => exact toList_joinWith_cons s ss

theorem row_map {α β : Type} (f : β → List Char) (g : α → β) (as : List α) :
    row f (as.map g) = row (fun a => f (g a)) as := by
  cases as with
  | nil => rfl
  | cons a as => rw [List.map_cons, row, row, behindCommas, behindCommas, List.flatMap_map]

theorem compactItems_eq_map (js : List JsonValue) : compactItems js = js.map compact := by
  induction js with
  | nil => rfl
  | cons j js ih => rw [compactItems, ih, List.map_cons]

theorem compactMembers_eq_map (ms : List (String × JsonValue)) :
    compactMembers ms = ms.map fun m => quote m.1 ++ ":" ++ compact m.2 := by
  induction ms with
  | nil => rfl
  | cons m ms ih => rw [compactMembers, ih, List.map_cons]

theorem chars_str (s : String) : chars (str s) = '"' :: (s.toList.flatMap escapeChar ++ ['"']) := by
  rw [chars, compact, toList_quote]

theorem chars_arr (js : List JsonValue) : chars (arr js) = '[' :: (row chars js ++ [']']) := by
  rw [chars, compact, compactItems_eq_map, String.toList_append, String.toList_append,
    toList_joinWith, row_map]
  rfl

theorem chars_obj (ms : List (String × JsonValue)) :
    chars (obj ms) = '\x7b' :: (row memberChars ms ++ ['\x7d']) := by
  have hmember : ∀ m : String × JsonValue,
      (quote m.1 ++ ":" ++ compact m.2).toList = memberChars m := by
    intro m
    rw [String.toList_append, String.toList_append, toList_quote, List.append_assoc,
      List.cons_append, List.append_assoc]
    rfl
  rw [chars, compact, compactMembers_eq_map, String.toList_append, String.toList_append,
    toList_joinWith, row_map]
  simp only [hmember]
  rfl

/-! ## Kinds of values -/

/-- What a value is. -/
inductive Kind
  | null
  | bool
  | int
  | str
  | arr
  | obj
  deriving DecidableEq

/-- The kind of a value. -/
def kind : JsonValue → Kind
  | null => .null
  | bool _ => .bool
  | int _ => .int
  | str _ => .str
  | arr _ => .arr
  | obj _ => .obj

/-- The kind of the values whose text begins with a character. -/
def kindOf (c : Char) : Option Kind :=
  if c = 'n' then some .null
  else if c = 't' ∨ c = 'f' then some .bool
  else if c = '"' then some .str
  else if c = '[' then some .arr
  else if c = '\x7b' then some .obj
  else if c = '-' ∨ c.isDigit = true then some .int
  else none

theorem kindOf_of_isDigit {c : Char} (h : c.isDigit = true) : kindOf c = some .int := by
  have hne : ∀ d : Char, d.isDigit = false → c ≠ d := by
    rintro d hd rfl
    rw [h] at hd
    cases hd
  rw [kindOf, if_neg (hne 'n' rfl), if_neg (not_or.mpr ⟨hne 't' rfl, hne 'f' rfl⟩),
    if_neg (hne '"' rfl), if_neg (hne '[' rfl), if_neg (hne '\x7b' rfl), if_pos (Or.inr h)]

/-- The first character of a text tells the kind of its value. -/
theorem exists_cons_chars (j : JsonValue) :
    ∃ c cs, chars j = c :: cs ∧ kindOf c = some j.kind := by
  cases j with
  | null => exact ⟨'n', ['u', 'l', 'l'], rfl, rfl⟩
  | bool b =>
    cases b with
    | false => exact ⟨'f', ['a', 'l', 's', 'e'], rfl, rfl⟩
    | true => exact ⟨'t', ['r', 'u', 'e'], rfl, rfl⟩
  | int n =>
    rw [chars, compact]
    cases n with
    | ofNat n =>
      obtain ⟨c, cs, hdigits, hc⟩ := exists_cons_toDigits n
      exact ⟨c, cs, (toList_ofNat n).trans hdigits, kindOf_of_isDigit hc⟩
    | negSucc n => exact ⟨'-', _, toList_negSucc n, rfl⟩
  | str s => exact ⟨'"', _, chars_str s, rfl⟩
  | arr js => exact ⟨'[', _, chars_arr js, rfl⟩
  | obj ms => exact ⟨'\x7b', _, chars_obj ms, rfl⟩

theorem kind_eq_of_chars_append {a b : JsonValue} {x y : List Char}
    (h : chars a ++ x = chars b ++ y) : b.kind = a.kind := by
  obtain ⟨c, cs, ha, hkind⟩ := exists_cons_chars a
  obtain ⟨d, ds, hb, hkind'⟩ := exists_cons_chars b
  rw [ha, hb] at h
  rw [(List.cons.inj h).1, hkind'] at hkind
  exact Option.some.inj hkind

theorem not_isRest_chars (j : JsonValue) (x : List Char) : ¬ IsRest (chars j ++ x) := by
  obtain ⟨c, cs, hj, hkind⟩ := exists_cons_chars j
  rw [hj, List.cons_append, isRest_cons]
  rintro (rfl | rfl | rfl) <;> cases hkind

theorem not_isRest_memberChars (m : String × JsonValue) (x : List Char) :
    ¬ IsRest (memberChars m ++ x) := by
  rw [memberChars, List.cons_append, isRest_cons]
  decide

/-! ## Every value is told from what follows it -/

theorem isDelimited_memberChars {m : String × JsonValue} (h : IsDelimited chars m.2) :
    IsDelimited memberChars m := by
  intro n x y hx hy heq
  rw [memberChars, memberChars, List.cons_append, List.cons_append, List.append_assoc,
    List.append_assoc] at heq
  obtain ⟨hname, hvalue⟩ := eq_of_quoted_append (List.cons.inj heq).2
  obtain ⟨hjson, hxy⟩ := h hx hy (List.cons.inj hvalue).2
  exact ⟨Prod.ext (String.toList_injective hname) hjson, hxy⟩

mutual

/-- **A value is told from what follows it.** Where the texts of two values, each with something
behind it that may follow a value, are the same, the values are. -/
theorem isDelimited : ∀ j : JsonValue, IsDelimited chars j
  | null => by
    intro b x y _ _ h
    have hkind := kind_eq_of_chars_append h
    cases b with
    | null => exact ⟨rfl, List.append_cancel_left h⟩
    | _ => cases hkind
  | bool v => by
    intro b x y _ _ h
    have hkind := kind_eq_of_chars_append h
    cases b with
    | bool w =>
      cases v <;> cases w <;> first
        | exact ⟨rfl, List.append_cancel_left h⟩
        | exact absurd (List.cons.inj h).1 (by decide)
    | _ => cases hkind
  | int n => by
    intro b x y hx hy h
    have hkind := kind_eq_of_chars_append h
    cases b with
    | int k =>
      obtain ⟨rfl, hxy⟩ := eq_of_int_append hx hy h
      exact ⟨rfl, hxy⟩
    | _ => cases hkind
  | str s => by
    intro b x y _ _ h
    have hkind := kind_eq_of_chars_append h
    cases b with
    | str t =>
      rw [chars_str, chars_str, List.cons_append, List.cons_append, List.append_assoc,
        List.append_assoc] at h
      obtain ⟨hst, hxy⟩ := eq_of_quoted_append (List.cons.inj h).2
      rw [String.toList_injective hst]
      exact ⟨rfl, hxy⟩
    | _ => cases hkind
  | arr js => by
    intro b x y _ _ h
    have hkind := kind_eq_of_chars_append h
    cases b with
    | arr ks =>
      rw [chars_arr, chars_arr, List.cons_append, List.cons_append, List.append_assoc,
        List.append_assoc] at h
      obtain ⟨rfl, hxy⟩ := eq_of_row_append (Or.inl rfl) not_isRest_chars
        (isDelimited_of_mem js) (List.cons.inj h).2
      exact ⟨rfl, hxy⟩
    | _ => cases hkind
  | obj ms => by
    intro b x y _ _ h
    have hkind := kind_eq_of_chars_append h
    cases b with
    | obj ns =>
      rw [chars_obj, chars_obj, List.cons_append, List.cons_append, List.append_assoc,
        List.append_assoc] at h
      obtain ⟨rfl, hxy⟩ := eq_of_row_append (Or.inr rfl) not_isRest_memberChars
        (isDelimited_of_mem_members ms) (List.cons.inj h).2
      exact ⟨rfl, hxy⟩
    | _ => cases hkind

/-- The items of a list are told from what follows them. -/
theorem isDelimited_of_mem : ∀ js : List JsonValue, ∀ j ∈ js, IsDelimited chars j
  | [] => fun _ h => absurd h List.not_mem_nil
  | j :: js => by
    intro k hk
    rcases List.mem_cons.mp hk with hkj | hk
    · rw [hkj]
      exact isDelimited j
    · exact isDelimited_of_mem js k hk

/-- The members of an object are told from what follows them. -/
theorem isDelimited_of_mem_members :
    ∀ ms : List (String × JsonValue), ∀ m ∈ ms, IsDelimited memberChars m
  | [] => fun _ h => absurd h List.not_mem_nil
  | (k, j) :: ms => by
    intro n hn
    rcases List.mem_cons.mp hn with hnm | hn
    · rw [hnm]
      exact isDelimited_memberChars (isDelimited j)
    · exact isDelimited_of_mem_members ms n hn

end

/-- **JSON texts.** Values with the same text on one line are the same. -/
theorem compact_injective : Function.Injective compact := by
  intro a b h
  have hchars : chars a ++ [] = chars b ++ [] := by rw [chars, chars, h]
  exact (isDelimited a isRest_nil isRest_nil hchars).1

end BuildMatrix.JsonValue
