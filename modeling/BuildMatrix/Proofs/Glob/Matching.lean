import BuildMatrix.Proofs.Glob.Bytes
import BuildMatrix.Proofs.Glob.Reading
import BuildMatrix.Proofs.Regular.Exactly
import BuildMatrix.Proofs.Text.Lines

/-!
# How tokens after plain text match

* `Glob.isMatch_literals`: plain text matches itself only.
* `Glob.isMatch_append`: tokens that begin with a slash match behind plain text as they match alone.
-/

namespace BuildMatrix.Glob

open Regular

/-! ## Literals -/

theorem matchesAny_literal (before : Option Nat) (c : Char) (ts : List Token) (zs : List Nat) :
    matchesAny before [branchRegular (.literal c :: ts)] zs =
      matchesAny before [andThen (exactly (bytesOf c)) (branchRegular ts)] zs := by
  rw [branchRegular, Token.regular]

/-- After plain text, the rest of the text is matched by the other tokens. -/
theorem matchesAny_literals_append (before : Option Nat) (cs : List Char) (ts : List Token)
    (zs : List Nat) :
    matchesAny before [branchRegular (cs.map Token.literal ++ ts)] (cs.flatMap bytesOf ++ zs) =
      matchesAny ((cs.flatMap bytesOf).getLast?.or before) [branchRegular ts] zs := by
  induction cs generalizing before with
  | nil => rfl
  | cons c cs ih =>
    rw [List.map_cons, List.cons_append, matchesAny_literal, List.flatMap_cons, List.append_assoc,
      matchesAny_exactly_append, ih, List.getLast?_append, Option.or_assoc]

/-- Plain text matches itself only. -/
theorem eq_of_matchesAny_literals {before : Option Nat} {cs : List Char} {zs : List Nat}
    (h : matchesAny before [branchRegular (cs.map Token.literal)] zs = true) :
    zs = cs.flatMap bytesOf := by
  induction cs generalizing before zs with
  | nil =>
    cases zs with
    | nil => rfl
    | cons z zs =>
      have hfalse : matchesAny before [branchRegular []] (z :: zs) = false :=
        matchesAny_nil (some z) zs
      rw [List.map_nil, hfalse] at h
      exact absurd h Bool.false_ne_true
  | cons c cs ih =>
    rw [List.map_cons, matchesAny_literal, matchesAny_exactly, Bool.and_eq_true,
      List.isPrefixOf_iff_prefix] at h
    obtain ⟨⟨ys, rfl⟩, hrest⟩ := h
    rw [List.drop_left] at hrest
    rw [List.flatMap_cons, ih hrest]

/-! ## Tokens that begin with a slash -/

/-- What stands before a slash does not matter. -/
theorem matchesAny_of_isSlash {t : Token} (ht : t.IsSlash) (before after : Option Nat)
    (ts : List Token) (zs : List Nat) : matchesAny before [branchRegular (t :: ts)] zs =
      matchesAny after [branchRegular (t :: ts)] zs := by
  obtain rfl | rfl | rfl := ht
  · have hlast := List.getLast?_eq_some_getLast (bytesOf_ne_nil '/')
    rw [matchesAny_literal, matchesAny_literal, matchesAny_exactly, matchesAny_exactly, hlast]
    rfl
  · cases zs <;> rfl
  · cases zs <;> rfl

theorem literal_ne_foldersFirst (c : Char) : Token.literal c ≠ .foldersFirst := nofun

theorem ne_foldersFirst_of_isSlash {t : Token} (ht : t.IsSlash) : t ≠ .foldersFirst := by
  obtain rfl | rfl | rfl := ht <;> exact nofun

theorem regular_of_ne {t : Token} (ht : t ≠ .foldersFirst) (ts : List Token) :
    regular (t :: ts) = branchRegular (t :: ts) := by
  unfold regular
  split
  · next h => exact absurd (List.cons.inj h).1 ht
  · rfl

theorem endsInDot_of_ne {t : Token} (ht : t ≠ .foldersFirst) (ts : List Token) :
    endsInDot (t :: ts) = ((t :: ts).getLast?.bind Token.literal? == some '.' &&
      !(t :: ts).all (·.literal?.isSome)) := by
  unfold endsInDot
  split
  · next h => exact absurd (List.cons.inj h).1 ht
  · rw [Bool.and_true]

theorem all_literals (cs : List Char) :
    (cs.map Token.literal).all (·.literal?.isSome) = true := by
  simp [Token.literal?]

/-- Plain text is not looked up by its extension. -/
theorem endsInDot_literals (cs : List Char) : endsInDot (cs.map Token.literal) = false := by
  cases cs with
  | nil => rfl
  | cons c cs =>
    rw [List.map_cons, endsInDot_of_ne (literal_ne_foldersFirst c), ← List.map_cons, all_literals,
      Bool.not_true, Bool.and_false]

theorem endsInDot_append {t : Token} (ht : t.IsSlash) (cs : List Char) (ts : List Token) :
    endsInDot (cs.map Token.literal ++ t :: ts) = endsInDot (t :: ts) := by
  have hne := ne_foldersFirst_of_isSlash ht
  cases cs with
  | nil => rfl
  | cons c cs =>
    rw [endsInDot_of_ne hne, List.map_cons, List.cons_append,
      endsInDot_of_ne (literal_ne_foldersFirst c), ← List.cons_append, ← List.map_cons,
      List.all_append, all_literals, Bool.true_and,
      List.getLast?_append_of_ne_nil _ (List.cons_ne_nil t ts)]

/-- What stands before a slash is not part of the name. -/
theorem endsInParent_append (cs ds : List Char) :
    endsInParent ⟨String.ofList (cs ++ '/' :: ds)⟩ = endsInParent ⟨String.ofList ('/' :: ds)⟩ := by
  have hne := Text.piecesOf_ne_nil '/' ds
  rw [endsInParent, endsInParent, String.toList_ofList, String.toList_ofList,
    Text.piecesOf_append_cons, Text.piecesOf_cons_self, List.getLast?_append_of_ne_nil _ hne,
    List.getLast?_cons_of_ne_nil hne]

/-- Tokens that begin with a slash do not match nothing. -/
theorem fullMatch_nil_of_isSlash {t : Token} (ht : t.IsSlash) (ts : List Token) :
    (regular (t :: ts)).fullMatch [] = false := by
  rw [regular_of_ne (ne_foldersFirst_of_isSlash ht)]
  obtain rfl | rfl | rfl := ht
  · have hprefix : (bytesOf '/').isPrefixOf [] = false := by
      rw [Bool.eq_false_iff, ne_eq, List.isPrefixOf_iff_prefix, List.prefix_nil]
      exact bytesOf_ne_nil '/'
    rw [fullMatch, matchesAny_literal, matchesAny_exactly, hprefix, Bool.false_and]
  · rfl
  · rfl

theorem fullMatch_append {t : Token} (ht : t.IsSlash) (ts : List Token) (cs ds : List Char) :
    (regular (cs.map Token.literal ++ t :: ts)).fullMatch (textBytes (String.ofList (cs ++ ds))) =
      (regular (t :: ts)).fullMatch (textBytes (String.ofList ds)) := by
  have hne := ne_foldersFirst_of_isSlash ht
  have hregular : regular (cs.map Token.literal ++ t :: ts) =
      branchRegular (cs.map Token.literal ++ t :: ts) := by
    cases cs with
    | nil => exact regular_of_ne hne ts
    | cons c cs => exact regular_of_ne (literal_ne_foldersFirst c) _
  rw [hregular, regular_of_ne hne, textBytes_eq, textBytes_eq, String.toList_ofList,
    String.toList_ofList, List.flatMap_append, fullMatch, fullMatch, matchesAny_literals_append,
    matchesAny_of_isSlash ht _ none]

/-- **Plain text before tokens.** Tokens that follow plain text and begin with a slash match a text
behind it, which is empty or begins with a slash too, as they match this text alone. -/
theorem isMatch_append {t : Token} (ht : t.IsSlash) (ts : List Token) (cs : List Char)
    {ds : List Char} (hds : ds = [] ∨ ∃ rest, ds = '/' :: rest) :
    isMatch (cs.map Token.literal ++ t :: ts) ⟨String.ofList (cs ++ ds)⟩ =
      isMatch (t :: ts) ⟨String.ofList ds⟩ := by
  obtain rfl | ⟨rest, rfl⟩ := hds
  · -- Here the plain text says how the path ends, but nothing is matched anyway.
    have hnil : (regular (t :: ts)).fullMatch (textBytes (String.ofList [])) = false := by
      rw [textBytes_eq, String.toList_ofList]
      exact fullMatch_nil_of_isSlash ht ts
    rw [isMatch, isMatch, fullMatch_append ht, hnil, Bool.and_false, Bool.and_false]
  · rw [isMatch, isMatch, endsInDot_append ht, endsInParent_append, fullMatch_append ht]

theorem isOrderedBranch_append (cs : List Char) (ts : List Token) :
    isOrderedBranch (cs.map Token.literal ++ ts) = isOrderedBranch ts := by
  induction cs with
  | nil => rfl
  | cons c cs ih => exact ih

/-- Plain text matches itself only. -/
theorem isMatch_literals {cs : List Char} (hne : cs ≠ []) (p : Path) :
    isMatch (cs.map Token.literal) p = true ↔ p.text.toList = cs := by
  obtain ⟨c, cs, rfl⟩ := List.exists_cons_of_ne_nil hne
  rw [isMatch, endsInDot_literals, List.map_cons, regular_of_ne (literal_ne_foldersFirst c),
    ← List.map_cons, Bool.false_and, Bool.not_false, Bool.true_and, fullMatch]
  constructor
  · intro h
    have hbytes := eq_of_matchesAny_literals h
    rw [← String.toList_ofList (l := c :: cs), ← textBytes_eq] at hbytes
    rw [textBytes_inj hbytes, String.toList_ofList]
  · intro h
    have hmatch := matchesAny_literals_append none (c :: cs) [] []
    rw [List.append_nil, List.append_nil] at hmatch
    rw [textBytes_eq, h, hmatch]
    rfl

end BuildMatrix.Glob
