import BuildMatrix.Proofs.Expr.SameInk
import BuildMatrix.Proofs.Manifest.PostfixList

/-!
# What a postfix list touches

An entry of a postfix list replaces the clauses with its key or takes them away. The key is the
statement without its white space, so the statements of such a clause and of the entry are read as
conditions that differ at most in the white space within their texts.

* `Manifest.statement?`, `Manifest.ifKey?_of_statement?`: the statement of a clause, and its key.
* `Manifest.filter_applyPostfix_of_not_mentioned`: clauses with other keys stay.
* `Manifest.applyPostfix_touches_alike`: what the clauses that do not stay say.
-/

namespace BuildMatrix.Manifest

variable {clause entry : Yaml} {s t key : String} {e f : Expr}

/-- The statement of a clause. -/
def statement? (entry : Yaml) : Option String :=
  (entry.asMap?.bind (Entries.getText? "if")).bind Yaml.asString?

theorem ifKey?_of_statement? (h : statement? entry = some s) :
    ifKey? entry = some (String.ofList (Text.ink s.toList)) := by
  obtain ⟨stmt, hstmt, hs⟩ := Option.bind_eq_some_iff.mp h
  rw [ifKey?, hstmt]
  dsimp only
  rw [hs]
  rfl

/-- Clauses with the same key have statements that differ in white space only. -/
theorem ink_eq_of_ifKey?_eq (hs : statement? clause = some s) (ht : statement? entry = some t)
    (h : ifKey? clause = ifKey? entry) : Text.ink s.toList = Text.ink t.toList := by
  rw [ifKey?_of_statement? hs, ifKey?_of_statement? ht, Option.some_inj] at h
  exact String.ofList_injective h

/-- A postfix list leaves the clauses whose key none of its entries has, as many as there are and in
their order. -/
theorem filter_applyPostfix_of_not_mentioned (current : List Yaml) {entries : List Yaml}
    (op : Postfix) (h : ∀ entry ∈ entries, ifKey? entry ≠ some key) :
    ((applyPostfix current entries op).filter fun c => ifKey? c = some key) =
      current.filter fun c => ifKey? c = some key := by
  rw [applyPostfix_eq]
  refine Parts.filter_toList_applyMentions current (fun k => k = some key) rfl fun m hm => ?_
  obtain ⟨entry, hentry, rfl⟩ := List.mem_map.mp hm
  exact decide_eq_false (h entry hentry)

/-- **A postfix list touches clauses that say the same, apart from white space within texts.**
Clauses with the same key have statements that are read as the same condition if their texts say the
same, so in particular if no white space stands within texts. If a postfix list changes what there
is of a clause, then one of its entries has the key of the clause. -/
theorem applyPostfix_touches_alike (hs : statement? clause = some s) (he : Expr.parse s = .ok e) :
    (∀ entry t f, statement? entry = some t → Expr.parse t = .ok f →
      ifKey? clause = ifKey? entry →
        Expr.Alike s t e f ∧ (e = f ↔ e.texts = f.texts) ∧
          ((∀ c ∈ Expr.textChars s, Text.isBlank c = false) →
            (∀ c ∈ Expr.textChars t, Text.isBlank c = false) → e = f)) ∧
    ∀ current entries op,
      ((applyPostfix current entries op).filter fun c => ifKey? c = ifKey? clause) ≠
        (current.filter fun c => ifKey? c = ifKey? clause) →
      ∃ entry ∈ entries, ifKey? clause = ifKey? entry ∧
        ∀ t f, statement? entry = some t → Expr.parse t = .ok f → Expr.Alike s t e f := by
  constructor
  · intro entry t f ht hf hkey
    obtain ⟨halike, htexts, hchars⟩ :=
      Expr.alike_of_ink_eq (ink_eq_of_ifKey?_eq hs ht hkey) he hf
    refine ⟨halike, htexts, fun hsblank htblank => hchars ?_⟩
    rw [← Text.ink_eq_self hsblank, ← Text.ink_eq_self htblank]
    exact halike.ink_eq
  · intro current entries op hchange
    by_contra hnone
    refine hchange ?_
    rw [ifKey?_of_statement? hs]
    refine filter_applyPostfix_of_not_mentioned current op fun entry hentry hkey => hnone ?_
    have hsame : ifKey? clause = ifKey? entry := (ifKey?_of_statement? hs).trans hkey.symm
    refine ⟨entry, hentry, hsame, fun t f ht hf => ?_⟩
    exact (Expr.alike_of_ink_eq (ink_eq_of_ifKey?_eq hs ht hsame) he hf).1

/-- The same condition with other white space, of which none stands within a text. -/
theorem applyPostfix_touches_alike_sample :
    (∃ f, Expr.parse "A==\"x\"" = .ok f ∧ Expr.sampleText "x" = f) ∧
      ∃ entry ∈ [sampleClause "A==\"x\"" "new"],
        ifKey? (sampleClause "A == \"x\"" "old") = ifKey? entry ∧
          ∀ t f, statement? entry = some t → Expr.parse t = .ok f →
            Expr.Alike "A == \"x\"" t (Expr.sampleText "x") f := by
  have hs : statement? (sampleClause "A == \"x\"" "old") = some "A == \"x\"" := by decide +kernel
  have he : Expr.parse "A == \"x\"" = .ok (Expr.sampleText "x") :=
    eq_ok_of_toOption (by decide +kernel)
  obtain ⟨hsame, htouched⟩ := applyPostfix_touches_alike hs he
  constructor
  · have ht : statement? (sampleClause "A==\"x\"" "new") = some "A==\"x\"" := by decide +kernel
    have hf : Expr.parse "A==\"x\"" = .ok (Expr.sampleText "x") :=
      eq_ok_of_toOption (by decide +kernel)
    obtain ⟨-, -, heq⟩ := hsame _ _ _ ht hf (by decide +kernel)
    have hold : (Expr.textChars "A == \"x\"").all (fun c => !Text.isBlank c) = true := by
      decide +kernel
    have hnew : (Expr.textChars "A==\"x\"").all (fun c => !Text.isBlank c) = true := by
      decide +kernel
    exact ⟨_, hf, heq (by simpa using hold) (by simpa using hnew)⟩
  · exact htouched [sampleClause "A == \"x\"" "old"] _ .remove (by decide +kernel)

/-- White space within a text: the condition is another one, and its clause is replaced and taken
away nevertheless. -/
theorem applyPostfix_touches_other_sample :
    Expr.parse "A == \"a b\"" = .ok (Expr.sampleText "a b") ∧
      Expr.parse "A == \"ab\"" = .ok (Expr.sampleText "ab") ∧
      Expr.sampleText "a b" ≠ Expr.sampleText "ab" ∧
      statement? (sampleClause "A == \"a b\"" "old") = some "A == \"a b\"" ∧
      statement? (sampleClause "A == \"ab\"" "new") = some "A == \"ab\"" ∧
      ifKey? (sampleClause "A == \"a b\"" "old") = ifKey? (sampleClause "A == \"ab\"" "new") ∧
      applyPostfix [sampleClause "A == \"a b\"" "old"] [sampleClause "A == \"ab\"" "new"] .add =
        [sampleClause "A == \"ab\"" "new"] ∧
      applyPostfix [sampleClause "A == \"a b\"" "old"] [sampleClause "A == \"ab\"" "new"] .remove =
        [] := by
  refine ⟨eq_ok_of_toOption (by decide +kernel), eq_ok_of_toOption (by decide +kernel), ?_⟩
  decide +kernel

end BuildMatrix.Manifest
