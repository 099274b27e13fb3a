import BuildMatrix.Manifest.Rule
import BuildMatrix.Proofs.Json
import BuildMatrix.Proofs.Outcome
import Mathlib.Data.List.Forall2

/-!
# The digest of a rule covers its content

The content of a rule is its three lists of clauses, each with the statement, the mark and the
reason that were given, and its two lists of dependencies. Neither the folder of the rule nor the
manifest file counts.

* `Rule.Agrees`: two rules have the same content.
* `Rule.canonicalText_eq_iff`: two rules with the same text for the digest agree, and rules that
  agree have the same text.
* `Rule.AnswersAlike`: two rules answer every question about builds, tests and dependencies alike.
* `Rule.answersAlike_of_agrees`: rules that agree do.
* `Rule.isParsed_of_ofYaml`: the rules of a manifest have conditions as written and plain switches.
* `Rule.canonicalText_determines_content`: all of it together, for texts and for digests.
-/

namespace BuildMatrix

/-- Whether two texts are a collision of the digest. -/
def Sha512.Collide (s t : String) : Prop :=
  s ≠ t ∧ Sha512.hexDigest s = Sha512.hexDigest t

/-! ## Clauses -/

namespace Clause

/-- Whether two clauses say the same. -/
structure Agrees (c d : Clause) : Prop where
  stmt_eq : c.stmt = d.stmt
  temporary_eq : c.temporary = d.temporary
  reason_eq : c.reason = d.reason

theorem canonical_eq_iff {c d : Clause} : c.canonical = d.canonical ↔ c.Agrees d := by
  have hreason : JsonValue.ofOption c.reason = JsonValue.ofOption d.reason ↔
      c.reason = d.reason := by
    cases c.reason <;> cases d.reason <;> simp [JsonValue.ofOption]
  constructor
  · intro h
    simp only [canonical, JsonValue.obj.injEq, List.cons.injEq, Prod.mk.injEq, true_and, and_true,
      JsonValue.str.injEq, JsonValue.bool.injEq] at h
    obtain ⟨hstmt, hreasons, htemporary⟩ := h
    exact ⟨hstmt, htemporary, hreason.mp hreasons⟩
  · rintro ⟨hstmt, htemporary, hreasons⟩
    rw [canonical, canonical, hstmt, htemporary, hreasons]

/-- Whether the condition of a clause is the one that its statement writes. -/
def IsParsed (c : Clause) : Prop :=
  Expr.parse c.stmt = .ok c.expr

theorem isParsed_of_make {stmt : String} {temporary : Bool} {reason : Option String} {c : Clause}
    (h : make stmt temporary reason = .ok c) :
    c.IsParsed ∧ c.temporary = temporary ∧ c.reason = reason := by
  rw [make] at h
  cases hparse : Expr.parse stmt with
  | error e =>
    rw [hparse] at h
    cases h
  | ok expr =>
    simp only [hparse] at h
    split at h
    · cases h
    · cases h
      exact ⟨hparse, rfl, rfl⟩

/-- Clauses that say the same are the same. -/
theorem eq_of_agrees {c d : Clause} (hc : c.IsParsed) (hd : d.IsParsed) (h : c.Agrees d) :
    c = d := by
  have hexpr : c.expr = d.expr := by
    rw [IsParsed, h.stmt_eq, hd] at hc
    exact (Except.ok.inj hc).symm
  cases c
  cases d
  rw [Clause.mk.injEq]
  exact ⟨h.stmt_eq, hexpr, h.temporary_eq, h.reason_eq⟩

end Clause

/-! ## Dependencies -/

theorem forall₂_iff_map_eq {α β : Type} {f : α → β} {R : α → α → Prop}
    (h : ∀ a b, f a = f b ↔ R a b) {as bs : List α} :
    as.map f = bs.map f ↔ List.Forall₂ R as bs := by
  rw [← List.forall₂_eq_eq_eq, List.forall₂_map_left_iff, List.forall₂_map_right_iff]
  simp only [h]

theorem JsonValue.texts_injective : Function.Injective JsonValue.texts := by
  intro ss ts h
  exact List.map_injective_iff.mpr (fun _ _ => JsonValue.str.inj) (JsonValue.arr.inj h)

namespace SwitchCase

/-- Whether two cases of a switch have the same clause and content. -/
structure Agrees (c d : SwitchCase) : Prop where
  clause : c.clause.Agrees d.clause
  content_eq : c.content = d.content

/-- Whether two cases of a switch have the same statement and content. -/
structure SameWords (c d : SwitchCase) : Prop where
  stmt_eq : c.clause.stmt = d.clause.stmt
  content_eq : c.content = d.content

/-- Whether the clause of a case has no remarks. -/
structure IsPlain (c : SwitchCase) : Prop where
  temporary_eq : c.clause.temporary = false
  reason_eq : c.clause.reason = none

theorem agrees_iff_sameWords {c d : SwitchCase} (hc : c.IsPlain) (hd : d.IsPlain) :
    c.Agrees d ↔ c.SameWords d := by
  constructor
  · intro h
    exact ⟨h.clause.stmt_eq, h.content_eq⟩
  · intro h
    exact ⟨⟨h.stmt_eq, hc.temporary_eq.trans hd.temporary_eq.symm,
      hc.reason_eq.trans hd.reason_eq.symm⟩, h.content_eq⟩

/-- A case as it enters the digest of a rule. -/
def canonical (c : SwitchCase) : JsonValue :=
  .obj [("content", .texts c.content), ("if", c.clause.canonical)]

theorem canonical_eq_iff (c d : SwitchCase) : c.canonical = d.canonical ↔ c.Agrees d := by
  constructor
  · intro h
    simp only [canonical, JsonValue.obj.injEq, List.cons.injEq, Prod.mk.injEq, true_and,
      and_true] at h
    exact ⟨Clause.canonical_eq_iff.mp h.2, JsonValue.texts_injective h.1⟩
  · rintro ⟨hclause, hcontent⟩
    rw [canonical, canonical, hcontent, Clause.canonical_eq_iff.mpr hclause]

end SwitchCase

namespace Dependency

/-- The cases of a list of dependencies. -/
def cases : Dependency → List SwitchCase
  | flat _ => []
  | switch cases _ => cases

/-- Whether two lists of dependencies are of the same form and have the same items, or the same
default and, one by one, cases that go together. -/
inductive Agrees (R : SwitchCase → SwitchCase → Prop) : Dependency → Dependency → Prop
  | flat (items : List String) : Agrees R (flat items) (flat items)
  | switch {cs ds : List SwitchCase} (default : List String) (h : List.Forall₂ R cs ds) :
      Agrees R (switch cs default) (switch ds default)

theorem Agrees.imp {R S : SwitchCase → SwitchCase → Prop} {x y : Dependency}
    (himp : ∀ c ∈ x.cases, ∀ d ∈ y.cases, R c d → S c d) (h : x.Agrees R y) : x.Agrees S y := by
  cases h with
  | flat items => exact .flat items
  | switch default h =>
    refine .switch default (List.forall₂_iff_get.mpr ⟨h.length_eq, fun i hi hj => ?_⟩)
    exact himp _ (List.get_mem _ _) _ (List.get_mem _ _) (h.get hi hj)

theorem agrees_iff_sameWords {x y : Dependency} (hx : ∀ c ∈ x.cases, c.IsPlain)
    (hy : ∀ d ∈ y.cases, d.IsPlain) :
    x.Agrees SwitchCase.Agrees y ↔ x.Agrees SwitchCase.SameWords y := by
  have hcase : ∀ c ∈ x.cases, ∀ d ∈ y.cases, c.Agrees d ↔ c.SameWords d :=
    fun c hc d hd => SwitchCase.agrees_iff_sameWords (hx c hc) (hy d hd)
  constructor
  · exact Agrees.imp fun c hc d hd => (hcase c hc d hd).mp
  · exact Agrees.imp fun c hc d hd => (hcase c hc d hd).mpr

theorem canonical_switch (cs : List SwitchCase) (default : List String) :
    (switch cs default).canonical =
      .arr (cs.map SwitchCase.canonical ++ [.obj [("default", .texts default)]]) :=
  rfl

/-- A plain list never looks like a switch: the last item of a switch is no text. -/
theorem canonical_flat_ne_switch (items : List String) (cs : List SwitchCase)
    (default : List String) : (flat items).canonical ≠ (switch cs default).canonical := by
  intro h
  rw [canonical_switch] at h
  have hmem : JsonValue.obj [("default", .texts default)] ∈ items.map JsonValue.str := by
    rw [JsonValue.arr.inj h]
    exact List.mem_append_right _ List.mem_cons_self
  obtain ⟨item, -, hitem⟩ := List.mem_map.mp hmem
  cases hitem

theorem canonical_eq_iff {x y : Dependency} :
    x.canonical = y.canonical ↔ x.Agrees SwitchCase.Agrees y := by
  constructor
  · intro h
    cases x with
    | flat items =>
      cases y with
      | flat items' =>
        rw [JsonValue.texts_injective h]
        exact .flat items'
      | switch ds default => exact absurd h (canonical_flat_ne_switch items ds default)
    | switch cs default =>
      cases y with
      | flat items => exact absurd h.symm (canonical_flat_ne_switch items cs default)
      | switch ds default' =>
        rw [canonical_switch, canonical_switch] at h
        obtain ⟨hcases, hdefaults⟩ := List.append_inj' (JsonValue.arr.inj h) rfl
        simp only [List.cons.injEq, and_true, JsonValue.obj.injEq, Prod.mk.injEq, true_and]
          at hdefaults
        rw [JsonValue.texts_injective hdefaults]
        exact .switch default' ((forall₂_iff_map_eq SwitchCase.canonical_eq_iff).mp hcases)
  · rintro (⟨items⟩ | ⟨default, hcases⟩)
    · rfl
    · rw [canonical_switch, canonical_switch,
        (forall₂_iff_map_eq SwitchCase.canonical_eq_iff).mpr hcases]

/-- Whether the conditions of all cases are those that their statements write. -/
def IsParsed (x : Dependency) : Prop :=
  ∀ c ∈ x.cases, c.clause.IsParsed

/-- Lists of dependencies that agree are the same. -/
theorem eq_of_agrees {x y : Dependency} (hx : x.IsParsed) (hy : y.IsParsed)
    (h : x.Agrees SwitchCase.Agrees y) : x = y := by
  have hsame : x.Agrees Eq y := by
    refine h.imp fun c hc d hd hcd => ?_
    have hclause : c.clause = d.clause := Clause.eq_of_agrees (hx c hc) (hy d hd) hcd.clause
    cases c
    cases d
    rw [SwitchCase.mk.injEq]
    exact ⟨hclause, hcd.content_eq⟩
  cases hsame with
  | flat items => rfl
  | switch default hcases =>
    rw [List.forall₂_eq_eq_eq] at hcases
    rw [hcases]

end Dependency

/-! ## Rules -/

namespace Rule

/-- Whether two rules have the same content, where cases of switches are compared by `R`. -/
structure Agrees (R : SwitchCase → SwitchCase → Prop) (r s : Rule) : Prop where
  enable : List.Forall₂ Clause.Agrees r.enable s.enable
  disable : List.Forall₂ Clause.Agrees r.disable s.disable
  disableTest : List.Forall₂ Clause.Agrees r.disableTest s.disableTest
  components : r.components.Agrees R s.components
  filePatterns : r.filePatterns.Agrees R s.filePatterns

/-- **The text for the digest.** Two rules have the same text exactly when they agree. -/
theorem canonicalText_eq_iff {r s : Rule} :
    r.canonicalText = s.canonicalText ↔ r.Agrees SwitchCase.Agrees s := by
  have hclauses : ∀ {cs ds : List Clause}, JsonValue.arr (cs.map Clause.canonical) =
      .arr (ds.map Clause.canonical) ↔ List.Forall₂ Clause.Agrees cs ds := by
    intro cs ds
    rw [JsonValue.arr.injEq, forall₂_iff_map_eq fun _ _ => Clause.canonical_eq_iff]
  rw [canonicalText, canonicalText, JsonValue.compact_injective.eq_iff, canonical, canonical]
  simp only [JsonValue.obj.injEq, List.cons.injEq, Prod.mk.injEq, true_and, and_true, hclauses,
    Dependency.canonical_eq_iff]
  constructor
  · rintro ⟨hcomponents, hpatterns, hdisable, htest, henable⟩
    exact ⟨henable, hdisable, htest, hcomponents, hpatterns⟩
  · rintro ⟨henable, hdisable, htest, hcomponents, hpatterns⟩
    exact ⟨hcomponents, hpatterns, hdisable, htest, henable⟩

/-- Whether all conditions of a rule are those that their statements write. -/
structure IsParsed (r : Rule) : Prop where
  enable : ∀ c ∈ r.enable, c.IsParsed
  disable : ∀ c ∈ r.disable, c.IsParsed
  disableTest : ∀ c ∈ r.disableTest, c.IsParsed
  components : r.components.IsParsed
  filePatterns : r.filePatterns.IsParsed

/-- Whether the cases of the switches of a rule have no remarks. -/
structure HasPlainCases (r : Rule) : Prop where
  components : ∀ c ∈ r.components.cases, c.IsPlain
  filePatterns : ∀ c ∈ r.filePatterns.cases, c.IsPlain

theorem agrees_iff_sameWords {r s : Rule} (hr : r.HasPlainCases) (hs : s.HasPlainCases) :
    r.Agrees SwitchCase.Agrees s ↔ r.Agrees SwitchCase.SameWords s := by
  have hcomponents := Dependency.agrees_iff_sameWords hr.components hs.components
  have hpatterns := Dependency.agrees_iff_sameWords hr.filePatterns hs.filePatterns
  constructor
  · rintro ⟨henable, hdisable, htest, hcomponent, hpattern⟩
    exact ⟨henable, hdisable, htest, hcomponents.mp hcomponent, hpatterns.mp hpattern⟩
  · rintro ⟨henable, hdisable, htest, hcomponent, hpattern⟩
    exact ⟨henable, hdisable, htest, hcomponents.mpr hcomponent, hpatterns.mpr hpattern⟩

theorem clauses_eq_of_agrees {cs ds : List Clause} (hcs : ∀ c ∈ cs, c.IsParsed)
    (hds : ∀ d ∈ ds, d.IsParsed) (h : List.Forall₂ Clause.Agrees cs ds) : cs = ds := by
  induction h with
  | nil => rfl
  | cons hcd _ ih =>
    rw [List.forall_mem_cons] at hcs hds
    rw [Clause.eq_of_agrees hcs.1 hds.1 hcd, ih hcs.2 hds.2]

/-- Rules that agree differ at most in their folders and manifest files. -/
theorem eq_of_agrees {r s : Rule} (hr : r.IsParsed) (hs : s.IsParsed)
    (h : r.Agrees SwitchCase.Agrees s) : r = { s with folder := r.folder, file := r.file } := by
  have henable := clauses_eq_of_agrees hr.enable hs.enable h.enable
  have hdisable := clauses_eq_of_agrees hr.disable hs.disable h.disable
  have htest := clauses_eq_of_agrees hr.disableTest hs.disableTest h.disableTest
  have hcomponents := Dependency.eq_of_agrees hr.components hs.components h.components
  have hpatterns := Dependency.eq_of_agrees hr.filePatterns hs.filePatterns h.filePatterns
  rw [← henable, ← hdisable, ← htest, ← hcomponents, ← hpatterns]

/-- Whether two rules answer every question about builds, tests and dependencies alike, errors
included. -/
structure AnswersAlike (r s : Rule) : Prop where
  buildTargets_eq : r.buildTargets = s.buildTargets
  testTargets_eq : r.testTargets = s.testTargets
  buildDisableReason_eq : r.buildDisableReason = s.buildDisableReason
  testDisableReason_eq : r.testDisableReason = s.testDisableReason
  components_eq : ∀ ctx, r.components.resolve ctx = s.components.resolve ctx
  filePatterns_eq : ∀ ctx, r.filePatterns.resolve ctx = s.filePatterns.resolve ctx

/-- Neither the folder nor the manifest file of a rule has a part in its answers. -/
theorem answersAlike_of_agrees {r s : Rule} (hr : r.IsParsed) (hs : s.IsParsed)
    (h : r.Agrees SwitchCase.Agrees s) : r.AnswersAlike s := by
  rw [eq_of_agrees hr hs h]
  exact ⟨rfl, rfl, rfl, rfl, fun _ => rfl, fun _ => rfl⟩

end Rule

/-! ## The rules of a manifest -/

namespace Dependency

/-- Reading a mapping of a switch adds a plain case or none. -/
theorem cases_of_readCase {key : String} {cs ds : List SwitchCase} {default default' : List String}
    {es : Entries} (h : readCase key cs default es = .ok (ds, default')) :
    ∀ d ∈ ds, d ∈ cs ∨ d.clause.IsParsed ∧ d.IsPlain := by
  have hadded : ∀ {clause : Clause} {stmt : String} (content : List String),
      (Clause.make stmt false Option.none).mapError DependencyError.clause = .ok clause →
        ∀ d ∈ cs ++ [⟨clause, content⟩], d ∈ cs ∨ d.clause.IsParsed ∧ d.IsPlain := by
    intro clause stmt content hclause d hd
    obtain ⟨hparsed, htemporary, hreason⟩ := Clause.isParsed_of_make (mapError_eq_ok_iff.mp hclause)
    rcases List.mem_append.mp hd with hd | hd
    · exact Or.inl hd
    · rw [List.mem_singleton.mp hd]
      exact Or.inr ⟨hparsed, htemporary, hreason⟩
  simp only [readCase, ne_eq, ite_not] at h
  split at h
  · split at h
    · obtain ⟨content, -, hpair⟩ := bind_eq_ok_iff.mp h
      cases hpair
      exact fun d hd => Or.inl hd
    · split at h
      · split at h
        · cases h
        · obtain ⟨clause, hclause, hrest⟩ := bind_eq_ok_iff.mp h
          split at hrest
          · obtain ⟨content, -, hpair⟩ := bind_eq_ok_iff.mp hrest
            cases hpair
            exact hadded content hclause
          · cases hrest
            exact hadded [] hclause
      · cases h
  · obtain ⟨_, hthrow, -⟩ := bind_eq_ok_iff.mp h
    cases hthrow

/-- The cases of a switch that is read are plain, if those read before are. -/
theorem cases_of_readCases {key : String} {cs : List SwitchCase} {default : List String}
    {vs : List Yaml} {x : Dependency} (h : readCases key cs default vs = .ok x) :
    ∀ c ∈ x.cases, c ∈ cs ∨ c.clause.IsParsed ∧ c.IsPlain := by
  induction vs generalizing cs default with
  | nil =>
    cases h
    exact fun c hc => Or.inl hc
  | cons v vs ih =>
    rw [readCases] at h
    split at h
    · exact ih h
    · obtain ⟨⟨ds, default'⟩, hcase, hrest⟩ := bind_eq_ok_iff.mp h
      intro c hc
      rcases ih hrest c hc with hd | hplain
      · exact cases_of_readCase hcase c hd
      · exact Or.inr hplain

theorem cases_of_ofYaml {key : String} {items : List Yaml} {x : Dependency}
    (h : ofYaml key items = .ok x) : ∀ c ∈ x.cases, c.clause.IsParsed ∧ c.IsPlain := by
  intro c hc
  rw [ofYaml] at h
  split at h
  · split at h
    · rcases cases_of_readCases h c hc with hnil | hplain
      · exact absurd hnil List.not_mem_nil
      · exact hplain
    · cases h
  · obtain ⟨texts, -, rfl⟩ := map_eq_ok_iff.mp h
    exact absurd hc List.not_mem_nil

end Dependency

namespace Rule

theorem isParsed_of_mem_readClauses {es : Entries} {key : String} {cs : List Clause}
    (h : readClauses es key = .ok cs) : ∀ c ∈ cs, c.IsParsed := by
  intro c hc
  obtain ⟨items, -, hread⟩ := bind_eq_ok_iff.mp h
  obtain ⟨entry, -, hclause⟩ := (mem_of_mapM_eq_ok hread).mp hc
  unfold readClause at hclause
  split at hclause
  · cases hclause
  · obtain ⟨parts, -, hparts⟩ := bind_eq_ok_iff.mp hclause
    split at hparts
    · cases hparts
    · exact (Clause.isParsed_of_make (mapError_eq_ok_iff.mp hparts)).1

theorem cases_of_readDependency {es : Entries} {key : String} {x : Dependency}
    (h : readDependency es key = .ok x) : ∀ c ∈ x.cases, c.clause.IsParsed ∧ c.IsPlain := by
  obtain ⟨items, -, hread⟩ := bind_eq_ok_iff.mp h
  exact Dependency.cases_of_ofYaml (mapError_eq_ok_iff.mp hread)

/-- The conditions of a rule of a manifest are read from their statements, and a manifest has no
place for remarks in a switch. -/
theorem isParsed_of_ofYaml {folder file : Path} {es : Option Entries} {r : Rule}
    (h : ofYaml folder es file = .ok r) : r.IsParsed ∧ r.HasPlainCases := by
  have hread := mapError_eq_ok_iff.mp h
  unfold readEntries at hread
  split at hread
  · cases hread
  obtain ⟨enable, henable, hread⟩ := bind_eq_ok_iff.mp hread
  obtain ⟨disable, hdisable, hread⟩ := bind_eq_ok_iff.mp hread
  obtain ⟨disableTest, htest, hread⟩ := bind_eq_ok_iff.mp hread
  obtain ⟨components, hcomponents, hread⟩ := bind_eq_ok_iff.mp hread
  obtain ⟨filePatterns, hpatterns, hread⟩ := bind_eq_ok_iff.mp hread
  cases hread
  have hcomponent := cases_of_readDependency hcomponents
  have hpattern := cases_of_readDependency hpatterns
  exact ⟨⟨isParsed_of_mem_readClauses henable, isParsed_of_mem_readClauses hdisable,
      isParsed_of_mem_readClauses htest, fun c hc => (hcomponent c hc).1,
      fun c hc => (hpattern c hc).1⟩,
    fun c hc => (hcomponent c hc).2, fun c hc => (hpattern c hc).2⟩

/-! ## Texts and digests -/

/-- **The digest covers the content.** Two rules have the same text for the digest exactly when they
agree. Where no remarks are made in switches, this compares the cases by statement and content.
Unless the two texts are a collision, rules with the same digest agree and answer alike. -/
theorem canonicalText_determines_content {r s : Rule} (hr : r.IsParsed) (hs : s.IsParsed) :
    (r.canonicalText = s.canonicalText ↔ r.Agrees SwitchCase.Agrees s) ∧
      (r.HasPlainCases → s.HasPlainCases →
        (r.canonicalText = s.canonicalText ↔ r.Agrees SwitchCase.SameWords s)) ∧
      (¬ Sha512.Collide r.canonicalText s.canonicalText →
        (r.sha = s.sha ↔ r.Agrees SwitchCase.Agrees s) ∧
          (r.sha = s.sha → r.AnswersAlike s)) := by
  refine ⟨canonicalText_eq_iff, fun hplain hplain' => ?_, fun hcollide => ?_⟩
  · rw [canonicalText_eq_iff, agrees_iff_sameWords hplain hplain']
  · have hsha : r.sha = s.sha ↔ r.Agrees SwitchCase.Agrees s := by
      rw [← canonicalText_eq_iff]
      constructor
      · intro h
        by_contra htext
        exact hcollide ⟨htext, h⟩
      · exact congrArg Sha512.hexDigest
    exact ⟨hsha, fun h => answersAlike_of_agrees hr hs (hsha.mp h)⟩

/-- A clause for one target, without a reason. -/
def plainClause : Clause where
  stmt := "IDF_TARGET == \"esp32\""
  expr := .compare (.attr "IDF_TARGET") .eq (.literal (.str "esp32"))

/-- A rule with a clause and a switch. -/
def switchingRule (reason : Option String) (folder : Path) (file : Option Path) : Rule where
  folder := folder
  enable := [{ plainClause with reason := reason }]
  components := .switch [⟨plainClause, ["soc"]⟩] ["bt"]
  file := file

theorem isParsed_switchingRule (reason : Option String) (folder : Path) (file : Option Path) :
    (switchingRule reason folder file).IsParsed := by
  have hclause : plainClause.IsParsed := eq_ok_of_toOption (by decide +kernel)
  exact ⟨List.forall_mem_singleton.mpr hclause, nofun, nofun,
    List.forall_mem_singleton.mpr hclause, nofun⟩

/-- In another folder and another file the rule has the same digest and answers alike; an empty
reason in place of none gives another text. -/
theorem canonicalText_determines_content_sample :
    (switchingRule none ⟨"a"⟩ none).AnswersAlike (switchingRule none ⟨"b"⟩ (some ⟨"m.yml"⟩)) ∧
      (switchingRule none ⟨"a"⟩ none).canonicalText ≠
        (switchingRule (some "") ⟨"a"⟩ none).canonicalText := by
  have hparsed := isParsed_switchingRule
  constructor
  · have hmoved := canonicalText_determines_content (hparsed none ⟨"a"⟩ none)
      (hparsed none ⟨"b"⟩ (some ⟨"m.yml"⟩))
    exact (hmoved.2.2 fun hcollide => hcollide.1 rfl).2 rfl
  · have hremarked := canonicalText_determines_content (hparsed none ⟨"a"⟩ none)
      (hparsed (some "") ⟨"a"⟩ none)
    intro htext
    obtain ⟨hclause, -⟩ := List.forall₂_cons.mp (hremarked.1.mp htext).enable
    cases hclause.reason_eq

end Rule

end BuildMatrix
