import BuildMatrix.Glob.Match
import Mathlib.Data.Bool.AllAny

/-!
# How file patterns are read

A pattern is read from left to right, and what has been read before does not change how the rest is
read, with one exception: two stars take away the slash before them. So a pattern that follows plain
text and a slash is read as the text and what the slash and the pattern are read as.

* `Glob.readTokens_after`: reading goes on in the same way after other tokens.
* `Glob.State.FollowsSlash.readTokens`: the token of the slash stays, or one for folders takes its
  place.
* `Glob.parse_of_noWildcard`: plain text is read as itself.
* `Glob.parse_append`: a pattern that follows plain text and a slash.
* `Glob.exists_isSlash_of_parse`: a pattern that begins with a slash.
-/

namespace BuildMatrix.Glob

/-! ## Reading after other tokens -/

/-- The tokens of a state outside of all braces. -/
def State.ground (s : State) : List Token :=
  match s.openBraces.getLast? with
  | none => s.tokens
  | some b => b.before

/-- Open braces with tokens put before the outermost one. -/
def bracesAfter (base : List Token) : List OpenBrace → List OpenBrace
  | [] => []
  | [b] => [{ b with before := b.before ++ base }]
  | b :: c :: outer => b :: bracesAfter base (c :: outer)

/-- A state with tokens put before all others. -/
def State.after (base : List Token) (s : State) : State :=
  match s.openBraces with
  | [] => { s with tokens := s.tokens ++ base }
  | outer => { s with openBraces := bracesAfter base outer }

/-- Whether a token begins with a slash. -/
def Token.IsSlash (t : Token) : Prop :=
  t = .literal '/' ∨ t = .foldersLast ∨ t = .foldersBetween

/-- Whether the first token outside of all braces begins with a slash. Then there is such a token, and
two stars never begin a pattern here. -/
def State.FollowsSlash (s : State) : Prop :=
  ∃ t, s.ground.getLast? = some t ∧ t.IsSlash

namespace State

variable {s : State} {base : List Token}

/-! ### Steps after other tokens -/

theorem push_after (s : State) (base : List Token) (t : Token) (c : Char) :
    (s.after base).push t c = (s.push t c).after base := by
  obtain ⟨tokens, openBraces, last⟩ := s
  cases openBraces <;> rfl

theorem openBrace_after (s : State) (base : List Token) :
    (s.after base).openBrace = s.openBrace.after base := by
  obtain ⟨tokens, openBraces, last⟩ := s
  cases openBraces <;> rfl

theorem comma_after (s : State) (base : List Token) :
    (s.after base).comma = s.comma.after base := by
  obtain ⟨tokens, openBraces, last⟩ := s
  match openBraces with
  | [] => rfl
  | [b] => rfl
  | b :: c :: outer => rfl

theorem closeBrace_after (s : State) (base : List Token) :
    (s.after base).closeBrace = s.closeBrace.map (State.after base) := by
  obtain ⟨tokens, openBraces, last⟩ := s
  match openBraces with
  | [] => rfl
  | [b] => rfl
  | b :: c :: outer => rfl

theorem pushFolders_after (h : s.ground ≠ []) (t : Token) (c : Char) :
    (s.after base).pushFolders t c = (s.pushFolders t c).after base := by
  obtain ⟨tokens, openBraces, last⟩ := s
  cases openBraces with
  | nil =>
    obtain ⟨x, rest, hx⟩ := List.exists_cons_of_ne_nil (show tokens ≠ [] from h)
    subst hx
    cases x <;> rfl
  | cons b outer =>
    cases tokens with
    | nil => rfl
    | cons x rest => cases x <;> rfl

theorem pushRuns_after (s : State) (base : List Token) :
    (s.after base).pushRuns = s.pushRuns.after base := by
  obtain ⟨tokens, openBraces, last⟩ := s
  cases openBraces <;> rfl

theorem isEmpty_openBraces_after (s : State) (base : List Token) :
    (s.after base).openBraces.isEmpty = s.openBraces.isEmpty := by
  obtain ⟨tokens, openBraces, last⟩ := s
  match openBraces with
  | [] => rfl
  | [b] => rfl
  | b :: c :: outer => rfl

theorem last_after (s : State) (base : List Token) : (s.after base).last = s.last := by
  obtain ⟨tokens, openBraces, last⟩ := s
  cases openBraces <;> rfl

/-- At the start of a branch, tokens outside of the braces do not matter. -/
theorem startBranch_after (h : s.ground ≠ []) (hempty : s.tokens.isEmpty = true) (t : Token)
    (c : Char) : { s.after base with tokens := [t], last := some c } =
      State.after base { s with tokens := [t], last := some c } := by
  obtain ⟨tokens, openBraces, last⟩ := s
  cases openBraces with
  | nil => exact absurd (List.isEmpty_iff.mp hempty) h
  | cons b outer => rfl

theorem isEmpty_tokens_after (h : s.ground ≠ []) :
    (s.after base).tokens.isEmpty = s.tokens.isEmpty := by
  obtain ⟨tokens, openBraces, last⟩ := s
  cases openBraces with
  | nil =>
    obtain ⟨x, rest, hx⟩ := List.exists_cons_of_ne_nil (show tokens ≠ [] from h)
    subst hx
    rfl
  | cons b outer => rfl

theorem pushStars_after (h : s.ground ≠ []) (next : Option Char) :
    (s.after base).pushStars next = (s.pushStars next).map (State.after base) id := by
  have hstarts : (s.after base).startsFolders = s.startsFolders := by
    rw [startsFolders, startsFolders, last_after, isEmpty_openBraces_after]
  unfold pushStars
  rw [isEmpty_tokens_after h, hstarts, pushRuns_after, pushFolders_after h, pushFolders_after h,
    isEmpty_openBraces_after]
  split
  · next hempty =>
    split
    · rw [startBranch_after h hempty]
      rfl
    · rw [startBranch_after h hempty]
      rfl
    · rfl
  · split
    · rfl
    · split
      · rfl
      · rfl
      · split <;> rfl

/-! ### The first token -/

theorem FollowsSlash.ground_ne_nil (h : s.FollowsSlash) : s.ground ≠ [] := by
  obtain ⟨t, ht, -⟩ := h
  rintro hnil
  rw [hnil] at ht
  exact absurd ht nofun

theorem getLast?_cons_of_eq_some {t x : Token} {ts : List Token} (h : ts.getLast? = some x) :
    (t :: ts).getLast? = some x := by
  rw [List.getLast?_cons, h]
  rfl

theorem FollowsSlash.push (h : s.FollowsSlash) (t : Token) (c : Char) :
    (s.push t c).FollowsSlash := by
  obtain ⟨tokens, openBraces, last⟩ := s
  obtain ⟨x, hx, hslash⟩ := h
  cases openBraces with
  | nil => exact ⟨x, getLast?_cons_of_eq_some hx, hslash⟩
  | cons b outer => exact ⟨x, hx, hslash⟩

theorem FollowsSlash.pushFolders (h : s.FollowsSlash) {t : Token} (ht : t.IsSlash) (c : Char) :
    (s.pushFolders t c).FollowsSlash := by
  obtain ⟨tokens, openBraces, last⟩ := s
  have hne := h.ground_ne_nil
  obtain ⟨x, hx, hslash⟩ := h
  cases openBraces with
  | nil =>
    obtain ⟨y, rest, rfl⟩ := List.exists_cons_of_ne_nil (show tokens ≠ [] from hne)
    unfold State.pushFolders
    split
    · exact ⟨x, hx, hslash⟩
    · exact ⟨x, hx, hslash⟩
    · cases rest with
      | nil => exact ⟨t, rfl, ht⟩
      | cons z rest =>
        refine ⟨x, ?_, hslash⟩
        rw [← hx]
        rfl
  | cons b outer =>
    unfold State.pushFolders
    split <;> exact ⟨x, hx, hslash⟩

theorem FollowsSlash.pushRuns (h : s.FollowsSlash) : s.pushRuns.FollowsSlash :=
  (h.push .anyRun '*').push .anyRun '*'

theorem FollowsSlash.startBranch (h : s.FollowsSlash) (hempty : s.tokens.isEmpty = true)
    (t : Token) (c : Char) : State.FollowsSlash { s with tokens := [t], last := some c } := by
  obtain ⟨tokens, openBraces, last⟩ := s
  cases openBraces with
  | nil => exact absurd (List.isEmpty_iff.mp hempty) h.ground_ne_nil
  | cons b outer => exact h

theorem FollowsSlash.pushStars (h : s.FollowsSlash) (next : Option Char) :
    (s.pushStars next).1.FollowsSlash := by
  have hlast : Token.foldersLast.IsSlash := .inr (.inl rfl)
  have hbetween : Token.foldersBetween.IsSlash := .inr (.inr rfl)
  unfold State.pushStars
  split
  · next hempty =>
    split
    · exact h.startBranch hempty .foldersFirst '*'
    · exact h.startBranch hempty .foldersFirst '/'
    · exact h.pushRuns
  · split
    · exact h.pushRuns
    · split
      · exact h.pushFolders hlast '*'
      · exact h.pushFolders hbetween '/'
      · split
        · exact h.pushFolders hlast '*'
        · exact h.pushRuns

theorem FollowsSlash.openBrace (h : s.FollowsSlash) : s.openBrace.FollowsSlash := by
  obtain ⟨tokens, openBraces, last⟩ := s
  cases openBraces with
  | nil => exact h
  | cons b outer => exact h

theorem FollowsSlash.comma (h : s.FollowsSlash) : s.comma.FollowsSlash := by
  obtain ⟨tokens, openBraces, last⟩ := s
  match openBraces with
  | [] => exact h.push (.literal ',') ','
  | [b] => exact h
  | b :: c :: outer => exact h

theorem FollowsSlash.closeBrace (h : s.FollowsSlash) {m : State} (hm : s.closeBrace = .ok m) :
    m.FollowsSlash := by
  obtain ⟨tokens, openBraces, last⟩ := s
  obtain ⟨x, hx, hslash⟩ := h
  match openBraces with
  | [] => cases hm
  | [b] =>
    cases hm
    exact ⟨x, getLast?_cons_of_eq_some hx, hslash⟩
  | b :: c :: outer =>
    cases hm
    exact ⟨x, hx, hslash⟩

end State

/-- Reading goes on in the same way after other tokens. -/
theorem readTokens_after {s : State} (base : List Token) (cs : List Char) (h : s.FollowsSlash) :
    readTokens (s.after base) cs = (readTokens s cs).map (State.after base) := by
  -- on the steps of the reading; each commutes with `State.after` as long as a token is there
  fun_induction readTokens s cs with
  | case1 s => rw [readTokens]; rfl
  | case2 s cs m hm ih =>
    have hfollows := h.pushStars cs.head?
    rw [hm] at hfollows
    rw [readTokens, State.pushStars_after h.ground_ne_nil, hm]
    exact ih hfollows
  | case3 s cs m hm ih =>
    have hfollows := h.pushStars cs.head?
    rw [hm] at hfollows
    rw [readTokens, State.pushStars_after h.ground_ne_nil, hm]
    exact ih hfollows
  | case4 s cs hstar ih =>
    rw [readTokens, State.push_after, ih (h.push _ _)]
    exact hstar
  | case5 s cs ih => rw [readTokens, State.push_after, ih (h.push _ _)]
  | case6 s cs e he => rw [readTokens, he]; rfl
  | case7 s cs negated ranges rest hlt hclass ih =>
    rw [readTokens, hclass]
    show readTokens ((s.after base).push (.charClass negated ranges) ']') rest = _
    rw [State.push_after, ih (h.push _ _)]
  | case8 s cs ih => rw [readTokens, State.openBrace_after, ih h.openBrace]
  | case9 s cs ih => rw [readTokens, State.comma_after, ih h.comma]
  | case10 s cs e he => rw [readTokens, State.closeBrace_after, he]; rfl
  | case11 s cs m hm ih =>
    rw [readTokens, State.closeBrace_after, hm]
    exact ih (h.closeBrace hm)
  | case12 s => rw [readTokens]; rfl
  | case13 s c cs ih => rw [readTokens, State.push_after, ih (h.push _ _)]
  | case14 s c cs hstars hstar hany hclass hopen hcomma hclose hescape hescaped ih =>
    rw [readTokens, State.push_after, ih (h.push _ _)] <;> assumption

/-- The first token outside of all braces stays, or is replaced by one for folders. -/
theorem State.FollowsSlash.readTokens {s u : State} {cs : List Char} (h : s.FollowsSlash)
    (hu : readTokens s cs = .ok u) : u.FollowsSlash := by
  fun_induction Glob.readTokens s cs with
  | case1 s =>
    cases hu
    exact h
  | case2 s cs m hm ih =>
    have hfollows := h.pushStars cs.head?
    rw [hm] at hfollows
    exact ih hfollows hu
  | case3 s cs m hm ih =>
    have hfollows := h.pushStars cs.head?
    rw [hm] at hfollows
    exact ih hfollows hu
  | case4 s cs hstar ih => exact ih (h.push _ _) hu
  | case5 s cs ih => exact ih (h.push _ _) hu
  | case6 s cs e he => cases hu
  | case7 s cs negated ranges rest hlt hclass ih => exact ih (h.push _ _) hu
  | case8 s cs ih => exact ih h.openBrace hu
  | case9 s cs ih => exact ih h.comma hu
  | case10 s cs e he => cases hu
  | case11 s cs m hm ih => exact ih (h.closeBrace hm) hu
  | case12 s => cases hu
  | case13 s c cs ih => exact ih (h.push _ _) hu
  | case14 s c cs _ _ _ _ _ _ _ _ _ ih => exact ih (h.push _ _) hu

/-! ## Plain text -/

/-- The characters that are not read as themselves. -/
def wildcards : List Char :=
  ['*', '?', '[', '{', '}', '\\']

/-- Whether no character of a text is a wildcard. -/
def NoWildcard (cs : List Char) : Prop :=
  ∀ c ∈ cs, c ∉ wildcards

instance (cs : List Char) : Decidable (NoWildcard cs) :=
  decidable_of_iff (cs.all (· ∉ wildcards) = true) List.all_iff_forall_prop

/-- A state after some more characters that are read as themselves. -/
def State.pushText (s : State) (cs : List Char) : State :=
  { s with tokens := (cs.map Token.literal).reverse ++ s.tokens, last := cs.getLast?.or s.last }

theorem readTokens_cons_of_notMem {s : State} (hs : s.openBraces = []) {c : Char}
    (hc : c ∉ wildcards) (cs : List Char) :
    readTokens s (c :: cs) = readTokens (s.push (.literal c) c) cs := by
  simp only [wildcards, List.mem_cons, List.not_mem_nil, or_false, not_or] at hc
  obtain ⟨hstar, hany, hclass, hopen, hclose, hescape⟩ := hc
  by_cases hcomma : c = ','
  · subst hcomma
    rw [readTokens, State.comma, hs]
  · rw [readTokens] <;> simp_all

/-- Characters that are no wildcards are read as themselves. -/
theorem readTokens_append_of_noWildcard {s : State} (hs : s.openBraces = []) {cs : List Char}
    (h : NoWildcard cs) (ds : List Char) :
    readTokens s (cs ++ ds) = readTokens (s.pushText cs) ds := by
  induction cs generalizing s with
  | nil => rfl
  | cons c cs ih =>
    rw [NoWildcard, List.forall_mem_cons] at h
    have hpush : (s.push (.literal c) c).pushText cs = s.pushText (c :: cs) := by
      rw [State.pushText, State.pushText, List.getLast?_cons, List.map_cons, List.reverse_cons,
        List.append_assoc]
      cases cs.getLast? <;> rfl
    rw [List.cons_append, readTokens_cons_of_notMem hs h.1, ← hpush]
    exact ih hs h.2

/-- The state after a slash. -/
def State.slash : State where
  tokens := [.literal '/']
  last := some '/'

theorem State.followsSlash_slash : State.slash.FollowsSlash :=
  ⟨.literal '/', rfl, .inl rfl⟩

/-- **Plain text before a pattern.** A pattern that follows plain text and a slash is read as the
text and what the pattern is read as. -/
theorem parse_append {cs : List Char} (h : NoWildcard cs) (ds : List Char) :
    parse (String.ofList (cs ++ '/' :: ds)) =
      (parse (String.ofList ('/' :: ds))).map (cs.map Token.literal ++ ·) := by
  have hslash : '/' ∉ wildcards := by decide
  have hstate : (State.pushText {} cs).push (.literal '/') '/' =
      State.slash.after (cs.map Token.literal).reverse := by
    rw [State.pushText, State.push, List.append_nil]
    rfl
  have hplain : readTokens {} ('/' :: ds) = readTokens State.slash ds :=
    readTokens_cons_of_notMem rfl hslash ds
  rw [parse, parse, String.toList_ofList, String.toList_ofList, hplain,
    readTokens_append_of_noWildcard rfl h, readTokens_cons_of_notMem rfl hslash, hstate,
    readTokens_after _ _ State.followsSlash_slash]
  -- With a brace left open both readings fail; otherwise the characters stand before all tokens.
  cases readTokens State.slash ds with
  | error e => rfl
  | ok u =>
    obtain ⟨tokens, openBraces, last⟩ := u
    match openBraces with
    | [] =>
      show Except.ok (tokens ++ (cs.map Token.literal).reverse).reverse = _
      rw [List.reverse_append, List.reverse_reverse]
      rfl
    | [b] => rfl
    | b :: c :: outer => rfl

theorem parse_eq_ok_iff {s : String} {ts : List Token} : parse s = .ok ts ↔
    ∃ u, readTokens {} s.toList = .ok u ∧ u.openBraces = [] ∧ u.tokens.reverse = ts := by
  rw [parse]
  cases readTokens {} s.toList with
  | error e => exact ⟨nofun, fun ⟨_, h, _⟩ => absurd h nofun⟩
  | ok u =>
    by_cases h : u.openBraces = []
    · simp [h]
    · simp [h]

/-- What follows a slash is read as a token that begins with a slash, and others. -/
theorem exists_isSlash_of_parse {ds : List Char} {ts : List Token}
    (h : parse (String.ofList ('/' :: ds)) = .ok ts) : ∃ t rest, ts = t :: rest ∧ t.IsSlash := by
  obtain ⟨u, hread, hbraces, rfl⟩ := parse_eq_ok_iff.mp h
  rw [String.toList_ofList, readTokens_cons_of_notMem rfl (by decide)] at hread
  obtain ⟨t, ht, hslash⟩ := State.followsSlash_slash.readTokens hread
  rw [State.ground, hbraces] at ht
  obtain ⟨rest, hrest⟩ := List.getLast?_eq_some_iff.mp ht
  have htokens : u.tokens = rest ++ [t] := hrest
  refine ⟨t, rest.reverse, ?_, hslash⟩
  rw [htokens, List.reverse_append]
  rfl

/-- Plain text is read as itself. -/
theorem parse_of_noWildcard {cs : List Char} (h : NoWildcard cs) :
    parse (String.ofList cs) = .ok (cs.map Token.literal) := by
  have hread := readTokens_append_of_noWildcard (s := {}) rfl h []
  rw [List.append_nil] at hread
  rw [parse, String.toList_ofList, hread, readTokens]
  show Except.ok ((cs.map Token.literal).reverse ++ []).reverse = _
  rw [List.append_nil, List.reverse_reverse]

end BuildMatrix.Glob
