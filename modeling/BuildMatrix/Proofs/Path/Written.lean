import BuildMatrix.Disk.Basic
import BuildMatrix.Proofs.Path.Normal

/-!
# Parts of written paths

Parts of a path keep the text that they have in the whole. What they say is what their pieces say.

* `Path.components_withStart`: the start of a path with some of its first pieces.
* `Path.components_withoutTail`, `Path.components_parent?`: a path without its end.
* `Path.components_strip?`: a path without the beginning that it has in common with another one.
-/

namespace BuildMatrix

namespace Path

variable {p q base : Path} {pieces : List (List Char)}

/-! ## Pieces -/

theorem components_eq_bodyPieces (p : Path) :
    p.components = p.start?.toList ++ p.bodyPieces.filterMap Component.ofPiece? :=
  rfl

theorem slash_notMem_of_mem_bodyPieces {piece : List Char} (h : piece ∈ p.bodyPieces) :
    '/' ∉ piece := by
  rw [bodyPieces] at h
  split at h
  · exact Text.notMem_of_mem_piecesOf h
  · split at h
    · next rest hrest => exact Text.notMem_of_mem_piecesOf (hrest ▸ List.mem_cons_of_mem _ h)
    · exact Text.notMem_of_mem_piecesOf h

theorem bodyPieces_of_start?_eq_none (h : p.start? = none) :
    p.bodyPieces = Text.piecesOf '/' p.text.toList := by
  rw [start?] at h
  rw [bodyPieces]
  split
  · next hp => rw [hp] at h; cases h
  · next hp =>
    split
    · next rest hrest => simp [hrest] at h
    · rfl

theorem isIdle_of_ne {piece : List Char} (hnil : piece ≠ []) (hdot : piece ≠ ['.']) :
    isIdle piece = false := by
  unfold isIdle Component.ofPiece?
  split
  · exact absurd rfl hnil
  · exact absurd rfl hdot
  · rfl
  · rfl

/-- The first piece of a path that begins with neither a slash nor a dot says something. -/
theorem isIdle_of_mem_head? (hp : p.text ≠ "") (h : p.start? = none) {piece : List Char}
    (hpiece : piece ∈ p.bodyPieces.head?) : isIdle piece = false := by
  have hrelative : p.isAbsolute = false := by
    rcases p.start?_cases with habsolute | hrelative
    · rw [start?_of_isAbsolute habsolute] at h
      cases h
    · exact hrelative.1
  rw [bodyPieces_of_start?_eq_none h] at hpiece
  rw [start?_of_isRelative hrelative, hpiece] at h
  have hdot : piece ≠ ['.'] := by
    rintro rfl
    simp at h
  refine isIdle_of_ne ?_ hdot
  rintro rfl
  obtain ⟨c, cs, hcs⟩ := List.exists_cons_of_ne_nil (l := p.text.toList) (by simpa using hp)
  rw [hcs] at hpiece
  by_cases hc : c = '/'
  · rw [isAbsolute, hcs, hc] at hrelative
    exact absurd hrelative (by simp)
  · obtain ⟨q, qs, hq⟩ := List.exists_cons_of_ne_nil (Text.piecesOf_ne_nil '/' cs)
    rw [Text.piecesOf_cons_of_ne hc hq] at hpiece
    exact absurd (Option.some.inj hpiece) (List.cons_ne_nil _ _)

/-- A path that is not empty says something. -/
theorem components_ne_nil (hp : p.text ≠ "") : p.components ≠ [] := by
  intro hnil
  rw [components_eq_bodyPieces, List.append_eq_nil_iff] at hnil
  have hstart : p.start? = none := by simpa using hnil.1
  obtain ⟨piece, pieces, hpieces⟩ : ∃ piece pieces, p.bodyPieces = piece :: pieces := by
    rw [bodyPieces_of_start?_eq_none hstart]
    exact List.exists_cons_of_ne_nil (Text.piecesOf_ne_nil '/' _)
  have hfirst : piece ∈ p.bodyPieces.head? := by
    rw [hpieces]
    rfl
  have hsays := isIdle_of_mem_head? hp hstart hfirst
  have hnone := List.filterMap_eq_nil_iff.mp hnil.2 piece (hpieces ▸ List.mem_cons_self)
  rw [isIdle, hnone] at hsays
  exact absurd hsays (by decide)

theorem filterMap_dropWhile_isIdle (pieces : List (List Char)) :
    (pieces.dropWhile isIdle).filterMap Component.ofPiece? =
      pieces.filterMap Component.ofPiece? := by
  induction pieces with
  | nil => rfl
  | cons piece pieces ih =>
    by_cases hpiece : isIdle piece = true
    · rw [List.dropWhile_cons_of_pos hpiece, ih,
        List.filterMap_cons_none (Option.isNone_iff_eq_none.mp hpiece)]
    · rw [List.dropWhile_cons_of_neg hpiece]

theorem filterMap_trimEnd (pieces : List (List Char)) :
    (trimEnd pieces).filterMap Component.ofPiece? = pieces.filterMap Component.ofPiece? := by
  rw [trimEnd, List.filterMap_reverse, filterMap_dropWhile_isIdle, List.filterMap_reverse,
    List.reverse_reverse]

theorem trimEnd_isPrefix_self (pieces : List (List Char)) : trimEnd pieces <+: pieces := by
  rw [trimEnd, ← List.reverse_suffix, List.reverse_reverse]
  exact List.dropWhile_suffix _

theorem mem_head?_mono {α : Type} {l m : List α} (h : l <+: m) {a : α} (ha : a ∈ l.head?) :
    a ∈ m.head? := by
  obtain ⟨rest, rfl⟩ := h
  rw [List.head?_append, ha]
  rfl

/-! ## Written pieces -/

theorem piecesOf_joinPieces (hne : pieces ≠ []) (hslash : ∀ piece ∈ pieces, '/' ∉ piece) :
    Text.piecesOf '/' (joinPieces pieces).toList = pieces := by
  rw [joinPieces, String.toList_ofList, Text.piecesOf_intercalate hne hslash]

/-- Pieces of which the first one says something are a relative path that says what they do. -/
theorem components_joinPieces (hslash : ∀ piece ∈ pieces, '/' ∉ piece)
    (hfirst : ∀ piece ∈ pieces.head?, isIdle piece = false) :
    isAbsolute ⟨joinPieces pieces⟩ = false ∧
      components ⟨joinPieces pieces⟩ = pieces.filterMap Component.ofPiece? := by
  cases pieces with
  | nil => exact ⟨rfl, rfl⟩
  | cons piece pieces =>
    have hsays := hfirst piece rfl
    have hpieces := piecesOf_joinPieces (List.cons_ne_nil piece pieces) hslash
    have hrelative : isAbsolute ⟨joinPieces (piece :: pieces)⟩ = false := by
      rw [Bool.eq_false_iff]
      intro habsolute
      obtain ⟨rest, hrest⟩ := toList_of_isAbsolute habsolute
      rw [show (joinPieces (piece :: pieces)).toList = '/' :: rest from hrest,
        Text.piecesOf_cons_self] at hpieces
      rw [← (List.cons.inj hpieces).1] at hsays
      exact absurd hsays (by decide)
    refine ⟨hrelative, ?_⟩
    have hstart : start? ⟨joinPieces (piece :: pieces)⟩ = none := by
      rw [start?_of_isRelative hrelative, hpieces, if_neg]
      intro hdot
      rw [Option.some.inj hdot] at hsays
      exact absurd hsays (by decide)
    rw [components_eq, hstart, steps, hpieces]
    rfl

/-- The start of a path and some of its first pieces. -/
theorem components_withStart (hpieces : pieces <+: p.bodyPieces) :
    (withStart p.start? pieces).components =
      p.start?.toList ++ pieces.filterMap Component.ofPiece? := by
  have hslash : ∀ piece ∈ pieces, '/' ∉ piece := fun piece hpiece =>
    slash_notMem_of_mem_bodyPieces (hpieces.subset hpiece)
  rcases p.start?_cases with habsolute | ⟨-, hstart | hstart⟩
  · rw [start?_of_isAbsolute habsolute, withStart]
    have htext : (("/" ++ joinPieces pieces : String)).toList = '/' :: (joinPieces pieces).toList := by
      simp
    have hroot : isAbsolute ⟨"/" ++ joinPieces pieces⟩ = true := by
      rw [isAbsolute, htext]
      rfl
    rw [components_of_isAbsolute hroot, steps, htext, Text.piecesOf_cons_self]
    by_cases hne : pieces = []
    · subst hne
      rfl
    · rw [piecesOf_joinPieces hne hslash]
      rfl
  · rw [hstart, withStart]
    · by_cases hp : p.text = ""
      · obtain ⟨text⟩ := p
        subst hp
        rcases List.prefix_cons_iff.mp hpieces with rfl | ⟨rest, rfl, hrest⟩
        · rfl
        · rw [List.prefix_nil.mp hrest]
          rfl
      · exact (components_joinPieces hslash fun piece hpiece =>
          isIdle_of_mem_head? hp hstart (mem_head?_mono hpieces hpiece)).2
    all_goals simp
  · rw [hstart, withStart]
    have hdot : ∀ piece ∈ ['.'] :: pieces, '/' ∉ piece :=
      List.forall_mem_cons.mpr ⟨by decide, hslash⟩
    have hread := piecesOf_joinPieces (List.cons_ne_nil _ _) hdot
    rw [components, start?, bodyPieces]
    split
    · next rest hrest =>
      rw [show (joinPieces (['.'] :: pieces)).toList = '/' :: rest from hrest,
        Text.piecesOf_cons_self] at hread
      exact absurd (List.cons.inj hread).1 (by simp)
    · rw [hread]
      rfl

/-! ## Without the end -/

theorem components_withoutTail (p : Path) : (Disk.withoutTail p).components = p.components := by
  rw [Disk.withoutTail, components_withStart (trimEnd_isPrefix_self _), filterMap_trimEnd,
    components_eq_bodyPieces]

/-- The parent of a path leaves out some of its last components. -/
theorem components_parent? (h : p.parent? = some q) : q.components <+: p.components := by
  rw [parent?] at h
  split at h
  · next last before hlast =>
    have hbefore : before.reverse <+: p.bodyPieces := by
      have hreverse := congrArg List.reverse hlast
      rw [List.reverse_reverse, List.reverse_cons] at hreverse
      exact List.IsPrefix.trans ⟨_, hreverse.symm⟩ (trimEnd_isPrefix_self _)
    rw [← Option.some.inj h, components_withStart ((trimEnd_isPrefix_self _).trans hbefore),
      filterMap_trimEnd, components_eq_bodyPieces, List.prefix_append_right_inj]
    exact hbefore.filterMap _
  · split at h
    · rw [← Option.some.inj h]
      exact List.nil_prefix
    · exact absurd h nofun

/-! ## Without the beginning -/

theorem filterMap_dropPieces (n : Nat) (pieces : List (List Char)) :
    (dropPieces n pieces).filterMap Component.ofPiece? =
      (pieces.filterMap Component.ofPiece?).drop n := by
  induction pieces generalizing n with
  | nil => cases n <;> simp [dropPieces]
  | cons piece pieces ih =>
    cases n with
    | zero => rfl
    | succ n =>
      rw [dropPieces]
      cases hpiece : Component.ofPiece? piece with
      | none =>
        rw [if_pos (by rw [isIdle, hpiece]; rfl), ih, List.filterMap_cons_none hpiece]
      | some c =>
        rw [if_neg (by rw [isIdle, hpiece]; simp), ih, List.filterMap_cons_some hpiece,
          List.drop_succ_cons]

theorem mem_of_mem_dropPieces {n : Nat} {piece : List Char} (h : piece ∈ dropPieces n pieces) :
    piece ∈ pieces := by
  induction pieces generalizing n with
  | nil => cases n <;> exact absurd h (by simp [dropPieces])
  | cons first pieces ih =>
    cases n with
    | zero => exact h
    | succ n =>
      rw [dropPieces] at h
      split at h
      · exact List.mem_cons_of_mem _ (ih h)
      · exact List.mem_cons_of_mem _ (ih h)

/-- Pieces after those at the beginning that say nothing. -/
theorem components_withStart_none (pieces : List (List Char))
    (hslash : ∀ piece ∈ pieces, '/' ∉ piece) :
    (withStart none (trimEnd (pieces.dropWhile isIdle))).isAbsolute = false ∧
      (withStart none (trimEnd (pieces.dropWhile isIdle))).components =
        pieces.filterMap Component.ofPiece? := by
  have hsays : ∀ piece ∈ (trimEnd (pieces.dropWhile isIdle)).head?, isIdle piece = false := by
    intro piece hpiece
    have hhead := List.head?_dropWhile_not isIdle pieces
    rwa [mem_head?_mono (trimEnd_isPrefix_self _) hpiece] at hhead
  obtain ⟨hrelative, hread⟩ := components_joinPieces (fun piece hpiece => hslash piece
    ((List.dropWhile_suffix _).subset ((trimEnd_isPrefix_self _).subset hpiece))) hsays
  rw [filterMap_trimEnd, filterMap_dropWhile_isIdle] at hread
  exact ⟨hrelative, hread⟩

/-- What is left of a path that goes on from another one says how it goes on. -/
theorem components_strip? {cs : List Component} (hbase : base.components ≠ [])
    (h : p.components = base.components ++ cs) :
    ∃ rest, p.strip? base = some rest ∧ rest.isAbsolute = false ∧ rest.components = cs := by
  have hwithin : p.isWithin base = true := by
    rw [isWithin_iff, h]
    exact List.prefix_append _ _
  have hlength : base.components.length ≠ 0 := by simpa using hbase
  have hstart : p.start?.toList.length ≤ base.components.length := by
    have hone : p.start?.toList.length ≤ 1 := by cases p.start? <;> simp
    omega
  have hcs := congrArg (List.drop base.components.length) h
  rw [List.drop_left, p.components_eq_bodyPieces, List.drop_append,
    List.drop_eq_nil_of_le hstart, List.nil_append, ← filterMap_dropPieces] at hcs
  have hread := components_withStart_none
    (dropPieces (base.components.length - p.start?.toList.length) p.bodyPieces)
    fun piece hpiece => slash_notMem_of_mem_bodyPieces (mem_of_mem_dropPieces hpiece)
  refine ⟨_, if_pos hwithin, ?_⟩
  rw [dropComponents, if_neg hlength, ← hcs]
  exact hread

end Path

end BuildMatrix
