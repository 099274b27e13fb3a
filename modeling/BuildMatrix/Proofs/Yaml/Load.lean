import BuildMatrix.Proofs.Yaml.Entries
import BuildMatrix.Yaml.Load

/-!
# Documents hold no key twice

A document in which a mapping holds a key twice has no value. So in the value of a document each key
of a mapping has one entry, however deep the mapping stands.

* `Yaml.KeysOnce`: no mapping in a value holds a key twice.
* `Yaml.keysOnce_of_parse?`: this holds of the value of every document.
-/

namespace BuildMatrix.Yaml

/-- No mapping in a value holds a key twice; the keys themselves are not looked into. -/
inductive KeysOnce : Yaml → Prop
  | null : KeysOnce null
  | bool (b : Bool) : KeysOnce (bool b)
  | number (n : Number) : KeysOnce (number n)
  | string (s : String) : KeysOnce (string s)
  | seq {items : List Yaml} (h : ∀ v ∈ items, KeysOnce v) : KeysOnce (seq items)
  | map {es : Entries} (hkeys : es.keys.Nodup) (h : ∀ e ∈ es, KeysOnce e.2) : KeysOnce (map es)
  | tagged (t : String) {v : Yaml} (h : KeysOnce v) : KeysOnce (tagged t v)

/-! ## Counting computations -/

section

variable {α β : Type} {s t : Nat}

theorem lift_eq_some_iff {x : Option α} {a : α} :
    (StateT.lift x : StateT Nat Option α) s = some (a, t) ↔ x = some a ∧ s = t := by
  cases x <;> simp [StateT.lift]

theorem bind_eq_some_iff {x : StateT Nat Option α} {f : α → StateT Nat Option β} {r : β × Nat} :
    (x >>= f) s = some r ↔ ∃ a t, x s = some (a, t) ∧ f a t = some r := by
  show (x s).bind (fun p => f p.1 p.2) = some r ↔ _
  rw [Option.bind_eq_some_iff]
  exact Prod.exists

theorem pure_eq_some_iff {a b : α} :
    (pure a : StateT Nat Option α) s = some (b, t) ↔ a = b ∧ s = t := by
  show some (a, s) = some (b, t) ↔ _
  rw [Option.some_inj, Prod.mk.injEq]

/-- What holds of every single result holds of the results for a list. -/
theorem forall_mem_of_mapM {f : α → StateT Nat Option β} {P : β → Prop}
    (hf : ∀ a s b t, f a s = some (b, t) → P b) {as : List α} {bs : List β}
    (h : as.mapM f s = some (bs, t)) : ∀ b ∈ bs, P b := by
  induction as generalizing s t bs with
  | nil =>
    rw [List.mapM_nil, pure_eq_some_iff] at h
    exact h.1 ▸ nofun
  | cons a as ih =>
    rw [List.mapM_cons, bind_eq_some_iff] at h
    obtain ⟨b, s', hb, h⟩ := h
    obtain ⟨rest, s'', hrest, h⟩ := bind_eq_some_iff.mp h
    rw [pure_eq_some_iff] at h
    rw [← h.1]
    intro c hc
    rcases List.mem_cons.mp hc with rfl | hc
    · exact hf a s c s' hb
    · exact ih hrest c hc

/-- What every single step keeps is kept by all steps. -/
theorem of_foldlM {f : β → α → StateT Nat Option β} {P : β → Prop}
    (hf : ∀ b a s c t, P b → f b a s = some (c, t) → P c) {as : List α} {b c : β} (hb : P b)
    (h : as.foldlM f b s = some (c, t)) : P c := by
  induction as generalizing s b with
  | nil =>
    rw [List.foldlM_nil, pure_eq_some_iff] at h
    exact h.1 ▸ hb
  | cons a as ih =>
    rw [List.foldlM_cons, bind_eq_some_iff] at h
    obtain ⟨b', s', hstep, h⟩ := h
    exact ih (hf b a s b' s' hb hstep) h

end

/-! ## Scalars -/

theorem keysOnce_floatOrText (text : String) : KeysOnce (floatOrText text) := by
  unfold floatOrText
  split
  · exact .string text
  · split
    · exact .number _
    · exact .string text

theorem keysOnce_of_ofPlain? {text : String} {v : Yaml} (h : ofPlain? text = some v) :
    KeysOnce v := by
  unfold ofPlain? at h
  split at h
  · exact Option.some_inj.mp h ▸ .null
  · split at h
    · exact Option.some_inj.mp h ▸ .bool _
    · split at h
      · exact Option.some_inj.mp h ▸ .number _
      · split at h
        · exact absurd h nofun
        · exact Option.some_inj.mp h ▸ keysOnce_floatOrText text
    · exact Option.some_inj.mp h ▸ keysOnce_floatOrText text

theorem keysOnce_of_ofTagged? {tag text : String} {v : Yaml} (h : ofTagged? tag text = some v) :
    KeysOnce v := by
  unfold ofTagged? at h
  split at h
  · obtain ⟨b, -, rfl⟩ := Option.map_eq_some_iff.mp h
    exact .bool b
  split at h
  · split at h
    · split at h
      · exact Option.some_inj.mp h ▸ .number _
      · exact absurd h nofun
    · exact absurd h nofun
  split at h
  · obtain ⟨t, -, rfl⟩ := Option.map_eq_some_iff.mp h
    exact .number _
  split at h
  · split at h
    · exact Option.some_inj.mp h ▸ .null
    · exact absurd h nofun
  · exact Option.some_inj.mp h ▸ .string text

theorem keysOnce_of_ofScalar? {p : Properties} {plain : Bool} {text : String} {v : Yaml}
    (h : ofScalar? p plain text = some v) : KeysOnce v := by
  have huntagged : ∀ w, (if plain then ofPlain? text else some (string text)) = some w →
      KeysOnce w := by
    intro w hw
    split at hw
    · exact keysOnce_of_ofPlain? hw
    · exact Option.some_inj.mp hw ▸ .string text
  rw [ofScalar?] at h
  split at h
  · exact huntagged v h
  · split at h
    · obtain ⟨w, hw, rfl⟩ := Option.map_eq_some_iff.mp h
      exact .tagged _ (huntagged w hw)
    · exact keysOnce_of_ofTagged? h

/-! ## Collections -/

theorem KeysOnce.withTag {v : Yaml} (h : KeysOnce v) (p : Properties) :
    KeysOnce (withTag p v) := by
  rw [Yaml.withTag]
  split
  · exact .tagged _ h
  · exact h

/-- An entry that is added keeps the keys apart: one with a key that is there is refused. -/
theorem keysOnce_addEntry {read : Node Nat → StateT Nat Option Yaml}
    (hread : ∀ n s v t, read n s = some (v, t) → KeysOnce v) {es es' : Entries}
    (hes : KeysOnce (map es)) {e : Node Nat × Node Nat} {s t : Nat}
    (h : addEntry read es e s = some (es', t)) : KeysOnce (map es') := by
  obtain ⟨k, s', -, h⟩ := bind_eq_some_iff.mp h
  split at h
  · exact absurd (lift_eq_some_iff.mp h).1 nofun
  · next hnew =>
    obtain ⟨v, s'', hv, h⟩ := bind_eq_some_iff.mp h
    rw [← (pure_eq_some_iff.mp h).1]
    rw [Entries.hasKey, Bool.not_eq_true, Option.isSome_eq_false_iff,
      Option.isNone_iff_eq_none] at hnew
    cases hes with
    | map hkeys hvalues =>
      refine .map (Entries.nodup_keys_append_singleton hkeys hnew v) fun e he => ?_
      rcases List.mem_append.mp he with he | he
      · exact hvalues e he
      · rw [List.mem_singleton.mp he]
        exact hread _ _ v _ hv

theorem keysOnce_of_build {a : Anchors} {limit depth : Nat} {n : Node Nat} {s t : Nat} {v : Yaml}
    (h : build a limit depth n s = some (v, t)) : KeysOnce v := by
  induction depth generalizing n s t v with
  | zero =>
    rw [build, bind_eq_some_iff] at h
    obtain ⟨m, s', -, h⟩ := h
    cases m with
    | scalar => exact keysOnce_of_ofScalar? (lift_eq_some_iff.mp h).1
    | _ => exact absurd (lift_eq_some_iff.mp h).1 nofun
  | succ depth ih =>
    have hread : ∀ n s v t, build a limit depth n s = some (v, t) → KeysOnce v :=
      fun n s v t => ih
    rw [build, bind_eq_some_iff] at h
    obtain ⟨m, s', -, h⟩ := h
    cases m with
    | scalar => exact keysOnce_of_ofScalar? (lift_eq_some_iff.mp h).1
    | «alias» => exact absurd (lift_eq_some_iff.mp h).1 nofun
    | sequence p items =>
      obtain ⟨vs, s'', hvs, h⟩ := bind_eq_some_iff.mp h
      rw [← (pure_eq_some_iff.mp h).1]
      exact (KeysOnce.seq (forall_mem_of_mapM hread hvs)).withTag p
    | mapping p entries =>
      obtain ⟨es, s'', hes, h⟩ := bind_eq_some_iff.mp h
      rw [← (pure_eq_some_iff.mp h).1]
      have hstep : ∀ es e s es' t, KeysOnce (map es) →
          addEntry (build a limit depth) es e s = some (es', t) → KeysOnce (map es') :=
        fun es e s es' t hes h => keysOnce_addEntry hread hes h
      have hempty : KeysOnce (map []) := .map List.nodup_nil (by simp)
      exact (of_foldlM hstep hempty hes).withTag p

/-- No mapping in the value of a document holds a key twice. -/
theorem keysOnce_of_parse? {text : String} {v : Yaml} (h : parse? text = some v) :
    KeysOnce v := by
  rw [parse?] at h
  split at h
  · exact absurd h nofun
  · exact Option.some_inj.mp h ▸ .null
  · obtain ⟨⟨w, t⟩, hw, rfl⟩ := Option.map_eq_some_iff.mp h
    exact keysOnce_of_build hw

end BuildMatrix.Yaml
