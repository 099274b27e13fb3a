import BuildMatrix.Yaml.Basic

/-!
# Merge keys

The entry of a mapping under the key `<<` holds a mapping, or a list of mappings, whose entries the
mapping takes over where it has none of its own. The merge key of a mapping that is merged is taken
over like any other entry and is not looked at again.
-/

namespace BuildMatrix.Yaml

/-- The merge key. -/
def mergeKey : Yaml :=
  string "<<"

/-- Takes over the entries of each mapping of a list; anything else is refused. -/
def mergeItems (es : Entries) : List Yaml → Option Entries
  | [] => some es
  | map more :: items => mergeItems (es.addMissing more) items
  | _ :: _ => none

/-- The entries of a mapping after its own merge key has been applied. -/
def mergeOwn (es : Entries) : Option Entries :=
  match es.get? mergeKey with
  | none => some es
  | some (map more) => some ((es.swapRemove mergeKey).addMissing more)
  | some (seq items) => mergeItems (es.swapRemove mergeKey) items
  | some _ => none

mutual

/-- The number of levels of a value. -/
def height : Yaml → Nat
  | seq items => heightItems items + 1
  | map entries => heightEntries entries + 1
  | tagged _ v => height v + 1
  | _ => 0

/-- The greatest number of levels of the items of a list. -/
def heightItems : List Yaml → Nat
  | [] => 0
  | v :: vs => max (height v) (heightItems vs)

/-- The greatest number of levels of the values of a mapping. -/
def heightEntries : List (Yaml × Yaml) → Nat
  | [] => 0
  | (_, v) :: es => max (height v) (heightEntries es)

end

/-- Applies the merge keys of the uppermost levels of a value, outer ones first. Keys of mappings
are left alone. -/
def mergeLevels : Nat → Yaml → Option Yaml
  | 0, v => some v
  | n + 1, seq items => (items.mapM (mergeLevels n)).map seq
  | n + 1, map es =>
    match mergeOwn es with
    | none => none
    | some es =>
      (es.mapM fun (e : Yaml × Yaml) => (mergeLevels n e.2).map fun v => (e.1, v)).map map
  | n + 1, tagged t v => (mergeLevels n v).map (tagged t)
  | _ + 1, v => some v

/-- Applies every merge key of a value; none if one of them holds no mapping. -/
def applyMerges (v : Yaml) : Option Yaml :=
  mergeLevels (height v) v

end BuildMatrix.Yaml
