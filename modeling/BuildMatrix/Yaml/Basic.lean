import BuildMatrix.Text.Quoted

/-!
# YAML values

The value of a YAML document: mappings keep the order of their entries, and a value may carry a
local tag. `describe` is the form in which messages show a value.
-/

namespace BuildMatrix

/-- A number: an integer, or a double precision number given by its shortest text. -/
inductive Number
  | int (n : Int)
  | float (text : String)
  deriving DecidableEq, Repr

/-- Whether two numbers are equal; zeros are, whatever their sign. -/
def Number.equal : Number → Number → Bool
  | int a, int b => a == b
  | float a, float b => a == b || (["0.0", "-0.0"].contains a && ["0.0", "-0.0"].contains b)
  | _, _ => false

/-- A YAML value. -/
inductive Yaml
  | null
  | bool (b : Bool)
  | number (n : Number)
  | string (s : String)
  | seq (items : List Yaml)
  | map (entries : List (Yaml × Yaml))
  | tagged (tag : String) (value : Yaml)
  deriving Repr, Inhabited

/-- The entries of a mapping in their stored order. -/
abbrev Entries :=
  List (Yaml × Yaml)

/-- The text of a number. -/
def Number.render : Number → String
  | int n => toString n
  | float text => text

namespace Yaml

/-! ## Equality -/

mutual

/-- Whether two values are equal: the order of a mapping's entries does not count, nor does the
sign of a zero. -/
def equal : Yaml → Yaml → Bool
  | null, null => true
  | bool a, bool b => a == b
  | number a, number b => a.equal b
  | string a, string b => a == b
  | seq as, seq bs => equalItems as bs
  | map as, map bs => as.length == bs.length && containsEntries bs as
  | tagged s a, tagged t b => s == t && equal a b
  | _, _ => false

/-- Whether two lists hold equal values. -/
def equalItems : List Yaml → List Yaml → Bool
  | [], [] => true
  | a :: as, b :: bs => equal a b && equalItems as bs
  | _, _ => false

/-- Whether `bs` has an entry equal to each of the given ones. -/
def containsEntries (bs : List (Yaml × Yaml)) : List (Yaml × Yaml) → Bool
  | [] => true
  | (k, v) :: as => (bs.any fun e => equal k e.1 && equal v e.2) && containsEntries bs as

end

@[simp] theorem equal_string (s : String) (v : Yaml) :
    equal (string s) v = true ↔ v = string s := by
  cases v <;> simp [equal]
  exact eq_comm

mutual

/-- Whether two values are the same, in the order of their entries too. -/
def decSame : (a b : Yaml) → Decidable (a = b)
  | null, null => .isTrue rfl
  | bool a, bool b => decidable_of_iff (a = b) (by simp)
  | number a, number b => decidable_of_iff (a = b) (by simp)
  | string a, string b => decidable_of_iff (a = b) (by simp)
  | seq as, seq bs =>
    have := decSameItems as bs
    decidable_of_iff (as = bs) (by simp)
  | map as, map bs =>
    have := decSameEntries as bs
    decidable_of_iff (as = bs) (by simp)
  | tagged s a, tagged t b =>
    have := decSame a b
    decidable_of_iff (s = t ∧ a = b) (by simp)
  | null, bool _ | null, number _ | null, string _ | null, seq _ | null, map _
  | null, tagged .. | bool _, null | bool _, number _ | bool _, string _ | bool _, seq _
  | bool _, map _ | bool _, tagged .. | number _, null | number _, bool _ | number _, string _
  | number _, seq _ | number _, map _ | number _, tagged .. | string _, null | string _, bool _
  | string _, number _ | string _, seq _ | string _, map _ | string _, tagged .. | seq _, null
  | seq _, bool _ | seq _, number _ | seq _, string _ | seq _, map _ | seq _, tagged ..
  | map _, null | map _, bool _ | map _, number _ | map _, string _ | map _, seq _
  | map _, tagged .. | tagged .., null | tagged .., bool _ | tagged .., number _
  | tagged .., string _ | tagged .., seq _ | tagged .., map _ => .isFalse nofun

/-- Whether two lists hold the same values. -/
def decSameItems : (as bs : List Yaml) → Decidable (as = bs)
  | [], [] => .isTrue rfl
  | a :: as, b :: bs =>
    have := decSame a b
    have := decSameItems as bs
    decidable_of_iff (a = b ∧ as = bs) (by simp)
  | [], _ :: _ | _ :: _, [] => .isFalse nofun

/-- Whether two mappings hold the same entries in the same order. -/
def decSameEntries : (as bs : List (Yaml × Yaml)) → Decidable (as = bs)
  | [], [] => .isTrue rfl
  | (k, v) :: as, (k', v') :: bs =>
    have := decSame k k'
    have := decSame v v'
    have := decSameEntries as bs
    decidable_of_iff ((k = k' ∧ v = v') ∧ as = bs) (by simp)
  | [], _ :: _ | _ :: _, [] => .isFalse nofun

end

instance : DecidableEq Yaml :=
  decSame

/-! ## Views -/

/-- The value without its tags. -/
def untagged : Yaml → Yaml
  | tagged _ v => untagged v
  | v => v

/-- The text that a value is, whatever its tag. -/
def asString? (v : Yaml) : Option String :=
  match v.untagged with
  | string s => some s
  | _ => none

/-- The mapping that a value is, whatever its tag. -/
def asMap? (v : Yaml) : Option Entries :=
  match v.untagged with
  | map es => some es
  | _ => none

/-- Whether a value is a mapping, whatever its tag. -/
def isMap (v : Yaml) : Bool :=
  v.asMap?.isSome

/-- The written form of a tag. -/
def renderTag (tag : String) : String :=
  "!" ++ tag

/-! ## Form in messages -/

mutual

/-- The form of a value in messages. -/
def describe : Yaml → String
  | null => "Null"
  | bool b => "Bool(" ++ (if b then "true" else "false") ++ ")"
  | number n => "Number(" ++ n.render ++ ")"
  | string s => "String(" ++ Text.quoted s ++ ")"
  | seq items => "Sequence [" ++ ", ".intercalate (describeItems items) ++ "]"
  | map entries => "Mapping \x7b" ++ ", ".intercalate (describeEntries entries) ++ "\x7d"
  | tagged tag v => "TaggedValue \x7b tag: " ++ renderTag tag ++ ", value: " ++ describe v ++ " \x7d"

/-- The forms of the items of a list. -/
def describeItems : List Yaml → List String
  | [] => []
  | v :: vs => describe v :: describeItems vs

/-- The forms of the entries of a mapping: keys that are texts, numbers or truth values stand
bare. -/
def describeEntries : List (Yaml × Yaml) → List String
  | [] => []
  | (k, v) :: es =>
    let key := match k with
      | bool b => if b then "true" else "false"
      | number n => n.render
      | string s => Text.quoted s
      | k => describe k
    (key ++ ": " ++ describe v) :: describeEntries es

end

end Yaml

namespace Entries

/-- The value of a key. -/
def get? (k : Yaml) : Entries → Option Yaml
  | [] => none
  | (k', v) :: es => if k.equal k' then some v else get? k es

/-- The value of a text key. -/
def getText? (k : String) (es : Entries) : Option Yaml :=
  get? (.string k) es

/-- Whether a key has a value. -/
def hasKey (k : Yaml) (es : Entries) : Bool :=
  (get? k es).isSome

/-- Gives a key a value: in its place if it is there, at the end otherwise. -/
def insert (k v : Yaml) : Entries → Entries
  | [] => [(k, v)]
  | (k', v') :: es => if k.equal k' then (k', v) :: es else (k', v') :: insert k v es

/-- The entries without the first one of a key. The last entry moves into its place. -/
def swapRemove (k : Yaml) (es : Entries) : Entries :=
  match es with
  | [] => []
  | e :: rest =>
    if k.equal e.1 then
      match rest.getLast? with
      | some last => last :: rest.dropLast
      | none => []
    else e :: swapRemove k rest

/-- Appends the entries of another mapping whose keys are missing. -/
def addMissing (es more : Entries) : Entries :=
  more.foldl (fun es e => if hasKey e.1 es then es else es ++ [e]) es

end Entries

end BuildMatrix
