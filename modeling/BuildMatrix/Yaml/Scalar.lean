import BuildMatrix.Decimal.Shortest
import BuildMatrix.Yaml.Basic

/-!
# Plain scalars

What a scalar without quotes means: null, a truth value, an integer, a number with a fraction or
an exponent, or else a text. Integers must fit a word of sixty-four bits; the ones that only fit
a word of twice that size are refused, and larger ones are read as fractions.
-/

namespace BuildMatrix.Yaml

/-- The text of a number other than zero whose shortest decimal is `digits · 10 ^ e`: positional
for numbers from `0.00001` to below `10 ^ 16`, with an exponent otherwise. -/
def decimalText (digits : Nat) (e : Int) : String :=
  let ds := Nat.toDigits 10 digits
  let point : Int := ds.length + e
  let zeros (n : Int) := List.replicate n.toNat '0'
  if 0 ≤ e ∧ point ≤ 16 then String.ofList (ds ++ zeros e ++ ['.', '0'])
  else if 0 < point ∧ point ≤ 16 then
    String.ofList (ds.take point.toNat ++ ['.'] ++ ds.drop point.toNat)
  else if -5 < point ∧ point ≤ 0 then String.ofList (['0', '.'] ++ zeros (-point) ++ ds)
  else
    match ds with
    | d :: [] => String.ofList [d, 'e'] ++ toString (point - 1)
    | d :: rest => String.ofList (d :: '.' :: rest) ++ "e" ++ toString (point - 1)
    | [] => ""

/-- The text of a double precision number with a sign. -/
def doubleText (negative : Bool) (d : Double) : String :=
  let text := if d.mantissa = 0 then "0.0" else
    let (digits, e) := d.shortest
    decimalText digits e
  if negative then "-" ++ text else text

/-- Whether a scalar is a row of digits with a superfluous zero in front, which is a text. -/
def hasSpareZero (cs : List Char) : Bool :=
  let digits := match cs with
    | '-' :: rest | '+' :: rest => rest
    | _ => cs
  1 < digits.length && digits.head? == some '0' && digits.all Char.isDigit

/-- The magnitude that digits with an optional base mark write. -/
def magnitude? (cs : List Char) : Option Nat :=
  match cs with
  | '0' :: 'x' :: digits => Text.readNat 16 digits
  | '0' :: 'o' :: digits => Text.readNat 8 digits
  | '0' :: 'b' :: digits => Text.readNat 2 digits
  | _ => if hasSpareZero cs then none else Text.readNat 10 cs

/-- The integer that a scalar writes, of any size. -/
def integer? (cs : List Char) : Option Int :=
  match cs with
  | '-' :: rest => (magnitude? rest).map fun n => -(n : Int)
  | '+' :: rest => (magnitude? rest).map Int.ofNat
  | _ => (magnitude? cs).map Int.ofNat

/-- A decimal fraction without its sign: its digits and the power of ten they are scaled by. -/
def fraction? (cs : List Char) : Option (Nat × Int) :=
  let whole := cs.takeWhile Char.isDigit
  let afterWhole := cs.dropWhile Char.isDigit
  let (part, afterPart) := match afterWhole with
    | '.' :: rest => (rest.takeWhile Char.isDigit, rest.dropWhile Char.isDigit)
    | _ => ([], afterWhole)
  let power? : Option Int := match afterPart with
    | [] => some 0
    | c :: rest =>
      if c = 'e' ∨ c = 'E' then
        match rest with
        | '-' :: digits => (Text.readNat 10 digits).map fun n => -(n : Int)
        | '+' :: digits => (Text.readNat 10 digits).map Int.ofNat
        | digits => (Text.readNat 10 digits).map Int.ofNat
      else none
  match Text.readNat 10 (whole ++ part), power? with
  | some digits, some power => some (digits, power - part.length)
  | _, _ => none

/-- The number with a fraction or an exponent that a scalar writes. -/
def float? (cs : List Char) : Option String :=
  let finite (negative : Bool) (cs : List Char) :=
    (fraction? cs).bind fun (digits, scale) =>
      (Double.ofDecimal? digits scale).map (doubleText negative)
  let text := String.ofList cs
  if [".inf", ".Inf", ".INF", "+.inf", "+.Inf", "+.INF"].contains text then some ".inf"
  else if ["-.inf", "-.Inf", "-.INF"].contains text then some "-.inf"
  else if [".nan", ".NaN", ".NAN"].contains text then some ".nan"
  else
    match cs with
    | '-' :: rest => finite true rest
    | '+' :: rest => finite false rest
    | _ => finite false cs

/-- Whether a scalar writes null. -/
def isNullText (s : String) : Bool :=
  ["null", "Null", "NULL", "~"].contains s

/-- The truth value that a scalar writes. -/
def bool? (s : String) : Option Bool :=
  if ["true", "True", "TRUE"].contains s then some true
  else if ["false", "False", "FALSE"].contains s then some false
  else none

/-- Whether an integer fits a word of sixty-four bits, signed if it is negative. -/
def fitsWord (n : Int) : Bool :=
  -(Text.signedBound : Int) ≤ n && n < Text.unsignedBound

/-- Whether an integer fits a word of a hundred and twenty-eight bits, signed if it is
negative. -/
def fitsDoubleWord (n : Int) : Bool :=
  -(Nat.pow 2 127 : Int) ≤ n && n < Nat.pow 2 128

/-- A text, or the number with a fraction that it writes. -/
def floatOrText (s : String) : Yaml :=
  if hasSpareZero s.toList then string s
  else
    match float? s.toList with
    | some text => number (.float text)
    | none => string s

/-- The meaning of a scalar without quotes; none for an integer of a refused size. -/
def ofPlain? (s : String) : Option Yaml :=
  if s.isEmpty || isNullText s then some null
  else
    match bool? s, integer? s.toList with
    | some b, _ => some (bool b)
    | none, some n =>
      if fitsWord n then some (number (.int n))
      else if fitsDoubleWord n then none
      else some (floatOrText s)
    | none, none => some (floatOrText s)

end BuildMatrix.Yaml
