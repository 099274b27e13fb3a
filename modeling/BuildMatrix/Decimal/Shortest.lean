import BuildMatrix.Decimal.Binary

/-!
# The shortest decimal of a double precision number

Of the decimals that round to a number, `shortest` takes the fewest digits and, among those, the
decimal nearest to the number.
-/

namespace BuildMatrix.Double

/-- A fraction of natural numbers with a positive denominator. -/
structure Ratio where
  num : Nat
  den : Nat

namespace Ratio

/-- Whether one fraction is less than another. -/
def lt (a b : Ratio) : Bool :=
  a.num * b.den < b.num * a.den

/-- The distance of two fractions. -/
def distance (a b : Ratio) : Ratio :=
  let x := a.num * b.den
  let y := b.num * a.den
  ⟨if x ≤ y then y - x else x - y, a.den * b.den⟩

/-- `n · base ^ e`. -/
def scale (n base : Nat) (e : Int) : Ratio :=
  if 0 ≤ e then ⟨n * Nat.pow base e.toNat, 1⟩ else ⟨n, Nat.pow base (-e).toNat⟩

end Ratio

/-- The value of a number. -/
def value (d : Double) : Ratio :=
  Ratio.scale d.mantissa 2 d.exponent

/-- The lower end of the interval of reals that round to a number. Below a power of two the
numbers lie half as far apart. -/
def lowerEnd (d : Double) : Ratio :=
  if d.mantissa = Nat.pow 2 52 ∧ leastExponent < d.exponent then
    Ratio.scale (4 * d.mantissa - 1) 2 (d.exponent - 2)
  else Ratio.scale (2 * d.mantissa - 1) 2 (d.exponent - 1)

/-- The upper end of the interval of reals that round to a number. -/
def upperEnd (d : Double) : Ratio :=
  Ratio.scale (2 * d.mantissa + 1) 2 (d.exponent - 1)

/-- Whether a fraction rounds to a number: the ends of the interval do so iff the mantissa is
even. -/
def rounds (d : Double) (r : Ratio) : Bool :=
  if d.mantissa % 2 = 0 then !r.lt d.lowerEnd && !d.upperEnd.lt r
  else d.lowerEnd.lt r && r.lt d.upperEnd

/-- The neighbour of the number on the grid `10 ^ e`, nearest first, that rounds to it. -/
def onGrid (d : Double) (e : Int) : Option Nat :=
  let v := d.value
  let below :=
    if 0 ≤ e then v.num / (v.den * Nat.pow 10 e.toNat)
    else v.num * Nat.pow 10 (-e).toNat / v.den
  let near (n : Nat) := Ratio.distance v (Ratio.scale n 10 e)
  let order := if (near (below + 1)).lt (near below) ∨
      (!(near below).lt (near (below + 1)) ∧ below % 2 = 1) then
    [below + 1, below] else [below, below + 1]
  order.find? fun n => n ≠ 0 && d.rounds (Ratio.scale n 10 e)

/-- The power of ten of the leading digit of `num / den`. -/
def leading (v : Ratio) : Int :=
  let guess : Int := (Nat.toDigits 10 v.num).length - (Nat.toDigits 10 v.den).length
  if v.lt (Ratio.scale 1 10 guess) then guess - 1 else guess

/-- Tries the grids of `n + 1`, `n + 2`, … digits. -/
def searchFrom (d : Double) (lead : Int) : Nat → Int → Nat × Int
  | 0, e => (d.mantissa, e)
  | tries + 1, e =>
    match d.onGrid e with
    | some n => (n, e)
    | none => searchFrom d lead tries (e - 1)

/-- Moves trailing zeros of the digits into the exponent. -/
def stripZeros : Nat → Nat → Int → Nat × Int
  | 0, n, e => (n, e)
  | fuel + 1, n, e => if n ≠ 0 ∧ n % 10 = 0 then stripZeros fuel (n / 10) (e + 1) else (n, e)

/-- The shortest decimal `n · 10 ^ e` that rounds to a number other than zero. -/
def shortest (d : Double) : Nat × Int :=
  let lead := leading d.value
  let (n, e) := searchFrom d lead 18 lead
  stripZeros 20 n e

end BuildMatrix.Double
