import BuildMatrix.Text.Number

/-!
# Double precision numbers

A finite double precision number is `m · 2 ^ q` with a sign, where `m` has at most fifty-three
bits and `q` is at least `-1074`. `ofDecimal?` rounds a decimal fraction to the nearest such
number, a tie going to an even `m`.
-/

namespace BuildMatrix

/-- The magnitude of a finite double precision number: `mantissa · 2 ^ exponent`. -/
structure Double where
  mantissa : Nat
  exponent : Int
  deriving DecidableEq, Repr

namespace Double

/-- The least exponent. -/
def leastExponent : Int := -1074

/-- The greatest exponent. -/
def greatestExponent : Int := 971

/-- Rounds `num / den` to a natural number, a tie going to the even neighbour. -/
def roundEven (num den : Nat) : Nat :=
  let q := num / den
  let r := num % den
  if 2 * r < den then q
  else if den < 2 * r then q + 1
  else if q % 2 = 0 then q else q + 1

/-- The nearest number to `num / den`, or none when that is beyond the greatest one. -/
def ofRatio? (num den : Nat) : Option Double :=
  if num = 0 then some ⟨0, leastExponent⟩
  else
    let guess := (Nat.log2 num : Int) - (Nat.log2 den : Int) - 53
    let scaled (q : Int) : Nat :=
      if 0 ≤ q then roundEven num (den * Nat.pow 2 q.toNat)
      else roundEven (num * Nat.pow 2 (-q).toNat) den
    let exact (q : Int) : Bool :=
      if 0 ≤ q then num < den * Nat.pow 2 q.toNat * Nat.pow 2 53
      else num * Nat.pow 2 (-q).toNat < den * Nat.pow 2 53
    let start := max guess leastExponent
    let q := if exact start then start else if exact (start + 1) then start + 1 else start + 2
    let m := scaled q
    let (m, q) := if m = Nat.pow 2 53 then (Nat.pow 2 52, q + 1) else (m, q)
    if greatestExponent < q then none else some ⟨m, q⟩

/-- The nearest number to `digits · 10 ^ scale`, or none when that is beyond the greatest one.
Numbers far outside the range are settled by their number of digits. -/
def ofDecimal? (digits : Nat) (scale : Int) : Option Double :=
  let size : Int := (Nat.toDigits 10 digits).length + scale
  if digits = 0 ∨ size < -400 then some ⟨0, leastExponent⟩
  else if 400 < size then none
  else if 0 ≤ scale then ofRatio? (digits * Nat.pow 10 scale.toNat) 1
  else ofRatio? digits (Nat.pow 10 (-scale).toNat)

end Double

end BuildMatrix
