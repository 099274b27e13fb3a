/-!
# Reading numbers

`readNat` reads a non-empty run of digits in a base of up to sixteen. `readUnsigned` and
`readSigned` read decimal numbers with an optional sign and refuse what a word of sixty-four bits
does not hold.
-/

namespace BuildMatrix.Text

/-- The value of a hexadecimal digit. -/
def digitValue (c : Char) : Option Nat :=
  if '0' ≤ c ∧ c ≤ '9' then some (c.toNat - '0'.toNat)
  else if 'a' ≤ c ∧ c ≤ 'f' then some (c.toNat - 'a'.toNat + 10)
  else if 'A' ≤ c ∧ c ≤ 'F' then some (c.toNat - 'A'.toNat + 10)
  else none

/-- Adds the digits of a text to the number read so far. -/
def readDigits (base : Nat) : Nat → List Char → Option Nat
  | n, [] => some n
  | n, c :: cs =>
    match digitValue c with
    | some d => if d < base then readDigits base (base * n + d) cs else none
    | none => none

/-- The number that a non-empty run of digits writes. -/
def readNat (base : Nat) : List Char → Option Nat
  | [] => none
  | cs => readDigits base 0 cs

/-- The least number that an unsigned word of sixty-four bits does not hold. -/
def unsignedBound : Nat := Nat.pow 2 64

/-- The least number that a signed word of sixty-four bits does not hold. -/
def signedBound : Nat := Nat.pow 2 63

/-- A decimal number without a minus sign that fits an unsigned word. -/
def readUnsigned (cs : List Char) : Option Nat :=
  let digits := match cs with
    | '+' :: rest => rest
    | _ => cs
  (readNat 10 digits).filter (· < unsignedBound)

/-- A number in the given base with an optional sign that fits a signed word. -/
def readSigned (base : Nat) (cs : List Char) : Option Int :=
  match cs with
  | '-' :: rest => ((readNat base rest).filter (· ≤ signedBound)).map fun n => -(n : Int)
  | '+' :: rest => ((readNat base rest).filter (· < signedBound)).map Int.ofNat
  | _ => ((readNat base cs).filter (· < signedBound)).map Int.ofNat

/-- The signed word with the bits of an unsigned one. -/
def asSigned (n : Nat) : Int :=
  Int.bmod n unsignedBound

/-- The number of bytes that a text takes in UTF-8. -/
def byteLength (cs : List Char) : Nat :=
  cs.foldr (fun c n => c.utf8Size + n) 0

end BuildMatrix.Text
