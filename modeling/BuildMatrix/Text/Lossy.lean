/-!
# Texts from bytes that may be none

Bytes are read as UTF-8. Where they are none, the longest start of a character that is there, or a
single byte, gives a replacement character.
-/

namespace BuildMatrix.Text

/-- The ranges of the bytes that follow the first byte of a character, if a character can start with
it. -/
def followers? (b : Nat) : Option (List (Nat × Nat)) :=
  if b < 0x80 then some []
  else if b < 0xC2 then none
  else if b < 0xE0 then some [(0x80, 0xBF)]
  else if b = 0xE0 then some [(0xA0, 0xBF), (0x80, 0xBF)]
  else if b = 0xED then some [(0x80, 0x9F), (0x80, 0xBF)]
  else if b < 0xF0 then some [(0x80, 0xBF), (0x80, 0xBF)]
  else if b = 0xF0 then some [(0x90, 0xBF), (0x80, 0xBF), (0x80, 0xBF)]
  else if b < 0xF4 then some [(0x80, 0xBF), (0x80, 0xBF), (0x80, 0xBF)]
  else if b = 0xF4 then some [(0x80, 0x8F), (0x80, 0xBF), (0x80, 0xBF)]
  else none

/-- The longest run of bytes at the start that lie in the ranges, one after the other. -/
def fitting : List (Nat × Nat) → List UInt8 → List UInt8
  | (low, high) :: ranges, b :: bytes =>
    if low ≤ b.toNat && b.toNat ≤ high then b :: fitting ranges bytes else []
  | _, _ => []

/-- The bits that the first byte of a character of a length adds. -/
def leadBits (b length : Nat) : Nat :=
  match length with
  | 0 => b
  | 1 => b - 0xC0
  | 2 => b - 0xE0
  | _ => b - 0xF0

/-- The character that stands for bytes that are none. -/
def replacement : Char :=
  Char.ofNat 0xFFFD

/-- The text that bytes make up. -/
def decodeLossy : List UInt8 → List Char
  | [] => []
  | b :: bytes =>
    match followers? b.toNat with
    | none => replacement :: decodeLossy bytes
    | some ranges =>
      let tail := fitting ranges bytes
      let c :=
        if tail.length = ranges.length then
          Char.ofNat (tail.foldl (fun n t => n * 64 + (t.toNat - 0x80))
            (leadBits b.toNat ranges.length))
        else replacement
      c :: decodeLossy (bytes.drop tail.length)
termination_by bytes => bytes.length
decreasing_by
  · simp
  · simp only [List.length_drop, List.length_cons]
    omega

end BuildMatrix.Text
