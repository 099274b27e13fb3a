/-!
# SHA-512

The digest of a row of bytes: the bytes are padded to whole blocks of a hundred and twenty-eight,
and each block is mixed into eight words in eighty rounds.
-/

namespace BuildMatrix.Sha512

/-- The words that the rounds add: the first bits of the fractional parts of the cube roots of the
first eighty primes. -/
def roundWords : Array UInt64 :=
  #[0x428a2f98d728ae22, 0x7137449123ef65cd, 0xb5c0fbcfec4d3b2f, 0xe9b5dba58189dbbc,
    0x3956c25bf348b538, 0x59f111f1b605d019, 0x923f82a4af194f9b, 0xab1c5ed5da6d8118,
    0xd807aa98a3030242, 0x12835b0145706fbe, 0x243185be4ee4b28c, 0x550c7dc3d5ffb4e2,
    0x72be5d74f27b896f, 0x80deb1fe3b1696b1, 0x9bdc06a725c71235, 0xc19bf174cf692694,
    0xe49b69c19ef14ad2, 0xefbe4786384f25e3, 0x0fc19dc68b8cd5b5, 0x240ca1cc77ac9c65,
    0x2de92c6f592b0275, 0x4a7484aa6ea6e483, 0x5cb0a9dcbd41fbd4, 0x76f988da831153b5,
    0x983e5152ee66dfab, 0xa831c66d2db43210, 0xb00327c898fb213f, 0xbf597fc7beef0ee4,
    0xc6e00bf33da88fc2, 0xd5a79147930aa725, 0x06ca6351e003826f, 0x142929670a0e6e70,
    0x27b70a8546d22ffc, 0x2e1b21385c26c926, 0x4d2c6dfc5ac42aed, 0x53380d139d95b3df,
    0x650a73548baf63de, 0x766a0abb3c77b2a8, 0x81c2c92e47edaee6, 0x92722c851482353b,
    0xa2bfe8a14cf10364, 0xa81a664bbc423001, 0xc24b8b70d0f89791, 0xc76c51a30654be30,
    0xd192e819d6ef5218, 0xd69906245565a910, 0xf40e35855771202a, 0x106aa07032bbd1b8,
    0x19a4c116b8d2d0c8, 0x1e376c085141ab53, 0x2748774cdf8eeb99, 0x34b0bcb5e19b48a8,
    0x391c0cb3c5c95a63, 0x4ed8aa4ae3418acb, 0x5b9cca4f7763e373, 0x682e6ff3d6b2b8a3,
    0x748f82ee5defb2fc, 0x78a5636f43172f60, 0x84c87814a1f0ab72, 0x8cc702081a6439ec,
    0x90befffa23631e28, 0xa4506cebde82bde9, 0xbef9a3f7b2c67915, 0xc67178f2e372532b,
    0xca273eceea26619c, 0xd186b8c721c0c207, 0xeada7dd6cde0eb1e, 0xf57d4f7fee6ed178,
    0x06f067aa72176fba, 0x0a637dc5a2c898a6, 0x113f9804bef90dae, 0x1b710b35131c471b,
    0x28db77f523047d84, 0x32caab7b40c72493, 0x3c9ebe0a15c9bebc, 0x431d67c49c100d4c,
    0x4cc5d4becb3e42b6, 0x597f299cfc657e2a, 0x5fcb6fab3ad6faec, 0x6c44198c4a475817]

/-- The words before the first block: the first bits of the fractional parts of the square roots of
the first eight primes. -/
def initial : Array UInt64 :=
  #[0x6a09e667f3bcc908, 0xbb67ae8584caa73b, 0x3c6ef372fe94f82b, 0xa54ff53a5f1d36f1,
    0x510e527fade682d1, 0x9b05688c2b3e6c1f, 0x1f83d9abfb41bd6b, 0x5be0cd19137e2179]

/-- A word turned to the right. -/
def rotate (x : UInt64) (n : UInt64) : UInt64 :=
  (x >>> n) ||| (x <<< (64 - n))

/-- The bytes of a number, highest first. -/
def bigEndian : Nat → Nat → List UInt8
  | 0, _ => []
  | count + 1, n => (n / Nat.pow 256 count).toUInt8 :: bigEndian count n

/-- The bytes with a one bit, zeros and the number of bits behind them, in whole blocks. -/
def pad (bytes : List UInt8) : List UInt8 :=
  let zeros := (239 - bytes.length % 128) % 128
  bytes ++ 0x80 :: (List.replicate zeros 0 ++ bigEndian 16 (8 * bytes.length))

/-- The first word of a row of bytes. -/
def wordOf (bytes : List UInt8) : UInt64 :=
  (bytes.take 8).foldl (fun w b => w <<< 8 ||| b.toUInt64) 0

/-- The words of a row of bytes. -/
def words : Nat → List UInt8 → List UInt64
  | 0, _ => []
  | count + 1, bytes => wordOf bytes :: words count (bytes.drop 8)

/-- Extends a schedule by the word that sixteen earlier ones determine. -/
def extend (w : Array UInt64) : Array UInt64 :=
  let back (n : Nat) : UInt64 := w.getD (w.size - n) 0
  let low (x : UInt64) := rotate x 1 ^^^ rotate x 8 ^^^ (x >>> 7)
  let high (x : UInt64) := rotate x 19 ^^^ rotate x 61 ^^^ (x >>> 6)
  w.push (high (back 2) + back 7 + low (back 15) + back 16)

/-- The eighty words of a block. -/
def schedule (block : List UInt8) : Array UInt64 :=
  (List.range 64).foldl (fun w _ => extend w) (words 16 block).toArray

/-- The eight words that a block is mixed into. -/
structure State where
  a : UInt64
  b : UInt64
  c : UInt64
  d : UInt64
  e : UInt64
  f : UInt64
  g : UInt64
  h : UInt64

namespace State

/-- The state that eight words make up. -/
def ofWords (w : Array UInt64) : State :=
  ⟨w.getD 0 0, w.getD 1 0, w.getD 2 0, w.getD 3 0, w.getD 4 0, w.getD 5 0, w.getD 6 0,
    w.getD 7 0⟩

/-- One round with a word of the block and a word of the round. -/
def round (s : State) (w k : UInt64) : State :=
  let mixE := rotate s.e 14 ^^^ rotate s.e 18 ^^^ rotate s.e 41
  let choice := (s.e &&& s.f) ^^^ (~~~s.e &&& s.g)
  let t := s.h + mixE + choice + k + w
  let mixA := rotate s.a 28 ^^^ rotate s.a 34 ^^^ rotate s.a 39
  let majority := (s.a &&& s.b) ^^^ (s.a &&& s.c) ^^^ (s.b &&& s.c)
  ⟨t + mixA + majority, s.a, s.b, s.c, s.d + t, s.e, s.f, s.g⟩

/-- The sum of two states, word by word. -/
def add (s t : State) : State :=
  ⟨s.a + t.a, s.b + t.b, s.c + t.c, s.d + t.d, s.e + t.e, s.f + t.f, s.g + t.g, s.h + t.h⟩

/-- The words of a state. -/
def toWords (s : State) : List UInt64 :=
  [s.a, s.b, s.c, s.d, s.e, s.f, s.g, s.h]

end State

/-- Mixes a block into a state. -/
def compress (s : State) (block : List UInt8) : State :=
  let w := schedule block
  s.add ((List.range 80).foldl (fun s i => s.round (w.getD i 0) (roundWords.getD i 0)) s)

/-- Mixes a number of blocks into a state. -/
def compressAll : Nat → State → List UInt8 → State
  | 0, s, _ => s
  | blocks + 1, s, bytes => compressAll blocks (compress s (bytes.take 128)) (bytes.drop 128)

/-- The digest of a row of bytes. -/
def digest (bytes : List UInt8) : List UInt8 :=
  let padded := pad bytes
  let s := compressAll (padded.length / 128) (State.ofWords initial) padded
  s.toWords.flatMap fun w => bigEndian 8 w.toNat

/-- A hexadecimal digit. -/
def hexDigit (n : Nat) : Char :=
  (Nat.toDigits 16 (n % 16)).headD '0'

/-- The digest of a text in hexadecimal digits. -/
def hexDigest (s : String) : String :=
  String.ofList <| (digest s.toUTF8.toList).flatMap fun b =>
    [hexDigit (b.toNat / 16), hexDigit b.toNat]

end BuildMatrix.Sha512
