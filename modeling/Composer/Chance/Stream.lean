/-!
# Composer.Chance.Stream

**A stream of random words.** A seed of 64 bits is stretched to a key of eight words by a
congruential generator with permuted output, and the key drives a stream cipher of twelve rounds
whose blocks are sixteen words long. The stream is a function of the seed and the position, so
equal seeds always give equal streams.
-/

namespace Composer.Chance

/-! ### From a seed to a key -/

/-- The next state of the generator of keys. -/
def keyStep (s : UInt64) : UInt64 :=
  s * 6364136223846793005 + 11634580027462260723

/-- The word rotated to the right by `n` bits. -/
def rotateRight (w : UInt32) (n : UInt32) : UInt32 :=
  (w >>> n) ||| (w <<< (32 - n))

/-- The word that a state of the generator of keys gives. -/
def keyWord (s : UInt64) : UInt32 :=
  rotateRight (((s >>> 18) ^^^ s) >>> 27).toUInt32 (s >>> 59).toUInt32

/-- The state of the generator of keys after `n` steps. -/
def keyState (seed : UInt64) : Nat → UInt64
  | 0 => seed
  | n + 1 => keyStep (keyState seed n)

/-! ### The cipher -/

/-- One row of the state of the cipher: a word for each of its four columns. -/
structure Row where
  /-- The first column. -/
  w0 : UInt32
  /-- The second column. -/
  w1 : UInt32
  /-- The third column. -/
  w2 : UInt32
  /-- The last column. -/
  w3 : UInt32
deriving DecidableEq, Repr

namespace Row

/-- Combines two rows column by column. -/
def zip (f : UInt32 → UInt32 → UInt32) (x y : Row) : Row :=
  ⟨f x.w0 y.w0, f x.w1 y.w1, f x.w2 y.w2, f x.w3 y.w3⟩

/-- The row whose words are rotated to the left by `n` bits. -/
def rotate (n : UInt32) (x : Row) : Row :=
  let turn (w : UInt32) : UInt32 := rotateRight w (32 - n)
  ⟨turn x.w0, turn x.w1, turn x.w2, turn x.w3⟩

/-- The row whose words have moved by one column. -/
def shift (x : Row) : Row :=
  ⟨x.w1, x.w2, x.w3, x.w0⟩

/-- The word of a column. -/
def get (x : Row) : Nat → UInt32
  | 0 => x.w0
  | 1 => x.w1
  | 2 => x.w2
  | _ => x.w3

end Row

/-- The state of the cipher. -/
structure Block where
  /-- The first row. -/
  a : Row
  /-- The second row. -/
  b : Row
  /-- The third row. -/
  c : Row
  /-- The last row. -/
  d : Row
deriving DecidableEq, Repr

namespace Block

/-- One half of a quarter round, in all columns at once. -/
def half (m n : UInt32) (x : Block) : Block :=
  let a := x.a.zip (· + ·) x.b
  let d := (x.d.zip (· ^^^ ·) a).rotate m
  let c := x.c.zip (· + ·) d
  let b := (x.b.zip (· ^^^ ·) c).rotate n
  ⟨a, b, c, d⟩

/-- A quarter round in all columns at once. -/
def columns (x : Block) : Block :=
  half 8 7 (half 16 12 x)

/-- Two rounds: one down the columns and one down the diagonals. -/
def doubleRound (x : Block) : Block :=
  let x := x.columns
  let y := columns ⟨x.a, x.b.shift, x.c.shift.shift, x.d.shift.shift.shift⟩
  ⟨y.a, y.b.shift.shift.shift, y.c.shift.shift, y.d.shift⟩

/-- Twelve rounds, added to the state they started from. -/
def scramble (x : Block) : Block :=
  let y := Nat.repeat doubleRound 6 x
  ⟨y.a.zip (· + ·) x.a, y.b.zip (· + ·) x.b, y.c.zip (· + ·) x.c, y.d.zip (· + ·) x.d⟩

/-- One of the sixteen words. -/
def get (x : Block) (i : Nat) : UInt32 :=
  match i / 4 with
  | 0 => x.a.get (i % 4)
  | 1 => x.b.get (i % 4)
  | 2 => x.c.get (i % 4)
  | _ => x.d.get (i % 4)

end Block

/-- The state from which the block `n` of the stream of a seed is made. -/
def start (seed : UInt64) (n : Nat) : Block :=
  let key (i : Nat) : UInt32 := keyWord (keyState seed (i + 1))
  { a := ⟨0x61707865, 0x3320646e, 0x79622d32, 0x6b206574⟩
    b := ⟨key 0, key 1, key 2, key 3⟩
    c := ⟨key 4, key 5, key 6, key 7⟩
    d := ⟨n.toUInt32, (n / Nat.pow 2 32).toUInt32, 0, 0⟩ }

/-! ### The stream -/

/-- The word of the stream of a seed at a position. -/
def word (seed : UInt64) (i : Nat) : Nat :=
  (((start seed (i / 16)).scramble).get (i % 16)).toNat

/-- The pair of words at a position, counted in pairs, as one word of 64 bits. -/
def doubleWord (seed : UInt64) (i : Nat) : Nat :=
  word seed (2 * i) + Nat.pow 2 32 * word seed (2 * i + 1)

/-! ### Drawing without bias -/

/-- The multiples of `range` whose lower halves are accepted, so that every value is equally
likely: those below `range` with its highest bit moved to the top of `bits` bits. -/
def accepted (bits range : Nat) : Nat :=
  range * Nat.pow 2 (bits - (range.log2 + 1))

/-- The number of words after which a stream repeats itself: the blocks are counted in 64 bits. -/
def period : Nat :=
  16 * Nat.pow 2 64

/-- Draws a number below `range` from words of `bits` bits, `source i` being the first one to try and
`tries` the number of words to try. The result comes with the position after the word that was
taken. At least half of all words are accepted. -/
def drawWithin (bits : Nat) (source : Nat → Nat) (range : Nat) :
    (tries i : Nat) → Option (Nat × Nat)
  | 0, _ => none
  | tries + 1, i =>
    let m := source i * range
    if m % Nat.pow 2 bits < accepted bits range then some (m / Nat.pow 2 bits, i + 1)
    else drawWithin bits source range tries (i + 1)

/-- Draws a number below `range`. There is no result if the stream comes back to where it was with
every word refused, since all others are refused as well then. -/
def draw (bits : Nat) (source : Nat → Nat) (range i : Nat) : Option (Nat × Nat) :=
  drawWithin bits source range period i

/-- Rolls `n` dice with the given number of sides, starting at position `i` of the stream. -/
def rolls (seed : UInt64) (sides : Nat) : (n i : Nat) → Option (List Int)
  | 0, _ => some []
  | n + 1, i => do
    let (v, i) ← draw 32 (word seed) sides i
    let rest ← rolls seed sides n i
    some ((v + 1 : Int) :: rest)

/-- Tosses a coin: true for heads. -/
def coin (seed : UInt64) : Bool :=
  doubleWord seed 0 < Nat.pow 2 63

/-- Draws a whole number from `low` to `high`. -/
def between (seed : UInt64) (low high : Int) : Option Int :=
  (draw 64 (doubleWord seed) (high - low + 1).toNat 0).map fun (v, _) => low + v

end Composer.Chance
