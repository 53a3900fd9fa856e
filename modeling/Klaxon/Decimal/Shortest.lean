/-!
# Shortest decimal digits of a binary number

A positive double is `m * 2 ^ q`. The reals that round to it form an interval around it, whose ends
belong to it when `m` is even. `shortest` picks, among the decimals of that interval, those with the
fewest digits, and of these the nearest to the double. It looks at the two neighbours of the double
on the grids of one, two, up to seventeen digits, all in exact arithmetic on natural numbers.
-/

namespace Klaxon.Decimal

/-- The positive number `m * 2 ^ q` of a binary format. -/
structure Binary where
  m : Nat
  q : Int

/-- The decimal number `digits * 10 ^ exponent`. -/
structure Scientific where
  digits : Nat
  exponent : Int
  deriving DecidableEq

/-- The magnitude of a double that is neither an infinity nor a NaN. -/
def Binary.ofFloat (f : Float) : Binary :=
  let bits := f.toBits.toNat
  let biased : Nat := bits / Nat.pow 2 52 % Nat.pow 2 11
  let fraction : Nat := bits % Nat.pow 2 52
  if biased = 0 then ⟨fraction, -1074⟩ else ⟨Nat.pow 2 52 + fraction, (biased : Int) - 1075⟩

/-- Whether the sign bit of a double is set. -/
def signBit (f : Float) : Bool := f.toBits.toNat / Nat.pow 2 63 = 1

/-- `digits * 10 ^ k` and `a * 2 ^ p` as natural numbers over one denominator. -/
def commonScale (digits : Nat) (k : Int) (a : Nat) (p : Int) : Nat × Nat :=
  (digits * Nat.pow 10 k.toNat * Nat.pow 2 (-p).toNat,
    a * Nat.pow 2 p.toNat * Nat.pow 10 (-k).toNat)

/-- Whether `digits * 10 ^ k` rounds to the double: it lies between the midpoints to the double's
two neighbours. All bounds are counted in quarters of the unit in the last place. -/
def roundsTo (b : Binary) (digits : Nat) (k : Int) : Bool :=
  let quarters := b.q - 2
  let below := if b.m = Nat.pow 2 52 ∧ b.q > -1074 then 1 else 2
  let (x, low) := commonScale digits k (4 * b.m - below) quarters
  let (y, high) := commonScale digits k (4 * b.m + 2) quarters
  if b.m % 2 = 0 then decide (low ≤ x) && decide (y ≤ high)
  else decide (low < x) && decide (y < high)

/-- The greatest `d` with `d * 10 ^ k ≤ m * 2 ^ q`. -/
def floorOn (b : Binary) (k : Int) : Nat :=
  let (unit, value) := commonScale 1 k b.m b.q
  value / unit

/-- Whether `d * 10 ^ k` is nearer to the number than `(d + 1) * 10 ^ k`, with ties to an even
`d`. -/
def lowerIsNearer (b : Binary) (d : Nat) (k : Int) : Bool :=
  let (middle, value) := commonScale (2 * d + 1) k (2 * b.m) b.q
  value < middle || (value == middle && d % 2 = 0)

/-- The decimal exponent of the first digit of a positive number of at least `10 ^ (-350)`. -/
def leadingExponent (b : Binary) : Int :=
  (Nat.toDigits 10 (floorOn b (-350))).length - 1 - 350

/-- A neighbour of the number on the grid of step `10 ^ k` that rounds to it, the nearer one if both
do. -/
def neighbour? (b : Binary) (k : Int) : Option Scientific :=
  let d := floorOn b k
  match roundsTo b d k, roundsTo b (d + 1) k with
  | true, true => some ⟨if lowerIsNearer b d k then d else d + 1, k⟩
  | true, false => some ⟨d, k⟩
  | false, true => some ⟨d + 1, k⟩
  | false, false => none

/-- The first neighbour found on `count` grids, each ten times as fine as the one before. -/
def firstNeighbour (b : Binary) : Nat → Int → Scientific
  | 0, k => ⟨floorOn b k, k⟩
  | count + 1, k => (neighbour? b k).getD (firstNeighbour b count (k - 1))

/-- Moves the zeros at the end of the digits into the exponent. -/
def stripZeros : Nat → Scientific → Scientific
  | 0, s => s
  | fuel + 1, s =>
    if s.digits ≠ 0 ∧ s.digits % 10 = 0 then stripZeros fuel ⟨s.digits / 10, s.exponent + 1⟩
    else s

/-- The decimal with the fewest digits that reads back as the positive number. -/
def shortest (b : Binary) : Scientific :=
  stripZeros 20 (firstNeighbour b 17 (leadingExponent b))

end Klaxon.Decimal
