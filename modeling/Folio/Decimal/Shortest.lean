/-
# The shortest decimal of a double

A finite double is `m * 2^q` for natural `m` and integer `q`.  All reals between the midpoints to
its two neighbours are read back as the same double; the midpoints themselves are if `m` is even.
The shortest decimal of the double is the multiple of the largest power of ten that lies in this
interval, and of two such multiples the nearer one, so that nothing shorter reads back.

`shortest` looks at the powers of ten from the largest down and takes the first grid on which one
of the two points around the value lies in the interval.  All arithmetic is on natural numbers.
-/

namespace Folio.Decimal

/-! ## 1. The interval of a double -/

/-- **A positive double** `mantissa * 2^exponent`.  `halfGapBelow` says that its lower neighbour
is only half as far away as its upper one, which is so at a power of two. -/
structure Binary where
  mantissa : Nat
  exponent : Int
  halfGapBelow : Bool
  deriving Repr, DecidableEq

/-- The number of fractions, `2^52`: a mantissa has so many bits beside the leading one. -/
def fractionCount : Nat := 4503599627370496

/-- The number of exponents, `2^11`. -/
def exponentCount : Nat := 2048

/-- The positive double with these sixty-four bits; the sign bit is not looked at. -/
def Binary.ofBits (bits : UInt64) : Binary :=
  let fraction := bits.toNat % fractionCount
  let biased := bits.toNat / fractionCount % exponentCount
  if biased = 0 then ⟨fraction, -1074, false⟩
  else ⟨fractionCount + fraction, Int.ofNat biased - 1075, fraction == 0 && biased != 1⟩

/-- The denominator and the numerator by which multiples of `10^k` and of a quarter of the
double's unit are brought to one scale. -/
def Binary.scales (b : Binary) (k : Int) : Nat × Nat :=
  let q := b.exponent - 2
  (Nat.pow 10 k.toNat * Nat.pow 2 (-q).toNat, Nat.pow 2 q.toNat * Nat.pow 10 (-k).toNat)

/-- The point `c * 10^k` is read back as the double. -/
def Binary.admits (b : Binary) (c : Nat) (k : Int) : Bool :=
  let (tens, quarters) := b.scales k
  let point := c * tens
  let low := (4 * b.mantissa - (if b.halfGapBelow then 1 else 2)) * quarters
  let high := (4 * b.mantissa + 2) * quarters
  if b.mantissa % 2 = 0 then low ≤ point && point ≤ high else low < point && point < high

/-! ## 2. The two points around the value, and the largest grid -/

/-- The point of the grid `10^k` that reads back, if there is one: of the two around the value
the nearer, at equal distance the even one. -/
def Binary.gridPoint? (b : Binary) (k : Int) : Option Nat :=
  let (tens, quarters) := b.scales k
  let value := 4 * b.mantissa * quarters
  let below := value / tens
  let rest := value % tens
  match b.admits below k, b.admits (below + 1) k with
  | true, true =>
    if 2 * rest < tens || (2 * rest == tens && below % 2 == 0) then some below
    else some (below + 1)
  | true, false => some below
  | false, true => some (below + 1)
  | false, false => none

/-- The powers of ten among which the largest suitable one lies, from the largest down. -/
def gridExponents : List Int := (List.range 660).map fun i => 310 - Int.ofNat i

/-- **The shortest decimal** of a positive double: digits `c` and exponent `k` of `c * 10^k`. -/
def Binary.shortest (b : Binary) : Nat × Int :=
  (gridExponents.findSome? fun k => (b.gridPoint? k).map (·, k)).getD (0, 0)

end Folio.Decimal
