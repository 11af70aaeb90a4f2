/-
# How a decimal is laid out

The text of a double from its shortest decimal.  A `Layout` holds the decisions that differ from
format to format: between which powers of ten the point is written in its place, and how an
exponent is written outside of them.
-/
import Folio.Decimal.Shortest

namespace Folio.Decimal

/-- **The decisions of a number format.**  A number whose first digit stands for `10^e` is written
positionally if `least ≤ e ≤ most`, with at least one digit behind the point; all others have an
exponent mark and a signed exponent. -/
structure Layout where
  least : Int
  most : Int
  exponentMark : Char
  positiveSign : List Char
  deriving Repr, DecidableEq

/-- The decimal digits of a natural number. -/
def digits (n : Nat) : List Char := Nat.toDigits 10 n

/-- The decimal digits of an integer, behind a minus sign if it is negative. -/
def signedDigits (i : Int) : List Char :=
  if i < 0 then '-' :: digits i.natAbs else digits i.natAbs

/-- A row of zeros. -/
def zeros (n : Nat) : List Char := List.replicate n '0'

/-- The digits `c * 10^k` with the point in its place. -/
def positional (c : List Char) (k : Int) : List Char :=
  if 0 ≤ k then c ++ zeros k.toNat ++ ['.', '0']
  else
    let fraction := (-k).toNat
    if fraction < c.length then
      c.take (c.length - fraction) ++ '.' :: c.drop (c.length - fraction)
    else '0' :: '.' :: zeros (fraction - c.length) ++ c

/-- The digits `c * 10^k` with the point behind the first digit, and the exponent. -/
def Layout.scientific (l : Layout) (c : List Char) (k : Int) : List Char :=
  let e := k + c.length - 1
  c.take 1 ++ (if c.length = 1 then [] else '.' :: c.drop 1) ++ l.exponentMark ::
    (if e < 0 then signedDigits e else l.positiveSign ++ digits e.toNat)

/-- The sign bit of a double, `2^63`. -/
def signBit : Nat := 9223372036854775808

/-- **The text of a finite double**, given by its bits. -/
def Layout.write (l : Layout) (bits : UInt64) : List Char :=
  let sign := if bits.toNat / signBit = 1 then ['-'] else []
  if bits.toNat % signBit = 0 then sign ++ ['0', '.', '0']
  else
    let (c, k) := (Binary.ofBits bits).shortest
    let ds := digits c
    let e := k + ds.length - 1
    sign ++ if l.least ≤ e ∧ e ≤ l.most then positional ds k else l.scientific ds k

end Folio.Decimal
