/-
# What a JSON text means

Numbers get their value, strings must be text, members are sorted with the last of equal keys
kept, and brackets may be nested only so deep.  `Json.read?` is the whole way from a text to a
value.

**Numbers.**  An integer that fits sixty-four bits is kept.  Every other number becomes a double in
two roundings: the leading digits as far as they fit a word are rounded once, and scaled by a power
of ten once.  A number beyond the largest double has no value.
-/
import Folio.Json.Term

namespace Folio.Json

/-! ## 1. Numbers -/

/-- The value of a decimal digit. -/
def digitValue (c : Char) : Nat := c.toNat - 48

/-- The greatest word of sixty-four bits, `2^64 - 1`. -/
def greatestWord : Nat := 18446744073709551615

/-- Appends digits to a word as long as the result fits; the digits that are left over. -/
def absorb (word : Nat) : List Char → Nat × List Char
  | [] => (word, [])
  | c :: rest =>
    let longer := word * 10 + digitValue c
    if longer ≤ greatestWord then absorb longer rest else (word, c :: rest)

/-- **The leading digits of a number as a word**, and the power of ten it has to be scaled by
before the written exponent is added.  A digit before the point that finds no place counts as a
power of ten; one behind it is dropped with all that follow. -/
def Literal.significand (l : Literal) : Nat × Int :=
  let (word, left) := absorb 0 l.whole
  let digits := l.fraction.getD []
  let (word, dropped) := absorb word digits
  (word, Int.ofNat left.length - Int.ofNat (digits.length - dropped.length))

/-- The power of ten as a double. -/
def powerOfTen (k : Nat) : Float := Float.ofScientific 1 false k

/-- The greatest power of ten that is a double. -/
def greatestPower : Nat := 308

/-- Divides by a power of ten, in several steps if the power itself is no double. -/
def scaleDown (x : Float) (k : Nat) : Float :=
  if k ≤ greatestPower then x / powerOfTen k
  else if x == 0.0 then x
  else scaleDown (x / powerOfTen greatestPower) (k - greatestPower)
termination_by k
decreasing_by simp only [greatestPower] at *; omega

/-- A word scaled by a power of ten; none if the result is beyond the largest double. -/
def scale? (word : Nat) (k : Int) : Option Float :=
  let x := (UInt64.ofNat word).toFloat
  if k < 0 then some (scaleDown x (-k).toNat)
  else if k ≤ greatestPower then
    let y := x * powerOfTen k.toNat
    if y.isInf then none else some y
  else if word = 0 then some x
  else none

/-- The greatest exponent that is looked at, `2^31 - 1`; a greater one leads beyond every double,
or to zero. -/
def greatestExponent : Nat := 2147483647

/-- The size of a number that is no integer, as a double. -/
def Literal.magnitude? (l : Literal) : Option Float :=
  let (word, k) := l.significand
  match l.exponent with
  | none => scale? word k
  | some (negative, ds) =>
    let e := ds.foldl (fun n c => n * 10 + digitValue c) 0
    if e ≤ greatestExponent then scale? word (if negative then k - e else k + e)
    else if word = 0 ∨ negative then some 0.0
    else none

/-- **The value of a number.**  A number written without point and exponent is an integer if it
fits; a zero with a minus sign is a double. -/
def Literal.value? (l : Literal) : Option Number :=
  let double := l.magnitude?.map fun x => Number.double (if l.negative then -x else x).toBits
  match l.fraction, l.exponent, absorb 0 l.whole with
  | none, none, (n, []) =>
    if !l.negative then some (.integer n)
    else if 0 < n ∧ leastInteger ≤ -n then some (.integer (-n))
    else double
  | _, _, _ => double

/-! ## 2. Values -/

mutual

/-- **The value of a tree**, in which at most `room` brackets may be open at a time. -/
def Term.value? (room : Nat) : Term → Option Json
  | .null => some .null
  | .bool b => some (.bool b)
  | .number l => l.value?.map .number
  | .string s => s.map .string
  | .array items =>
    match room with
    | 0 => none
    | room + 1 => (Term.values? room items).map .array
  | .object members =>
    match room with
    | 0 => none
    | room + 1 => (Term.memberValues? room members).map fun ms => .object (sortMembers ms)

/-- The values of the items of an array. -/
def Term.values? (room : Nat) : List Term → Option (List Json)
  | [] => some []
  | t :: rest => do
    let v ← Term.value? room t
    let vs ← Term.values? room rest
    pure (v :: vs)

/-- The values of the members of an object, as they are listed. -/
def Term.memberValues? (room : Nat) : List (Option String × Term) → Option (List (String × Json))
  | [] => some []
  | (k, t) :: rest => do
    let k ← k
    let v ← Term.value? room t
    let vs ← Term.memberValues? room rest
    pure ((k, v) :: vs)

end

/-- The number of brackets that may be open at a time. -/
def greatestDepth : Nat := 127

/-- **The value of a text.** -/
def read? (text : String) : Option Json := Term.read? text >>= Term.value? greatestDepth

end Folio.Json
