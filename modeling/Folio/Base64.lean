/-
# Base64

The standard alphabet with padding.  Three bytes are written as four symbols of six bits; one or
two bytes at the end are written as two or three symbols, filled up to four with `=`.

`decode` accepts exactly what `encode` writes: the length is a multiple of four, padding stands
only at the end, and the bits of the last symbol that belong to no byte are zero.  Each way in
which a text can fail has its own error, with the place where it was found.
-/

namespace Folio.Base64

/-! ## 1. Symbols -/

/-- The byte that fills up the last group. -/
def padding : UInt8 := 61

/-- **The symbol of six bits.** -/
def symbol (n : Nat) : UInt8 :=
  if n < 26 then UInt8.ofNat (65 + n)
  else if n < 52 then UInt8.ofNat (97 + (n - 26))
  else if n < 62 then UInt8.ofNat (48 + (n - 52))
  else if n = 62 then 43
  else 47

/-- **The six bits of a symbol.** -/
def value? (b : UInt8) : Option Nat :=
  let n := b.toNat
  if 65 ≤ n ∧ n ≤ 90 then some (n - 65)
  else if 97 ≤ n ∧ n ≤ 122 then some (n - 97 + 26)
  else if 48 ≤ n ∧ n ≤ 57 then some (n - 48 + 52)
  else if n = 43 then some 62
  else if n = 47 then some 63
  else none

theorem value?_symbol {n : Nat} (h : n < 64) : value? (symbol n) = some n := by
  have all : ∀ m : Fin 64, value? (symbol m.val) = some m.val := by decide
  exact all ⟨n, h⟩

theorem symbol_ne_padding {n : Nat} (h : n < 64) : symbol n ≠ padding := by
  have all : ∀ m : Fin 64, symbol m.val ≠ padding := by decide
  exact all ⟨n, h⟩

/-! ## 2. Writing -/

/-- **The symbols of a row of bytes.** -/
def encode : List UInt8 → List UInt8
  | [] => []
  | [a] => [symbol (a.toNat / 4), symbol (a.toNat % 4 * 16), padding, padding]
  | [a, b] =>
    [symbol (a.toNat / 4), symbol (a.toNat % 4 * 16 + b.toNat / 16),
      symbol (b.toNat % 16 * 4), padding]
  | a :: b :: c :: rest =>
    symbol (a.toNat / 4) :: symbol (a.toNat % 4 * 16 + b.toNat / 16) ::
      symbol (b.toNat % 16 * 4 + c.toNat / 64) :: symbol (c.toNat % 64) :: encode rest

/-- The symbols of a row of bytes as characters. -/
def encodeChars (bytes : List UInt8) : List Char :=
  (encode bytes).map fun b => Char.ofNat b.toNat

/-! ## 3. Reading -/

/-- **Why a text is no base64.**  Places count bytes from zero. -/
inductive DecodeError where
  | invalidSymbol (place : Nat) (byte : UInt8)
  | invalidLength (length : Nat)
  | invalidLastSymbol (place : Nat) (byte : UInt8)
  | invalidPadding
  deriving DecidableEq, Repr

/-- The text of the error. -/
def DecodeError.message : DecodeError → String
  | .invalidSymbol place byte =>
    "Invalid symbol " ++ toString byte.toNat ++ ", offset " ++ toString place ++ "."
  | .invalidLength length => "Invalid input length: " ++ toString length
  | .invalidLastSymbol place byte =>
    "Invalid last symbol " ++ toString byte.toNat ++ ", offset " ++ toString place ++ "."
  | .invalidPadding => "Invalid padding"

/-- The six bits of the symbol at a place. -/
def valueAt (place : Nat) (b : UInt8) : Except DecodeError Nat :=
  match value? b with
  | some v => .ok v
  | none => .error (.invalidSymbol place b)

/-- The three bytes of four groups of six bits. -/
def joinFour (a b c d : Nat) : List UInt8 :=
  [UInt8.ofNat (a * 4 + b / 16), UInt8.ofNat (b % 16 * 16 + c / 4), UInt8.ofNat (c % 4 * 64 + d)]

/-- The symbols in front of the padding of the last group, which starts at `start`; `before` of
its bytes have been read.  No padding may stand at the first two places. -/
def lastSymbols (start before : Nat) : List UInt8 → Except DecodeError (List (Nat × UInt8))
  | [] => .ok []
  | b :: rest =>
    if b = padding then
      if before < 2 then .error (.invalidSymbol (start + before) b)
      else if rest.all (· == padding) then .ok []
      else .error (.invalidSymbol (start + before) padding)
    else do
      let v ← valueAt (start + before) b
      let vs ← lastSymbols start (before + 1) rest
      pure ((v, b) :: vs)

/-- The bytes of a group of two, three or four symbols, whose unused bits must be zero. -/
def joinLast (start : Nat) : List (Nat × UInt8) → Except DecodeError (List UInt8)
  | [(a, _), (b, symbol)] =>
    if b % 16 = 0 then .ok [UInt8.ofNat (a * 4 + b / 16)]
    else .error (.invalidLastSymbol (start + 1) symbol)
  | [(a, _), (b, _), (c, symbol)] =>
    if c % 4 = 0 then
      .ok [UInt8.ofNat (a * 4 + b / 16), UInt8.ofNat (b % 16 * 16 + c / 4)]
    else .error (.invalidLastSymbol (start + 2) symbol)
  | [(a, _), (b, _), (c, _), (d, _)] => .ok (joinFour a b c d)
  | symbols => .error (.invalidLength (start + symbols.length))

/-- The bytes of the last group, of one to four bytes of text. -/
def decodeLast (start : Nat) (bytes : List UInt8) : Except DecodeError (List UInt8) := do
  let symbols ← lastSymbols start 0 bytes
  if symbols.length < 2 then .error (.invalidLength (start + symbols.length))
  else if bytes.length ≠ 4 then .error .invalidPadding
  else joinLast start symbols

/-- The bytes of all groups, the first of which starts at `start`. -/
def decodeFrom (start : Nat) : List UInt8 → Except DecodeError (List UInt8)
  | [] => .ok []
  | a :: b :: c :: d :: e :: rest => do
    let a ← valueAt start a
    let b ← valueAt (start + 1) b
    let c ← valueAt (start + 2) c
    let d ← valueAt (start + 3) d
    let bytes ← decodeFrom (start + 4) (e :: rest)
    pure (joinFour a b c d ++ bytes)
  | bytes => decodeLast start bytes

/-- **The bytes that a text stands for.**  A text with one byte too many is refused for that byte
if it is no symbol at all, before anything else is looked at. -/
def decode (bytes : List UInt8) : Except DecodeError (List UInt8) :=
  match bytes.getLast? with
  | some b =>
    if bytes.length % 4 = 1 ∧ b ≠ padding ∧ value? b = none then
      .error (.invalidSymbol (bytes.length - 1) b)
    else decodeFrom 0 bytes
  | none => decodeFrom 0 bytes

/-- The bytes that a row of characters stands for, read in UTF-8. -/
def decodeChars (cs : List Char) : Except DecodeError (List UInt8) :=
  decode (cs.flatMap String.utf8EncodeChar)

end Folio.Base64
