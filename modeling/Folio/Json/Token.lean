/-
# The tokens of a JSON text

A JSON text is a row of tokens with blanks between them.  `Token.text` writes one token and
`Token.readAll` finds the tokens of a text; a text that is no row of tokens is refused.

A token keeps what is written and gives no meaning to it.  In particular a number token holds its
digits, so that numbers beyond every range can stand where nobody looks at them, and a string
token that contains half a surrogate pair has no text (`none`).
-/
import Folio.Decimal.Layout

namespace Folio.Json

/-- **A number as it is written.**  Digits are kept as characters; `fraction` holds those behind
the point and `exponent` those behind the mark with whether a minus sign precedes them. -/
structure Literal where
  negative : Bool
  whole : List Char
  fraction : Option (List Char)
  exponent : Option (Bool × List Char)
  deriving DecidableEq, Repr

/-- **A token.** -/
inductive Token where
  | openArray
  | closeArray
  | openObject
  | closeObject
  | colon
  | comma
  | null
  | bool (value : Bool)
  | number (literal : Literal)
  | string (text : Option String)
  deriving DecidableEq, Repr

/-! ## 1. Writing a token -/

/-- A hexadecimal digit in lower case. -/
def hexDigit (n : Nat) : Char := Nat.digitChar n

/-- **One character inside a string.**  Quotes, backslashes and control characters are escaped,
all others stand for themselves. -/
def escapeChar (c : Char) : List Char :=
  if c = '"' then ['\\', '"']
  else if c = '\\' then ['\\', '\\']
  else if c.toNat = 0x08 then ['\\', 'b']
  else if c.toNat = 0x0C then ['\\', 'f']
  else if c = '\n' then ['\\', 'n']
  else if c = '\r' then ['\\', 'r']
  else if c = '\t' then ['\\', 't']
  else if c.toNat < 0x20 then
    ['\\', 'u', '0', '0', hexDigit (c.toNat / 16), hexDigit (c.toNat % 16)]
  else [c]

/-- A string between its quotes. -/
def quote (cs : List Char) : List Char := '"' :: cs.flatMap escapeChar ++ ['"']

/-- A number as it is written. -/
def Literal.text (l : Literal) : List Char :=
  (if l.negative then ['-'] else []) ++ l.whole ++
    (match l.fraction with | some ds => '.' :: ds | none => []) ++
    (match l.exponent with
      | some (true, ds) => 'e' :: '-' :: ds
      | some (false, ds) => 'e' :: '+' :: ds
      | none => [])

/-- **A token as it is written.** -/
def Token.text : Token → List Char
  | .openArray => ['[']
  | .closeArray => [']']
  | .openObject => ['\x7b']
  | .closeObject => ['\x7d']
  | .colon => [':']
  | .comma => [',']
  | .null => ['n', 'u', 'l', 'l']
  | .bool true => ['t', 'r', 'u', 'e']
  | .bool false => ['f', 'a', 'l', 's', 'e']
  | .number l => l.text
  | .string s => quote (s.getD "").toList

/-! ## 2. Reading a string -/

/-- A piece of a string: a character that stands for itself or is escaped by a letter, or a unit
of sixteen bits that is escaped by its number. -/
inductive Piece where
  | char (c : Char)
  | unit (n : Nat)
  deriving DecidableEq, Repr

/-- The value of a hexadecimal digit of either case. -/
def hexValue? (c : Char) : Option Nat :=
  if '0' ≤ c ∧ c ≤ '9' then some (c.toNat - 48)
  else if 'a' ≤ c ∧ c ≤ 'f' then some (c.toNat - 87)
  else if 'A' ≤ c ∧ c ≤ 'F' then some (c.toNat - 55)
  else none

/-- The character that an escape by a letter stands for. -/
def unescape? (c : Char) : Option Char :=
  if c = '"' ∨ c = '\\' ∨ c = '/' then some c
  else if c = 'b' then some (Char.ofNat 0x08)
  else if c = 'f' then some (Char.ofNat 0x0C)
  else if c = 'n' then some '\n'
  else if c = 'r' then some '\r'
  else if c = 't' then some '\t'
  else none

/-- The unit with these four hexadecimal digits. -/
def unit? (a b c d : Char) : Option Nat := do
  let a ← hexValue? a
  let b ← hexValue? b
  let c ← hexValue? c
  let d ← hexValue? d
  pure (((a * 16 + b) * 16 + c) * 16 + d)

/-- The pieces of a string up to its closing quote, and the text behind it. -/
def pieces? : List Char → Option (List Piece × List Char)
  | '"' :: rest => some ([], rest)
  | '\\' :: 'u' :: a :: b :: c :: d :: rest => do
    let n ← unit? a b c d
    let (ps, rest) ← pieces? rest
    pure (.unit n :: ps, rest)
  | '\\' :: e :: rest => do
    let c ← unescape? e
    let (ps, rest) ← pieces? rest
    pure (.char c :: ps, rest)
  | c :: rest =>
    if c.toNat < 0x20 ∨ c = '\\' then none
    else do
      let (ps, rest) ← pieces? rest
      pure (.char c :: ps, rest)
  | [] => none

/-- A unit is the first half of a surrogate pair. -/
def isHighHalf (n : Nat) : Bool := 0xD800 ≤ n && n < 0xDC00

/-- A unit is the second half of a surrogate pair. -/
def isLowHalf (n : Nat) : Bool := 0xDC00 ≤ n && n < 0xE000

/-- The character that two halves stand for. -/
def joinHalves (high low : Nat) : Char :=
  Char.ofNat (0x10000 + (high - 0xD800) * 0x400 + (low - 0xDC00))

/-- **The characters of a string.**  The halves of a surrogate pair must follow each other; a half
on its own stands for no character.  `pending` is a first half that waits for its second. -/
def assemble? : Option Nat → List Piece → Option (List Char)
  | none, [] => some []
  | none, .char c :: rest => (assemble? none rest).map (c :: ·)
  | none, .unit n :: rest =>
    if isHighHalf n then assemble? (some n) rest
    else if isLowHalf n then none
    else (assemble? none rest).map (Char.ofNat n :: ·)
  | some high, .unit n :: rest =>
    if isLowHalf n then (assemble? none rest).map (joinHalves high n :: ·) else none
  | some _, _ => none

/-! ## 3. Reading a number -/

/-- A decimal digit. -/
def isDigit (c : Char) : Bool := '0' ≤ c && c ≤ '9'

/-- The digits at the front of a text, at least one, and the text behind them. -/
def digits? (cs : List Char) : Option (List Char × List Char) :=
  match cs.takeWhile isDigit with
  | [] => none
  | ds => some (ds, cs.dropWhile isDigit)

/-- The digits before the point: a zero, or a row of digits that begins with no zero. -/
def whole? : List Char → Option (List Char × List Char)
  | '0' :: rest => some (['0'], rest)
  | cs => digits? cs

/-- The digits behind the point, where there is one. -/
def fraction? : List Char → Option (Option (List Char) × List Char)
  | '.' :: rest => do
    let (ds, rest) ← digits? rest
    pure (some ds, rest)
  | cs => some (none, cs)

/-- The sign of an exponent, where there is one: whether it is a minus sign. -/
def exponentSign : List Char → Bool × List Char
  | '-' :: rest => (true, rest)
  | '+' :: rest => (false, rest)
  | cs => (false, cs)

/-- The exponent, where there is one. -/
def exponent? : List Char → Option (Option (Bool × List Char) × List Char)
  | c :: rest =>
    if c = 'e' ∨ c = 'E' then do
      let (negative, rest) := exponentSign rest
      let (ds, rest) ← digits? rest
      pure (some (negative, ds), rest)
    else some (none, c :: rest)
  | [] => some (none, [])

/-- **A number at the front of a text**, and the text behind it. -/
def literal? (cs : List Char) : Option (Literal × List Char) := do
  let (negative, cs) := match cs with
    | '-' :: rest => (true, rest)
    | cs => (false, cs)
  let (whole, cs) ← whole? cs
  let (fraction, cs) ← fraction? cs
  let (exponent, cs) ← exponent? cs
  pure (⟨negative, whole, fraction, exponent⟩, cs)

/-! ## 4. Reading a text -/

/-- A blank between tokens. -/
def isBlank (c : Char) : Bool := c == ' ' || c == '\n' || c == '\t' || c == '\r'

/-- **The token at the front of a text** that starts with no blank, and the text behind it. -/
def Token.next? : List Char → Option (Token × List Char)
  | '[' :: rest => some (.openArray, rest)
  | ']' :: rest => some (.closeArray, rest)
  | '\x7b' :: rest => some (.openObject, rest)
  | '\x7d' :: rest => some (.closeObject, rest)
  | ':' :: rest => some (.colon, rest)
  | ',' :: rest => some (.comma, rest)
  | 'n' :: 'u' :: 'l' :: 'l' :: rest => some (.null, rest)
  | 't' :: 'r' :: 'u' :: 'e' :: rest => some (.bool true, rest)
  | 'f' :: 'a' :: 'l' :: 's' :: 'e' :: rest => some (.bool false, rest)
  | '"' :: rest => do
    let (ps, rest) ← pieces? rest
    pure (.string ((assemble? none ps).map String.ofList), rest)
  | cs => do
    let (l, rest) ← literal? cs
    pure (.number l, rest)

/-- The tokens of a text, at most `fuel` of them. -/
def Token.readMost : Nat → List Char → Option (List Token)
  | fuel, cs =>
    match cs.dropWhile isBlank with
    | [] => some []
    | cs =>
      match fuel with
      | 0 => none
      | fuel + 1 => do
        let (t, rest) ← Token.next? cs
        let ts ← Token.readMost fuel rest
        pure (t :: ts)

/-- **The tokens of a text.**  Every token takes at least one character, so their number is at
most that of the characters. -/
def Token.readAll (cs : List Char) : Option (List Token) := Token.readMost cs.length cs

end Folio.Json
