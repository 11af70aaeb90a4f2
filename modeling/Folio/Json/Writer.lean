/-
# Writing a JSON value

Two layouts: `compact` has no blanks at all, `pretty` puts every item and member on a line of its
own, two blanks further in than the bracket that holds it, with a blank behind each colon.  An
empty array or object is written as its two brackets in both.

The compact form is the row of the value's tokens; the pretty form has the same tokens with blanks
between them.
-/
import Folio.Json.Basic
import Folio.Json.Token

namespace Folio.Json

/-- **How doubles are written**: positionally from `10^-5` up to below `10^16`, and otherwise with
a small `e` and a signed exponent. -/
def doubleLayout : Decimal.Layout := ⟨-5, 15, 'e', ['+']⟩

/-- A number as text. -/
def Number.text : Number → List Char
  | .integer i => Decimal.signedDigits i
  | .double bits => doubleLayout.write bits

/-! ## 1. The compact form -/

mutual

/-- **The compact form**, in characters. -/
def compactChars : Json → List Char
  | .null => Token.null.text
  | .bool b => (Token.bool b).text
  | .number n => n.text
  | .string s => quote s.toList
  | .array items => Token.openArray.text ++ compactItems items ++ Token.closeArray.text
  | .object members => Token.openObject.text ++ compactMembers members ++ Token.closeObject.text

/-- The items of an array, with commas between them. -/
def compactItems : List Json → List Char
  | [] => []
  | [v] => compactChars v
  | v :: rest => compactChars v ++ Token.comma.text ++ compactItems rest

/-- The members of an object, with commas between them. -/
def compactMembers : List (String × Json) → List Char
  | [] => []
  | [(k, v)] => quote k.toList ++ Token.colon.text ++ compactChars v
  | (k, v) :: rest =>
    quote k.toList ++ Token.colon.text ++ compactChars v ++ Token.comma.text ++ compactMembers rest

end

/-- **The compact form.** -/
def compact (v : Json) : String := String.ofList v.compactChars

/-! ## 2. The pretty form -/

/-- The start of a new line at a depth. -/
def newline (depth : Nat) : List Char := '\n' :: List.replicate (2 * depth) ' '

mutual

/-- **The pretty form** of a value that stands at a depth, in characters. -/
def prettyChars (depth : Nat) : Json → List Char
  | .null => Token.null.text
  | .bool b => (Token.bool b).text
  | .number n => n.text
  | .string s => quote s.toList
  | .array [] => Token.openArray.text ++ Token.closeArray.text
  | .array (v :: rest) =>
    Token.openArray.text ++ prettyItems (depth + 1) (v :: rest) ++ newline depth ++
      Token.closeArray.text
  | .object [] => Token.openObject.text ++ Token.closeObject.text
  | .object (m :: rest) =>
    Token.openObject.text ++ prettyMembers (depth + 1) (m :: rest) ++ newline depth ++
      Token.closeObject.text

/-- The items of an array, each on its line, with commas between them. -/
def prettyItems (depth : Nat) : List Json → List Char
  | [] => []
  | [v] => newline depth ++ prettyChars depth v
  | v :: rest => newline depth ++ prettyChars depth v ++ Token.comma.text ++ prettyItems depth rest

/-- The members of an object, each on its line, with commas between them. -/
def prettyMembers (depth : Nat) : List (String × Json) → List Char
  | [] => []
  | [(k, v)] => newline depth ++ quote k.toList ++ Token.colon.text ++ ' ' :: prettyChars depth v
  | (k, v) :: rest =>
    newline depth ++ quote k.toList ++ Token.colon.text ++ ' ' :: prettyChars depth v ++
      Token.comma.text ++ prettyMembers depth rest

end

/-- **The pretty form.** -/
def pretty (v : Json) : String := String.ofList (v.prettyChars 0)

end Folio.Json
