/-
# Lower-casing a text

The full lower-case mapping of a whole text: each character by the table, U+0130 as an `i` with a
dot above, and a capital sigma by its neighbourhood.  It becomes the final form `ς` when a cased
letter stands before it and none follows, where characters such as apostrophes and accents are
looked through in both directions; otherwise it becomes `σ`.

Names and extensions are compared in this form.  Where only the letters of ASCII may be folded,
`sameAscii` compares instead.
-/
import Folio.Text.CaseTable

namespace Folio.Text

/-! ## 1. One character -/

/-- The code point in lower case, itself where the table has no entry. -/
def lowerCode (code : Nat) : Nat :=
  match lowerRuns.find? (·.covers code) with
  | some run => run.apply code
  | none => code

/-- **One character in lower case**, seen without its neighbours. -/
def lowerChar (c : Char) : List Char :=
  if c.toNat = 0x130 then ['i', Char.ofNat 0x307] else [Char.ofNat (lowerCode c.toNat)]

/-- The character is looked through when a cased letter is searched. -/
def isCaseIgnorable (c : Char) : Bool := inSpans ignorableSpans c.toNat

/-- The character has a letter case. -/
def isCased (c : Char) : Bool := inSpans casedSpans c.toNat

/-! ## 2. A whole text -/

/-- The first character that is not looked through is cased. -/
def meetsCased (cs : List Char) : Bool :=
  match cs.dropWhile isCaseIgnorable with
  | c :: _ => isCased c
  | [] => false

/-- The capital sigma. -/
def capitalSigma : Char := Char.ofNat 0x3A3

/-- A capital sigma in lower case, from the text before it (nearest first) and after it. -/
def lowerSigma (before after : List Char) : Char :=
  if meetsCased before && !meetsCased after then Char.ofNat 0x3C2 else Char.ofNat 0x3C3

/-- Lower-cases the rest of a text; `before` is what precedes it, nearest character first. -/
def lowerAfter (before : List Char) : List Char → List Char
  | [] => []
  | c :: rest =>
    (if c = capitalSigma then [lowerSigma before rest] else lowerChar c)
      ++ lowerAfter (c :: before) rest

/-- **A text in lower case**, character list form. -/
def lowerChars (cs : List Char) : List Char := lowerAfter [] cs

/-- **A text in lower case.** -/
def lower (s : String) : String := String.ofList (lowerChars s.toList)

/-! ## 3. Letters of ASCII only -/

/-- The text with the capital letters of ASCII made small, and nothing else changed. -/
def lowerAscii (s : String) : String := String.ofList (s.toList.map Char.toLower)

/-- The two texts are the same up to the case of the letters of ASCII. -/
def sameAscii (a b : String) : Bool := lowerAscii a == lowerAscii b

theorem sameAscii_refl (a : String) : sameAscii a a = true := by simp [sameAscii]

theorem sameAscii_comm (a b : String) : sameAscii a b = sameAscii b a := by
  simp only [sameAscii, Bool.beq_comm]

end Folio.Text
