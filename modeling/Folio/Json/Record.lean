/-
# Reading records from a JSON text

A record is written as an object with its fields as members, in any order and with anything else
between them, or as an array of its fields in their own order.  `fields?` finds the texts of the
fields, and three functions say what a field may be: it must be there, it may be missing, or it
has a value for the case that it is missing.

A reader takes the number of brackets that may still be opened.  What no field asks for is never
looked at beyond its syntax, so brackets there do not count.
-/
import Folio.Json.Reader

namespace Folio.Json

/-- **A reader** of values of a type: the room for brackets, the text, and the value if the text
is one. -/
abbrev Reads (α : Type) : Type := Nat → Term → Option α

/-! ## 1. Plain values -/

/-- Reads a text. -/
def readString : Reads String
  | _, .string s => s
  | _, _ => none

/-- Reads a truth value. -/
def readBool : Reads Bool
  | _, .bool b => some b
  | _, _ => none

/-- Reads an integer within bounds that is written as one. -/
def readIntBetween (least greatest : Int) : Reads Int
  | _, .number l =>
    match l.value? with
    | some (.integer i) => if least ≤ i ∧ i ≤ greatest then some i else none
    | _ => none
  | _, _ => none

/-- Reads a signed integer of sixty-four bits. -/
def readInt : Reads Int := readIntBetween leastInteger greatestSigned

/-- Reads an unsigned integer of sixty-four bits. -/
def readNat : Reads Nat := fun room t => (readIntBetween 0 greatestInteger room t).map Int.toNat

/-- Reads a list. -/
def readList {α : Type} (item : Reads α) : Reads (List α)
  | room + 1, .array items => items.mapM (item room)
  | _, _ => none

/-- Reads a value, or `null` for none. -/
def readOption {α : Type} (item : Reads α) : Reads (Option α)
  | _, .null => some none
  | room, t => (item room t).map some

/-- Reads one of several names, written as a text. -/
def readPlainName {α : Type} (names : List (String × α)) : Reads α
  | _, .string (some s) => names.lookup s
  | _, _ => none

/-- Reads one of several names, written as a text or as the only key of an object whose value is
`null`. -/
def readName {α : Type} (names : List (String × α)) : Reads α
  | _ + 1, .object [(some s, .null)] => names.lookup s
  | room, t => readPlainName names room t

/-! ## 2. Records -/

/-- The value of a key that occurs at most once; fails if it occurs twice. -/
def only? (key : String) (members : List (String × Term)) : Option (Option Term) :=
  match members.filter (·.1 == key) with
  | [] => some none
  | [m] => some (some m.2)
  | _ => none

/-- **The texts of a record's fields**, in the order of their names, and the room for brackets in
them.  A known key that occurs twice is refused, and so is an array with more items than there
are fields. -/
def fields? (names : List String) : Nat → Term → Option (Nat × List (Option Term))
  | room + 1, .array items =>
    if items.length ≤ names.length then
      some (room, items.map some ++ List.replicate (names.length - items.length) none)
    else none
  | room + 1, .object members => do
    let members ← members.mapM fun m => m.1.map (·, m.2)
    let found ← names.mapM fun name => only? name members
    pure (room, found)
  | _, _ => none

/-- A field that must be there. -/
def required {α : Type} (item : Reads α) (room : Nat) : Option Term → Option α
  | some t => item room t
  | none => none

/-- A field that may be missing or `null`. -/
def optional {α : Type} (item : Reads α) (room : Nat) : Option Term → Option (Option α)
  | some t => readOption item room t
  | none => some none

/-- A field with a value for the case that it is missing. -/
def withDefault {α : Type} (default : α) (item : Reads α) (room : Nat) : Option Term → Option α
  | some t => item room t
  | none => some default

/-- **Reads a whole text** as a value of a type. -/
def readText? {α : Type} (item : Reads α) (text : String) : Option α :=
  Term.read? text >>= item greatestDepth

end Folio.Json
