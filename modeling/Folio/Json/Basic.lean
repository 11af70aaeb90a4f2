/-
# JSON values

The value that a JSON text stands for.  Integers of sixty-four bits, signed or unsigned, are kept
exactly; every other number is a double, held by its bits so that two values can be told apart.

The members of an object that was read are sorted by key, and no key occurs twice; objects that
are only written keep the order in which their members are listed.
-/

namespace Folio

/-- **A number of a JSON value.** -/
inductive Json.Number where
  /-- An integer between `-2^63` and `2^64 - 1`. -/
  | integer (value : Int)
  /-- A finite double, by its bits. -/
  | double (bits : UInt64)
  deriving DecidableEq, Repr

/-- **A JSON value.** -/
inductive Json where
  | null
  | bool (value : Bool)
  | number (value : Json.Number)
  | string (value : String)
  | array (items : List Json)
  | object (members : List (String × Json))
  deriving Inhabited

namespace Json

/-- The least integer that is kept exactly, `-2^63`. -/
def leastInteger : Int := -9223372036854775808

/-- The greatest signed integer of sixty-four bits, `2^63 - 1`. -/
def greatestSigned : Int := 9223372036854775807

/-- The greatest integer that is kept exactly, `2^64 - 1`. -/
def greatestInteger : Int := 18446744073709551615

/-- Puts a member into a list that is sorted by key; a member of the same key is replaced. -/
def putMember (key : String) (value : Json) : List (String × Json) → List (String × Json)
  | [] => [(key, value)]
  | (k, v) :: rest =>
    if key < k then (key, value) :: (k, v) :: rest
    else if key = k then (key, value) :: rest
    else (k, v) :: putMember key value rest

/-- Sorts members by key; of several with one key the last is kept. -/
def sortMembers (members : List (String × Json)) : List (String × Json) :=
  members.foldl (fun sorted m => putMember m.1 m.2 sorted) []

/-- An integer as a value. -/
def ofInt (i : Int) : Json := .number (.integer i)

/-- A natural number as a value. -/
def ofNat (n : Nat) : Json := ofInt n

/-- A list of texts as a value. -/
def ofStrings (ss : List String) : Json := .array (ss.map .string)

/-- A value that may be missing; `null` stands for none. -/
def ofOption {α : Type} (f : α → Json) : Option α → Json
  | some a => f a
  | none => .null

end Json

end Folio
