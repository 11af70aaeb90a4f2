/-
# Journals

A journal hands every value that is emitted to every receiver.  It holds all values ever emitted,
oldest first, and a receiver is a place in it: the number of values that it has received or missed.

Of the values only the last `capacity` can still be received.  A receiver that has fallen
further behind is told once how many values it has lost, and goes on with the oldest one that is
kept.
-/

namespace Folio

/-- **A journal** of all that was emitted.  `capacity` is the number of values that are kept for
receivers. -/
structure Journal (α : Type) where
  capacity : Nat
  entries : Array α := #[]
  deriving Repr

/-- **What a receiver gets** when it asks. -/
inductive Received (α : Type) where
  /-- The next value. -/
  | value (a : α)
  /-- So many values were lost. -/
  | lagged (count : Nat)
  /-- Nothing was emitted since. -/
  | empty
  deriving Repr, DecidableEq

/-- **Why a journal cannot be made.** -/
inductive JournalError where
  /-- No value at all could be kept. -/
  | zeroCapacity
  /-- There is no power of two of sixty-four bits to round the capacity up to. -/
  | excessiveCapacity
  /-- The values kept would take more memory than can be addressed. -/
  | unaddressable
  deriving DecidableEq, Repr

/-- The text of the error. -/
def JournalError.message : JournalError → String
  | .zeroCapacity => "broadcast channel capacity cannot be zero"
  | .excessiveCapacity => "broadcast channel capacity exceeded `usize::MAX / 2`"
  | .unaddressable => "capacity overflow"

namespace Journal

variable {α : Type}

/-- The least power of two that is not below a number, found by doubling at most `fuel` times. -/
def doubleUpTo (n : Nat) : Nat → Nat → Nat
  | 0, power => power
  | fuel + 1, power => if n ≤ power then power else doubleUpTo n fuel (2 * power)

/-- The number of values that a journal of a wanted capacity keeps: the next power of two. -/
def roundedCapacity (wanted : Nat) : Nat := doubleUpTo wanted wanted 1

/-- The largest number of a signed word of sixty-four bits, `2^63 - 1`.  It bounds the capacity that
can be wanted as well as the bytes that can be addressed. -/
def largestWord : Nat := 9223372036854775807

/-- The bytes that one kept value takes. -/
def slotBytes : Nat := 56

/-- **A fresh journal** of a wanted capacity, which must be neither zero nor too large. -/
def withCapacity (wanted : Nat) : Except JournalError (Journal α) :=
  if wanted = 0 then .error .zeroCapacity
  else if largestWord < wanted then .error .excessiveCapacity
  else if largestWord < slotBytes * roundedCapacity wanted then .error .unaddressable
  else .ok { capacity := roundedCapacity wanted }

/-- The number of values that a journal keeps unless it is told otherwise. -/
def defaultCapacity : Nat := 64

/-- A fresh journal of the usual capacity. -/
def create : Journal α := { capacity := defaultCapacity }

/-- The number of values emitted so far; a new receiver starts here. -/
def count (j : Journal α) : Nat := j.entries.size

/-- **Emits a value.** -/
def emit (j : Journal α) (a : α) : Journal α := { j with entries := j.entries.push a }

/-- Emits several values. -/
def emitAll (j : Journal α) (as : List α) : Journal α := as.foldl emit j

/-- **One attempt to receive** at a place: what is received, and the place afterwards. -/
def receive (j : Journal α) (place : Nat) : Received α × Nat :=
  if place + j.capacity < j.count then
    (.lagged (j.count - j.capacity - place), j.count - j.capacity)
  else
    match j.entries[place]? with
    | some a => (.value a, place + 1)
    | none => (.empty, place)

/-- Something can be received at a place. -/
def hasNews (j : Journal α) (place : Nat) : Bool := place < j.count

/-- Everything that can be received from a place, at most `fuel` pieces. -/
def receiveMost (j : Journal α) : Nat → Nat → List (Received α)
  | 0, _ => []
  | fuel + 1, place =>
    match j.receive place with
    | (.empty, _) => []
    | (r, next) => r :: receiveMost j fuel next

/-- **Everything that can be received from a place**; the place afterwards is the count. -/
def receiveAll (j : Journal α) (place : Nat) : List (Received α) :=
  j.receiveMost (j.count - place) place

end Journal

end Folio
