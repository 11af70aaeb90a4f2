/-
# Channels

A journal together with its receivers.  Receivers are numbered in the order in which they subscribe;
one that is dropped keeps its number.  When the sending side is closed, a receiver still gets what
was emitted before, and then learns that nothing more will come.
-/
import Folio.Journal.Basic

namespace Folio

/-- **A journal and the places of its receivers**, none for a receiver that was dropped. -/
structure Channel (α : Type) where
  journal : Journal α
  closed : Bool := false
  places : List (Option Nat) := []
  deriving Repr

/-- **What a receiver of a channel gets.** -/
inductive Delivery (α : Type) where
  | value (a : α)
  /-- So many values were lost. -/
  | lagged (count : Nat)
  /-- Nothing was emitted since. -/
  | empty
  /-- Nothing more will come. -/
  | closed
  deriving Repr, DecidableEq

namespace Channel

variable {α : Type}

/-- What a receiver gets from the journal, seen through the channel. -/
def deliver (c : Channel α) : Received α → Delivery α
  | .value a => .value a
  | .lagged count => .lagged count
  | .empty => if c.closed then .closed else .empty

/-- Adds a receiver of all that is emitted from now on, and gives its number. -/
def subscribe (c : Channel α) : Channel α × Nat :=
  ({ c with places := c.places ++ [some c.journal.count] }, c.places.length)

/-- Emits values. -/
def emitAll (c : Channel α) (as : List α) : Channel α := { c with journal := c.journal.emitAll as }

/-- Closes the sending side. -/
def close (c : Channel α) : Channel α := { c with closed := true }

/-- The place of a receiver that was not dropped. -/
def place? (c : Channel α) (rx : Nat) : Option Nat := (c.places[rx]?).join

/-- Drops a receiver. -/
def dropReceiver (c : Channel α) (rx : Nat) : Channel α := { c with places := c.places.set rx none }

/-- **One attempt of a receiver** to get something. -/
def receive (c : Channel α) (rx place : Nat) : Channel α × Delivery α :=
  let (r, next) := c.journal.receive place
  ({ c with places := c.places.set rx (some next) }, c.deliver r)

/-- **Everything that a receiver can get**, up to and including that there is nothing more. -/
def receiveAll (c : Channel α) (rx place : Nat) : Channel α × List (Delivery α) :=
  ({ c with places := c.places.set rx (some c.journal.count) },
    (c.journal.receiveAll place ++ [Received.empty]).map c.deliver)

/-- The number of receivers, which nobody can know once the sending side is closed. -/
def subscriberCount? (c : Channel α) : Option Nat :=
  if c.closed then none else some (c.places.filter Option.isSome).length

end Channel

end Folio
