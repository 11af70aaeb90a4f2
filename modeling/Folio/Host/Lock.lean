/-
# Fair locks

A lock that several may hold together, or one alone, and that is granted strictly in the order in
which it was asked for: nobody gets it while another waits for it longer.
-/
import Folio.Session.Need

namespace Folio.Host

/-- **A lock**: who holds it, and who waits for it, longest first.  Holders are told apart by
numbers. -/
structure Lock where
  holders : List (Nat × Access) := []
  queue : List (Nat × Access) := []
  deriving Repr

namespace Lock

/-- Access can be granted beside those who hold the lock. -/
def admits (holders : List (Nat × Access)) : Access → Bool
  | .exclusive => holders.isEmpty
  | .shared => holders.all (·.2 == .shared)

/-- **Grants the lock from the front of the queue** as far as possible. -/
def grant (holders : List (Nat × Access)) : List (Nat × Access) → Lock
  | [] => ⟨holders, []⟩
  | (id, access) :: rest =>
    if admits holders access then grant (holders ++ [(id, access)]) rest
    else ⟨holders, (id, access) :: rest⟩

/-- Asks for the lock, behind all who wait already. -/
def request (l : Lock) (id : Nat) (access : Access) : Lock :=
  grant l.holders (l.queue ++ [(id, access)])

/-- Gives the lock back. -/
def release (l : Lock) (id : Nat) : Lock :=
  grant (l.holders.filter (·.1 != id)) l.queue

/-- The lock is held by the number. -/
def isHeldBy (l : Lock) (id : Nat) : Bool := l.holders.any (·.1 == id)

/-- Whoever holds the lock keeps it when others are granted it too. -/
theorem mem_holders_grant {holder : Nat × Access} : ∀ (queue holders : List (Nat × Access)),
    holder ∈ holders → holder ∈ (grant holders queue).holders
  | [], holders, h => h
  | (id, access) :: rest, holders, h => by
    unfold grant
    split
    · exact mem_holders_grant rest _ (List.mem_append_left _ h)
    · exact h

end Lock

end Folio.Host
