/-
# Receiving without loss

A receiver that is not further behind than the journal keeps values gets all of them, one after the
other, and learns of no loss.
-/
import Folio.Journal.Basic

namespace Folio

namespace Journal

variable {α : Type}

/-- **At a place that is kept**, the next value is received, if there is one. -/
theorem receive_of_kept {j : Journal α} {place : Nat} (kept : j.count ≤ place + j.capacity) :
    j.receive place =
      match j.entries.toList[place]? with
      | some a => (.value a, place + 1)
      | none => (.empty, place) := by
  have inTime : ¬place + j.capacity < j.count := Nat.not_lt.mpr kept
  cases here : j.entries[place]? <;> simp [receive, inTime, here]

/-- At a place that is kept, everything from there on is received. -/
theorem receiveMost_of_kept (j : Journal α) (fuel : Nat) : ∀ place : Nat,
    place + fuel = j.count → j.count ≤ place + j.capacity →
      j.receiveMost fuel place = (j.entries.toList.drop place).map .value := by
  induction fuel with
  | zero =>
    intro place whole _
    have past : j.entries.toList.length ≤ place := by
      rw [Array.length_toList]
      exact Nat.le_of_eq whole.symm
    simp [receiveMost, List.drop_eq_nil_of_le past]
  | succ fuel ih =>
    intro place whole kept
    have within : place < j.entries.toList.length := by
      rw [Array.length_toList]
      change place < j.count
      omega
    have next : j.receive place = (.value j.entries.toList[place], place + 1) := by
      rw [receive_of_kept kept, List.getElem?_eq_getElem within]
    simp only [receiveMost, next]
    rw [ih (place + 1) (by omega) (by omega), List.drop_eq_getElem_cons within, List.map_cons]

theorem receiveAll_of_kept {j : Journal α} {place : Nat} (within : place ≤ j.count)
    (kept : j.count ≤ place + j.capacity) :
    j.receiveAll place = (j.entries.toList.drop place).map .value :=
  j.receiveMost_of_kept _ place (by omega) kept

/-- A receiver that has lost something is told so first. -/
theorem receiveAll_of_lost {j : Journal α} {place : Nat} (lost : place + j.capacity < j.count) :
    ∃ (n : Nat) (rest : List (Received α)), j.receiveAll place = .lagged n :: rest := by
  obtain ⟨fuel, more⟩ : ∃ fuel, j.count - place = fuel + 1 := ⟨j.count - place - 1, by omega⟩
  refine ⟨j.count - j.capacity - place, j.receiveMost fuel (j.count - j.capacity), ?_⟩
  simp [receiveAll, more, receiveMost, receive, lost]

end Journal

end Folio
