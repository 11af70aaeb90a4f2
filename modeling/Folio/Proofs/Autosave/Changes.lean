/-
# What becomes of a coordinator

A coordinator is made, started, stopped and set, and its attempts open and close the conflict dialog
and let the interval adapt to their saves (`Coordinator.Change`).  Nothing else becomes of it in any
step, but for what its own loop does when it wakes up: it takes the wish to set the timer anew, or
ends with the context (`Process.changes`).

So what is shown of a coordinator is shown change by change.
-/
import Folio.Proofs.Autosave.Steps
import Folio.Proofs.Session.Edits

namespace Folio

namespace Coordinator

/-! ## 1. Changes -/

/-- **One change to a coordinator**, other than by its loop. -/
inductive Change (c : Coordinator) : Coordinator → Prop
  | made (context : ContextId) (interval : Duration) (unmade : c = default) :
      Change c (.create context interval)
  | start {closed : Bool} {d : Coordinator} {number : Nat}
      (started : c.start closed = (d, some number)) : Change c d
  | stop : Change c c.stop
  | setInterval (interval : Duration) : Change c (c.setInterval interval)
  | openConflict : Change c c.openConflict
  | closeConflict : Change c c.closeConflict
  | recalibrate (took : Duration) : Change c (c.recalibrate took)

/-- **Changes**, one after the other. -/
def Changes : Coordinator → Coordinator → Prop := Relation.ReflTransGen Change

namespace Changes

variable {c d e : Coordinator}

theorem refl (c : Coordinator) : c.Changes c := Relation.ReflTransGen.refl

theorem trans (h : c.Changes d) (h' : d.Changes e) : c.Changes e := Relation.ReflTransGen.trans h h'

theorem one (h : c.Change d) : c.Changes d := Relation.ReflTransGen.single h

/-- **What every change keeps, changes keep.** -/
theorem keeps {P : Coordinator → Prop} (h : ∀ {c d}, Change c d → P c → P d)
    (changes : c.Changes d) (hc : P c) : P d := by
  induction changes with
  | refl => exact hc
  | tail _ change ih => exact h change ih

/-- **What every change does, and is done one after the other**, changes do. -/
theorem related {R : Coordinator → Coordinator → Prop} (refl : ∀ c, R c c)
    (trans : ∀ {c d e}, R c d → R d e → R c e) (h : ∀ {c d}, Change c d → R c d)
    (changes : c.Changes d) : R c d :=
  changes.keeps (P := R c) (fun change before => trans before (h change)) (refl c)

/-- **What a step of an attempt does to its coordinator.** -/
theorem attempt (s : Attempt.Scene) : (a : Attempt) → (answer : a.need.Answer) →
    s.coordinator.Changes (Attempt.resume s a answer).1.coordinator
  | .due, () => by
    rw [show (Attempt.resume s .due ()).1.coordinator = s.coordinator from ?_]
    · exact .refl _
    · simp only [Attempt.resume, Attempt.begin, Attempt.beginSave]
      split
      · rfl
      · split
        · split <;> rfl
        · rfl
  | .checking path, reply => by
    simp only [Attempt.resume, Attempt.afterCheck, Attempt.beginSave]
    split
    · split <;> exact .refl _
    · split
      · split <;> exact .refl _
      · split
        · exact .refl _
        · exact .one .openConflict
  | .asking prompt, answer => by
    simp only [Attempt.resume, Attempt.afterAnswer, Attempt.beginSave]
    cases answer with
    | cancel => exact .one .closeConflict
    | overwrite => simp only; split <;> exact .one .closeConflict
    | revert => simp only; split <;> [exact .one .closeConflict; exact .refl _]
  | .reverting _, _ => .one .closeConflict
  | .saving since _ _, reply => by
    cases reply with
    | error e => exact .refl _
    | ok metadata => exact .one (.recalibrate _)

end Changes

end Coordinator

/-! ## 2. Coordinators of a session -/

namespace Session

variable {s t u : Session} (k : CoordinatorId)

/-- Replacing a coordinator by one that it can become changes no other. -/
theorem coordinator_setCoordinator_related {R : Coordinator → Coordinator → Prop}
    (refl : ∀ c, R c c) {j : CoordinatorId} {coordinator : Coordinator}
    (h : R (s.coordinator j) coordinator) :
    R (s.coordinator k) ((s.setCoordinator j coordinator).coordinator k) := by
  by_cases same : k = j
  · subst same
    by_cases made : k < s.coordinators.length
    · rwa [coordinator_setCoordinator coordinator made]
    · have unmade : (s.setCoordinator k coordinator).coordinator k = s.coordinator k := by
        rw [setCoordinator, Session.coordinator, List.set_eq_of_length_le (Nat.le_of_not_lt made)]
        rfl
      rw [unmade]
      exact refl _
  · rw [coordinator_setCoordinator_of_ne coordinator same]
    exact refl _

/-- **What a session makes of a coordinator.** -/
def ChangesCoordinator (s t : Session) : Prop := (s.coordinator k).Changes (t.coordinator k)

namespace ChangesCoordinator

variable {k} in
theorem trans (h : ChangesCoordinator k s t) (h' : ChangesCoordinator k t u) :
    ChangesCoordinator k s u := Coordinator.Changes.trans h h'

theorem of_eq (coordinators : t.coordinators = s.coordinators) : ChangesCoordinator k s t := by
  rw [ChangesCoordinator, coordinator, coordinator, coordinators]
  exact .refl _

theorem setCoordinator {j : CoordinatorId} {coordinator : Coordinator}
    (h : (s.coordinator j).Changes coordinator) :
    ChangesCoordinator k s (s.setCoordinator j coordinator) :=
  coordinator_setCoordinator_related k Coordinator.Changes.refl h

theorem addCoordinator (s : Session) (context : ContextId) (interval : Duration) :
    ChangesCoordinator k s (s.addCoordinator (.create context interval)).1 := by
  rw [ChangesCoordinator]
  rcases Nat.lt_trichotomy k s.coordinators.length with before | rfl | beyond
  · rw [coordinator_addCoordinator_of_lt _ before]
    exact .refl _
  · rw [coordinator_addCoordinator, Session.coordinator, List.getElem?_eq_none (Nat.le_refl _)]
    exact .one (.made context interval rfl)
  · have more : (s.addCoordinator (.create context interval)).1.coordinators.length ≤ k := by
      rw [Session.addCoordinator, List.length_append, List.length_singleton]
      exact beyond
    rw [coordinator, coordinator, List.getElem?_eq_none (Nat.le_of_lt beyond),
      List.getElem?_eq_none more]
    exact .refl _

theorem startCoordinator (s : Session) (j : CoordinatorId) :
    ChangesCoordinator k s (s.startCoordinator j) := by
  unfold Session.startCoordinator
  simp only
  split
  · exact .refl _
  · next new number started => exact setCoordinator (s := s) k (.one (.start started))

theorem edit (h : s.Edit t) : ChangesCoordinator k s t := by
  cases h with
  | newTracked path factory isNew => exact addCoordinator k (s.addContext _).1 _ _
  | startCoordinator j => exact startCoordinator k s j
  | stopCoordinator j => exact setCoordinator k (.one .stop)
  | setCoordinatorInterval j interval => exact setCoordinator k (.one (.setInterval interval))
  | retireWidget w => cases w <;> exact of_eq k rfl
  | _ => exact of_eq k rfl

/-- **What the host makes of a coordinator.** -/
theorem deed (s : Session) (d : Deed) : ChangesCoordinator k s (d.apply s) := by
  cases d with
  | newCoordinator c interval => exact addCoordinator k s c interval
  | startCoordinator j => exact startCoordinator k s j
  | stopCoordinator j => exact setCoordinator k (.one .stop)
  | setInterval j interval => exact setCoordinator k (.one (.setInterval interval))
  | disposeWidget w => cases w <;> exact of_eq k rfl
  | _ => exact of_eq k rfl

end ChangesCoordinator

end Session

/-! ## 3. Processes -/

/-- **What becomes of a coordinator in a step of a process.**  Its own loop takes the wish to set
the timer anew, or ends. -/
theorem Process.changes (s : Session) (p : Process) (answer : p.need.Answer) (k : CoordinatorId) :
    Session.ChangesCoordinator k s (p.resume s answer).1 ∨
      ∃ number place c interval, p = .ticking k number place c interval ∧
        (s.coordinator k).runs number = true ∧
        (((p.resume s answer).1.coordinator k) = (s.coordinator k).takeReschedule ∨
          ((p.resume s answer).1.coordinator k) = (s.coordinator k).endLoop) := by
  by_cases conducts : ∃ stage, p = .manager stage
  · obtain ⟨stage, rfl⟩ := conducts
    refine .inl ?_
    have changes : Session.ChangesCoordinator k s (stage.resume s answer).1 :=
      (Session.Edits.stage s stage answer).keeps (P := Session.ChangesCoordinator k s)
        (fun edit before => before.trans (.edit k edit)) (.refl _)
    simp only [resume]
    split <;> (next h => rw [h] at changes; exact changes)
  · have makes := p.makes s answer (not_exists.mp conducts)
    generalize (p.resume s answer).1 = t at makes ⊢
    have own {j : CoordinatorId} {number : Nat} {d : Coordinator}
        (runs : (s.coordinator j).runs number = true) (same : k = j) :
        (s.setCoordinator j d).coordinator k = d := by
      subst same
      exact Session.coordinator_setCoordinator d (Session.made_of_runs runs)
    have other {j : CoordinatorId} {d : Coordinator} (apart : k ≠ j) :
        Session.ChangesCoordinator k s (s.setCoordinator j d) := by
      rw [Session.ChangesCoordinator, Session.coordinator_setCoordinator_of_ne d apart]
      exact .refl _
    cases makes with
    | nothing => exact .inl (.refl _)
    | called c call reply => exact .inl (.of_eq k rfl)
    | loads j call reply => exact .inl (.of_eq k rfl)
    | starts j call reply =>
      have loaded (c : ContextId) (context : Context) :
          Session.ChangesCoordinator k s (s.setContext c context) := .of_eq k rfl
      exact .inl ((loaded _ _).trans (.startCoordinator k _ j))
    | fires runs => exact .inl (.of_eq k rfl)
    | @reschedules j number place c interval runs =>
      by_cases same : k = j
      · refine .inr ⟨number, place, c, interval, ?_, same ▸ runs, .inl ?_⟩
        · rw [same]
        · rw [own runs same, same]
      · exact .inl (other same)
    | @ends j number place c interval runs =>
      by_cases same : k = j
      · refine .inr ⟨number, place, c, interval, ?_, same ▸ runs, .inr ?_⟩
        · rw [same]
        · rw [own runs same, same]
      · exact .inl (other same)
    | acts j a given =>
      have context (c : ContextId) (context : Context) :
          Session.ChangesCoordinator k s (s.setContext c context) := .of_eq k rfl
      have acted := Coordinator.Changes.attempt (s.scene j) a given
      exact .inl ((context _ _).trans (.setCoordinator k acted))

end Folio
