/-
# Calls of the manager in traffic

A call of the manager is a process, and it begins with the step in which it is called.  From there
on it is at the stages of its own kind, to which `Stage.goesOn` leads (`Course.among`); so what is
known of an event of a call includes the stage that the call was at.
-/
import Folio.Proofs.Manager.Protocol
import Folio.Proofs.Traffic.Course

namespace Folio

/-- How a call goes on, by the stage that it is at. -/
theorem Stage.next_of_mem {n : Nat} {stage q : Stage} {answer : stage.need.Answer} {s : Session}
    {u : Errand} (hu : u ∈ Errand.next? n ((Process.manager stage).resume s answer).2)
    (hq : u.process = .manager q) : (stage.resume s answer).2 = .inl q :=
  Process.resume_manager_inl.mp ((Errand.of_mem_next? hu).2.1.trans (by rw [hq]))

/-- **The process of a number has begun this call of the manager.** -/
def Began (n : Nat) (op : ManagerOp) (log : List Event) : Prop :=
  ∃ s, .stepped n (.manager (.called op)) () s ∈ log

theorem Began.own {n : Nat} {op : ManagerOp} {log : List Event} (h : Began n op log) :
    Began n op (own n log) := by
  obtain ⟨s, hs⟩ := h
  exact ⟨s, stepped_mem_own hs⟩

section Among

-- a kind of stages that is not left, and a call that begins with one of them
variable {kind : Stage → Prop} (kept : ∀ {p q : Stage}, kind p → p.goesOn q → kind q)
  {op : ManagerOp} (entry : kind (.called op))

include kept entry

/-- **A call that has begun is at a stage of its kind.** -/
theorem Course.among {n : Nat} {h : List Event} {o : Option Errand} (course : Course n h o)
    (began : Began n op h) : ∀ t ∈ o, ∃ stage, t.process = .manager stage ∧ kind stage := by
  induction course with
  | enters fresh =>
    obtain ⟨s, hs⟩ := began
    cases hs
  | @carries h t store store' reply before done ih =>
    obtain ⟨s, hs⟩ := began
    have earlier : Event.stepped n (.manager (.called op)) () s ∈ h := by simpa using hs
    rintro _ ⟨⟩
    exact ih ⟨s, earlier⟩ t rfl
  | @answers h t reply before ih =>
    obtain ⟨s, hs⟩ := began
    have earlier : Event.stepped n (.manager (.called op)) () s ∈ h := by simpa using hs
    rintro _ ⟨⟩
    exact ih ⟨s, earlier⟩ t rfl
  | @goes h t oracle answer before ready s ih =>
    have here : ∃ stage, t.process = .manager stage ∧ kind stage := by
      obtain ⟨s', hs'⟩ := began
      rcases List.mem_append.mp hs' with hs' | hs'
      · exact ih ⟨s', hs'⟩ t rfl
      · have same := List.mem_singleton.mp hs'
        simp only [Event.stepped.injEq] at same
        exact ⟨_, same.2.1.symm, entry⟩
    obtain ⟨stage, hp, isKind⟩ := here
    obtain ⟨number, process, reply⟩ := t
    obtain rfl : process = _ := hp
    intro u hu
    obtain ⟨q, hq⟩ := Process.exists_stage_of_resume (Errand.of_mem_next? hu).2.1
    exact ⟨q, hq, kept isKind (Stage.goesOn_of_resume (Stage.next_of_mem hu hq))⟩

/-- A logged step of a call that has begun is at a stage of its kind. -/
theorem Traffic.among_of_log {session : Session} {store : MemoryStore} {moves : List Move}
    {n : Nat} {p : Process} {answer : p.need.Answer} {s : Session} {a b : List Event}
    (log : ((start session store).run moves).log = a ++ .stepped n p answer s :: b)
    (began : Began n op a) : ∃ stage, p = .manager stage ∧ kind stage := by
  obtain ⟨reply, oracle, course, -⟩ := course_of_log log
  exact course.among kept entry began.own ⟨n, p, reply⟩ rfl

end Among

end Folio
