/-
# Operations that fail

An operation on a context takes several steps, and while it waits for the store anything may happen
to its context.  If it fails in the end, then none of its own steps has changed anything.

The steps before the last one are those after which the process has gone on, so the law is shown
along the course of the process (`Course.spares`).
-/
import Folio.Proofs.Session.Results
import Folio.Proofs.Traffic.Course

namespace Folio

/-- **All steps of an operation that is under way have left everything as it was.** -/
theorem Course.spares {n : Nat} {h : List Event} {o : Option Errand} (course : Course n h o) :
    ∀ t ∈ o, t.process.operates = true → ∀ q given s, .stepped n q given s ∈ h →
      q.Spares s (q.resume s given).1 := by
  induction course with
  | enters fresh =>
    intro t ht operates q given s stepped
    cases stepped
  | carries before done ih =>
    rintro _ ⟨⟩ operates q given s stepped
    exact ih _ rfl operates q given s (by simpa using stepped)
  | answers reply before ih =>
    rintro _ ⟨⟩ operates q given s stepped
    exact ih _ rfl operates q given s (by simpa using stepped)
  | @goes h t oracle answer before ready s ih =>
    intro u hu operates q given s' stepped
    obtain ⟨-, led, -⟩ := Errand.of_mem_next? hu
    obtain ⟨operated, spared⟩ := Process.spares_of_goesOn operates led
    rcases List.mem_append.mp stepped with earlier | last
    · exact ih t rfl operated q given s' earlier
    · cases List.mem_singleton.mp last
      exact spared

namespace Traffic

/-- **Operations that fail change nothing.**  In every run, with whatever store and whatever else
happens in between, whoever waits for an operation on a context is told the result with which it
ends.  If that is an error, no step of the operation has changed a path, metadata, a phase, a model
or its flags, or announced anything, except that the first load or save marks its context as failed
if it is still loading, unless it breaks off (`ContextError.breaksOff`).

An attempt to save looks at the file, reloads it and saves it by such operations; a step that ends
none of them changes nothing either. -/
theorem failed_operations_change_nothing (session : Session) (store : MemoryStore)
    (moves : List Move) {n : Nat} {p : Process} {answer : p.need.Answer} {s : Session}
    {a b : List Event}
    (log : ((start session store).run moves).log = a ++ .stepped n p answer s :: b) :
    (∀ result, (p.resume s answer).2 = .inr (.context result) →
      ∃ c, p.ended s answer = some (c, result)) ∧
    (p.operates = true → p.ended s answer = none → p.Spares s (p.resume s answer).1) ∧
    ∀ c e, p.ended s answer = some (c, .error e) →
      p.Spares (s.afterFailure p.isFirst c e) (p.resume s answer).1 ∧
        ∀ q given t, .stepped n q given t ∈ a → q.Spares t (q.resume t given).1 := by
  refine ⟨fun result => Process.ended_of_outcome, fun operates ends =>
    Process.spares_of_unended operates ends, fun c e fails => ?_⟩
  refine ⟨Process.spares_of_error fails, fun q given t stepped => ?_⟩
  obtain ⟨reply, oracle, course, -⟩ := course_of_log log
  have its_own : .stepped n q given t ∈ own n a :=
    List.mem_filter.mpr ⟨stepped, by simp [Event.number?]⟩
  exact course.spares _ rfl (Process.operates_of_ended fails) q given t its_own

/-- A store with one text and a checkpoint of it. -/
def checkpointed : MemoryStore :=
  ((({} : MemoryStore).write "a" (.text "one")).1.createCheckpoint "a").1

/-- The checkpoint is restored, and the text is about to be reloaded.  Meanwhile others write bytes
to the file, and the text is edited. -/
def restoresBytes : List Move :=
  [.deed (.newContext "a" "text" "file" .text), .enter (.operation 0 (.restoreCheckpoint "cp0"))] ++
    goes 0 1 ++ .carryOut 0 :: goes 0 1 ++
    [.others (checkpointed.write "a" (.base64 "AA==")).1, .carryOut 0,
      .deed (.setModel 0 ⟨.text "mine", true, false⟩)]

/-- The checkpoint is restored, but the reload fails; none of the three steps has touched the text.
-/
theorem failed_operations_change_nothing_restoresBytes :
    let x := (start (.create {}) checkpointed).run restoresBytes
    let p := Process.calling 0 (.reverting "a" false)
    let reply := .ok ⟨"a", ⟨2, 4⟩, true, some (.base64 "AA==")⟩
    ((start (.create {}) checkpointed).run (restoresBytes ++ [.go 0 .obliging])).log =
        x.log ++ .stepped 0 p reply x.session :: [] ∧
      p.ended x.session reply = some (0, .error (.model (.formatMismatch .text .base64))) ∧
      (p.resume x.session reply).1 = x.session ∧
      (x.session.context 0).model = ⟨.text "mine", true, false⟩ ∧
      ∀ q given t, .stepped 0 q given t ∈ x.log → (q.resume t given).1.contexts = t.contexts := by
  intro x p reply
  have log : ((start (.create {}) checkpointed).run (restoresBytes ++ [.go 0 .obliging])).log =
      x.log ++ .stepped 0 p reply x.session :: [] := rfl
  have fails :
      p.ended x.session reply = some (0, .error (.model (.formatMismatch .text .base64))) := rfl
  obtain ⟨-, -, spares⟩ := failed_operations_change_nothing (.create {}) checkpointed _ log
  obtain ⟨last, earlier⟩ := spares _ _ fails
  exact ⟨log, fails, last.session rfl, rfl, fun q given t stepped =>
    (earlier q given t stepped).contexts⟩

end Traffic

end Folio
