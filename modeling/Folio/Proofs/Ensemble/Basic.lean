/-
# A session and the processes that run in it

An ensemble is a session with the processes that run in it.  Three kinds of moves change it: the
host does something to the session at one instant, a new process enters, and a process goes on with
what it waited for.  Which move comes next is not decided here, nor is any answer that a process
gets: an oracle names one for each need, and every list of moves with whatever oracles is a run.

One rule is kept.  A process that waits for a lock goes on only when no other process holds the lock
in a way that excludes it (`permits`).  In which order those that wait get a lock makes no
difference to what is shown about runs.
-/
import Folio.Session.Process
import Mathlib.Data.List.Perm.Basic

namespace Folio

/-! ## 1. What the host does by itself -/

/-- **What the host does to a session at one instant**, without any process. -/
inductive Deed where
  /-- Registers something, or takes it back. -/
  | setRegistry (registry : Registry)
  /-- Lets time pass. -/
  | setClock (now : Nat)
  /-- Edits, loads or marks the model of a context. -/
  | setModel (c : ContextId) (model : Model)
  /-- Lets a context follow a move. -/
  | followMove (c : ContextId) (target : String)
  | disposeContext (c : ContextId)
  | disposeWidget (w : WidgetId)
  /-- Makes a context of its own, which the manager does not know. -/
  | newContext (path modelFactory contentType : String) (kind : ModelKind)
  /-- Makes a coordinator of its own. -/
  | newCoordinator (c : ContextId) (interval : Duration)
  | startCoordinator (k : CoordinatorId)
  | stopCoordinator (k : CoordinatorId)
  | setInterval (k : CoordinatorId) (interval : Duration)

/-- The session after a deed. -/
def Deed.apply (s : Session) : Deed → Session
  | .setRegistry registry => { s with registry }
  | .setClock now => { s with now }
  | .setModel c model => s.setContext c { s.context c with model }
  | .followMove c target => s.setContext c ((s.context c).followMove target)
  | .disposeContext c => s.setContext c (s.context c).dispose
  | .disposeWidget w => s.disposeWidget w
  | .newContext path modelFactory contentType kind =>
    (s.addContext { path, modelFactory, contentType, model := .create kind }).1
  | .newCoordinator c interval => (s.addCoordinator (.create c interval)).1
  | .startCoordinator k => s.startCoordinator k
  | .stopCoordinator k => s.stopCoordinator k
  | .setInterval k interval => s.setCoordinatorInterval k interval

/-! ## 2. Ensembles and their moves -/

/-- **What the world answers**, to each need. -/
abbrev Oracle : Type := (need : Need) → need.Answer

/-- **A move.** -/
inductive Move where
  | deed (d : Deed)
  /-- A call of the host enters. -/
  | enter (p : Process)
  /-- The process at a place goes on. -/
  | go (i : Nat) (oracle : Oracle)

/-- The process is a call of the host that has not begun. -/
def Process.isCall : Process → Bool
  | .operation _ _ => true
  | .manager (.called _) => true
  | .awaitReady _ => true
  | .pause _ => true
  | _ => false

/-- **A session and the processes that run in it.** -/
structure Ensemble where
  session : Session
  processes : List Process := []

namespace Ensemble

/-- A fresh session in which nothing runs. -/
def start (config : Settings) : Ensemble := ⟨.create config, []⟩

/-- **What is waited for may be had**: none of the others holds the lock in a way that excludes
it. -/
def permits (others : List Process) : Need → Bool
  | .lock name access =>
    others.all fun q => q.holds.all fun held =>
      held.1 != name || (held.2 == .shared && access == .shared)
  | _ => true

/-- The session after a step, whose background work is taken over by processes. -/
def absorb (session : Session) (processes : List Process) : Ensemble :=
  ⟨{ session with started := [] }, processes ++ session.started.map .ofBackground⟩

/-- The process with which it goes on, if it does. -/
def continuing : Process ⊕ Outcome → List Process
  | .inl p => [p]
  | .inr _ => []

/-- **The process at a place goes on.** -/
def go (e : Ensemble) (i : Nat) (oracle : Oracle) : Ensemble :=
  match e.processes[i]? with
  | none => e
  | some p =>
    let others := e.processes.eraseIdx i
    if permits others p.need then
      let step := p.resume e.session (oracle p.need)
      absorb step.1 (others ++ continuing step.2)
    else e

/-- **One move**; one that is not possible changes nothing. -/
def step (e : Ensemble) : Move → Ensemble
  | .deed d => absorb (d.apply e.session) e.processes
  | .enter p => if p.isCall then { e with processes := e.processes ++ [p] } else e
  | .go i oracle => e.go i oracle

/-- **A run**: one move after the other. -/
def run (e : Ensemble) (moves : List Move) : Ensemble := moves.foldl step e

@[simp] theorem run_nil (e : Ensemble) : e.run [] = e := rfl

@[simp] theorem run_cons (e : Ensemble) (m : Move) (moves : List Move) :
    e.run (m :: moves) = (e.step m).run moves := rfl

theorem run_append (e : Ensemble) (first second : List Move) :
    e.run (first ++ second) = (e.run first).run second := List.foldl_append

/-- What every move of a kind keeps, every run of such moves keeps. -/
theorem run_keeps {P : Ensemble → Prop} {ok : Move → Prop}
    (keeps : ∀ e m, ok m → P e → P (e.step m)) (moves : List Move) (e : Ensemble)
    (allowed : ∀ m ∈ moves, ok m) (h : P e) : P (e.run moves) := by
  induction moves generalizing e with
  | nil => exact h
  | cons m moves ih =>
    have first : P (e.step m) := keeps e m (allowed m List.mem_cons_self) h
    exact ih (e.step m) (fun n hn => allowed n (List.mem_cons_of_mem m hn)) first

/-- **What going on does**: nothing, or one of the processes takes its step, the others being as
they were. -/
theorem go_cases (e : Ensemble) (i : Nat) (oracle : Oracle) :
    e.go i oracle = e ∨ ∃ (p : Process) (others : List Process),
      (p :: others).Perm e.processes ∧ permits others p.need = true ∧
      e.go i oracle = absorb (p.resume e.session (oracle p.need)).1
        (others ++ continuing (p.resume e.session (oracle p.need)).2) := by
  unfold go
  cases hp : e.processes[i]? with
  | none => exact Or.inl rfl
  | some p =>
    obtain ⟨hi, rfl⟩ := List.getElem?_eq_some_iff.mp hp
    simp only
    split
    · next allowed =>
      refine Or.inr ⟨e.processes[i], e.processes.eraseIdx i, ?_, allowed, rfl⟩
      exact List.getElem_cons_eraseIdx_perm hi
    · exact Or.inl rfl

end Ensemble

/-! ## 3. A world for examples -/

/-- A world in which every reload gives an empty text and every move of a file succeeds, but
nothing can be saved; the host agrees to all that it is asked. -/
def Oracle.obliging : Oracle
  | .turn => ()
  | .lock _ _ => ()
  | .store (.get path _) => .ok ⟨path, ⟨0, 0⟩, true, some (.text "")⟩
  | .store (.rename _ _) => .ok ⟨0, 0⟩
  | .store _ => .error (.unavailable "")
  | .ask _ => .cancel
  | .confirm _ => true
  | .tick _ _ _ _ _ => .announced
  | .readiness _ => true
  | .pause _ => ()

/-- Two model factories for texts, and a widget factory for each. -/
def Registry.sample : Registry where
  tables :=
    (((({} : RegistryTables).putModel "text" .text).putModel
      "script" ⟨"script", "file", .text, .text⟩).putWidget
      "editor" ⟨"editor", [], [], "text", none⟩).putWidget
      "console" ⟨"console", [], [], "script", none⟩

namespace Move

/-- The host calls the manager. -/
def call (op : ManagerOp) : Move := .enter (.manager (.called op))

/-- So many of the first five processes go on, in turn, in the obliging world. -/
def turns (n : Nat) : List Move := (List.range n).map fun i => .go (i % 5) .obliging

end Move

end Folio
