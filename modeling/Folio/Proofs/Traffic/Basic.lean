/-
# Traffic between a session and its store

A session whose processes call the store side by side.  A call of the store takes effect at one
instant between its call and its return, and nothing is assumed about how long it takes before and
after; the user and the host take as long as they like to answer.

Every process has a number, which it keeps, and what happens is entered in a log: the steps of the
processes, each with what it got and the session that it found, the calls that the store carries
out, and what others do to the store.  The log is no part of the program.  It is there to say of a
process what it did before, and of the store what was done to it meanwhile.

`Does` says once what a move can do.  `eq_of_log` finds the move at which an event of the log
happened, and `orderly_run` carries the invariants of ensembles over to traffic.
-/
import Folio.Proofs.Ensemble.Owner
import Folio.Proofs.Autosave.Commons
import Folio.Proofs.Saving.Exchange

namespace Folio

/-! ## 1. Errands and events -/

/-- **A process under way**, with its number and what the store has replied to it. -/
structure Errand where
  number : Nat
  process : Process
  /-- The reply of the store, once there is one. -/
  reply : Option process.need.Answer := none

/-- How a process goes on, under its number, if it does. -/
def Errand.next? (number : Nat) : Process ⊕ Outcome → Option Errand
  | .inl process => some { number, process }
  | .inr _ => none

theorem Errand.of_mem_next? {n : Nat} {r : Process ⊕ Outcome} {t : Errand}
    (h : t ∈ Errand.next? n r) : t.number = n ∧ r = .inl t.process ∧ t.reply = none := by
  cases r <;> cases h
  exact ⟨rfl, rfl, rfl⟩

/-- **What has happened.** -/
inductive Event where
  /-- A process took a step: what it was, what it got, and the session that it found. -/
  | stepped (number : Nat) (process : Process) (answer : process.need.Answer) (session : Session)
  /-- The store carried out the call that a process waits for, and has this reply. -/
  | carried (number : Nat) (need : Need) (reply : need.Answer)
  /-- A store of another kind has this reply. -/
  | answered (number : Nat) (need : Need) (reply : need.Answer)
  /-- Others have changed the store. -/
  | changed (before after : MemoryStore)

/-- The number of the process that an event is about. -/
def Event.number? : Event → Option Nat
  | .stepped n _ _ _ => some n
  | .carried n _ _ => some n
  | .answered n _ _ => some n
  | .changed _ _ => none

/-- **The events that are about the process of a number.** -/
def own (n : Nat) (log : List Event) : List Event := log.filter (·.number? == some n)

@[simp] theorem own_append (n : Nat) (a b : List Event) : own n (a ++ b) = own n a ++ own n b :=
  List.filter_append a b

theorem own_singleton {n : Nat} {e : Event} (h : e.number? = some n) : own n [e] = [e] := by
  simp [own, h]

theorem own_singleton_of_ne {n : Nat} {e : Event} (h : e.number? ≠ some n) : own n [e] = [] := by
  simp [own, h]

/-- The steps of a process are about it. -/
theorem stepped_mem_own {n : Nat} {p : Process} {answer : p.need.Answer} {s : Session}
    {log : List Event} (h : .stepped n p answer s ∈ log) : .stepped n p answer s ∈ own n log :=
  List.mem_filter.mpr ⟨h, by simp [Event.number?]⟩

/-! ## 2. Traffic and its moves -/

/-- **A session, a store, and the processes that go between them.** -/
structure Traffic where
  session : Session
  store : MemoryStore
  errands : List Errand := []
  /-- The number that the next process gets. -/
  next : Nat := 0
  log : List Event := []

namespace Traffic

/-- **What happens next.** -/
inductive Move where
  | deed (d : Deed)
  /-- A call of the host enters. -/
  | enter (p : Process)
  /-- Others have changed the store. -/
  | others (store : MemoryStore)
  /-- The store carries out the call that a process waits for. -/
  | carryOut (i : Nat)
  /-- The process gets its reply from a store of another kind, which replies what it likes. -/
  | answer (i : Nat) (oracle : Oracle)
  /-- A process goes on. -/
  | go (i : Nat) (oracle : Oracle)

/-- The host calls the manager. -/
def Move.call (op : ManagerOp) : Move := .enter (.manager (.called op))

/-- A store of another kind replies. -/
def Move.isAnswer : Move → Bool
  | .answer _ _ => true
  | _ => false

/-- Background work enters, with numbers from one on. -/
def entering (next : Nat) (works : List Background) : List Errand :=
  works.mapIdx fun j work => { number := next + j, process := .ofBackground work }

/-- The session after a step, whose background work enters. -/
def absorb (x : Traffic) (session : Session) (errands : List Errand) : Traffic :=
  { x with
    session := { session with started := [] }
    errands := errands ++ entering x.next session.started
    next := x.next + session.started.length }

/-- A process enters. -/
def enter (x : Traffic) (p : Process) : Traffic :=
  { x with errands := x.errands ++ [{ number := x.next, process := p }], next := x.next + 1 }

/-- The state after a process has taken its step beside others. -/
def resumed (x : Traffic) (others : List Errand) (t : Errand) (answer : t.process.need.Answer) :
    Traffic :=
  let step := t.process.resume x.session answer
  absorb { x with log := x.log ++ [.stepped t.number t.process answer x.session] } step.1
    (others ++ (Errand.next? t.number step.2).toList)

/-- **The store carries out a call**, if it has no reply yet. -/
def carryOut (x : Traffic) (i : Nat) : Traffic :=
  match x.errands[i]? with
  | none => x
  | some t =>
    match t.reply, t.process.need.carryOut x.store with
    | none, some (store, reply) =>
      { x with
        store
        errands := x.errands.set i { number := t.number, process := t.process, reply := some reply }
        log := x.log ++ [.carried t.number t.process.need reply] }
    | _, _ => x

/-- A store of another kind replies, if there is no reply yet. -/
def answer (x : Traffic) (i : Nat) (oracle : Oracle) : Traffic :=
  match x.errands[i]? with
  | none => x
  | some t =>
    if t.reply.isNone && t.process.need.isStore then
      let reply := oracle t.process.need
      { x with
        errands := x.errands.set i { number := t.number, process := t.process, reply := some reply }
        log := x.log ++ [.answered t.number t.process.need reply] }
    else x

/-- **A process goes on**, if it has what it waits for. -/
def go (x : Traffic) (i : Nat) (oracle : Oracle) : Traffic :=
  match x.errands[i]? with
  | none => x
  | some t =>
    let others := x.errands.eraseIdx i
    if Ensemble.permits (others.map (·.process)) t.process.need then
      match t.process.need.answer? oracle t.reply with
      | some answer => x.resumed others t answer
      | none => x
    else x

/-- **One move**; one that is not possible changes nothing. -/
def step (x : Traffic) : Move → Traffic
  | .deed d => x.absorb (d.apply x.session) x.errands
  | .enter p => if p.isCall then x.enter p else x
  | .others store => { x with store, log := x.log ++ [.changed x.store store] }
  | .carryOut i => x.carryOut i
  | .answer i oracle => x.answer i oracle
  | .go i oracle => x.go i oracle

/-- **A run**: one move after the other. -/
def run (x : Traffic) (moves : List Move) : Traffic := moves.foldl step x

theorem run_append (x : Traffic) (first second : List Move) :
    x.run (first ++ second) = (x.run first).run second := List.foldl_append

theorem run_concat (x : Traffic) (moves : List Move) (m : Move) :
    x.run (moves ++ [m]) = (x.run moves).step m := by
  rw [run_append]
  rfl

/-- **Every move of a run passes a test**, in the state in which it is made. -/
def throughout (ok : Traffic → Move → Bool) : Traffic → List Move → Bool
  | _, [] => true
  | x, m :: moves => ok x m && throughout ok (x.step m) moves

theorem throughout_append (ok : Traffic → Move → Bool) (x : Traffic) (first second : List Move) :
    x.throughout ok (first ++ second) =
      (x.throughout ok first && (x.run first).throughout ok second) := by
  induction first generalizing x with
  | nil => rfl
  | cons m first ih =>
    rw [List.cons_append, throughout, throughout, ih, Bool.and_assoc]
    rfl

theorem throughout_concat (ok : Traffic → Move → Bool) (x : Traffic) (moves : List Move)
    (m : Move) :
    x.throughout ok (moves ++ [m]) = (x.throughout ok moves && ok (x.run moves) m) := by
  rw [throughout_append, throughout, throughout, Bool.and_true]

/-- A session in which nothing runs, at a store. -/
def start (session : Session) (store : MemoryStore) : Traffic := { session, store }

/-- The process at a place goes on so many times, in the obliging world. -/
def goes (i n : Nat) : List Move := List.replicate n (.go i .obliging)

/-! ## 3. What a move does -/

/-- **What a move does**, and what it enters in the log. -/
inductive Does (x : Traffic) : Move → Option Event → Traffic → Prop where
  | nothing (m : Move) : Does x m none x
  | deed (d : Deed) : Does x (.deed d) none (x.absorb (d.apply x.session) x.errands)
  | enter {p : Process} (call : p.isCall = true) : Does x (.enter p) none (x.enter p)
  | others (store : MemoryStore) : Does x (.others store) (some (.changed x.store store))
      { x with store, log := x.log ++ [.changed x.store store] }
  | carries (i : Nat) {before after : List Errand} {t : Errand} {store : MemoryStore}
      {reply : t.process.need.Answer} (split : x.errands = before ++ t :: after)
      (waits : t.reply = none) (done : t.process.need.carryOut x.store = some (store, reply)) :
      Does x (.carryOut i) (some (.carried t.number t.process.need reply))
        { x with
          store
          errands := before ++
            { number := t.number, process := t.process, reply := some reply } :: after
          log := x.log ++ [.carried t.number t.process.need reply] }
  | answers (i : Nat) (oracle : Oracle) {before after : List Errand} {t : Errand}
      {reply : t.process.need.Answer} (split : x.errands = before ++ t :: after) :
      Does x (.answer i oracle) (some (.answered t.number t.process.need reply))
        { x with
          errands := before ++
            { number := t.number, process := t.process, reply := some reply } :: after
          log := x.log ++ [.answered t.number t.process.need reply] }
  | goes (i : Nat) (oracle : Oracle) {before after : List Errand} {t : Errand}
      {answer : t.process.need.Answer} (split : x.errands = before ++ t :: after)
      (free : Ensemble.permits ((before ++ after).map (·.process)) t.process.need = true)
      (ready : t.process.need.answer? oracle t.reply = some answer) :
      Does x (.go i oracle) (some (.stepped t.number t.process answer x.session))
        (x.resumed (before ++ after) t answer)

/-- Where a place of a list is, and what it is to erase or to set it. -/
theorem split_of_getElem? {α : Type} {l : List α} {i : Nat} {a : α} (h : l[i]? = some a) :
    ∃ before after, l = before ++ a :: after ∧ l.eraseIdx i = before ++ after ∧
      ∀ b, l.set i b = before ++ b :: after := by
  obtain ⟨hi, rfl⟩ := List.getElem?_eq_some_iff.mp h
  refine ⟨l.take i, l.drop (i + 1), ?_, List.eraseIdx_eq_take_drop_succ l i, fun b => ?_⟩
  · rw [← List.drop_eq_getElem_cons hi, List.take_append_drop]
  · rw [List.set_eq_take_append_cons_drop, if_pos hi]

/-- Who is under way is the one at a place, or one of the others. -/
theorem perm_of_split {x : Traffic} {before after : List Errand} {t : Errand}
    (split : x.errands = before ++ t :: after) : x.errands.Perm (t :: (before ++ after)) :=
  split ▸ List.perm_middle

/-- A reply leaves every process where it is. -/
theorem mem_replied {before after : List Errand} {t : Errand} {r : Option t.process.need.Answer}
    {u : Errand} (hu : u ∈ before ++ ⟨t.number, t.process, r⟩ :: after) :
    ∃ v ∈ before ++ t :: after, v.number = u.number ∧ v.process = u.process := by
  rcases List.mem_append.mp hu with hu | hu
  · exact ⟨u, List.mem_append_left _ hu, rfl, rfl⟩
  · rcases List.mem_cons.mp hu with rfl | hu
    · exact ⟨t, List.mem_append_right _ List.mem_cons_self, rfl, rfl⟩
    · exact ⟨u, List.mem_append_right _ (List.mem_cons_of_mem _ hu), rfl, rfl⟩

/-- **Who is under way after a step** is one of the others, or what goes on, or has just entered. -/
theorem mem_resumed {x : Traffic} {others : List Errand} {t : Errand}
    {answer : t.process.need.Answer} {u : Errand} (hu : u ∈ (x.resumed others t answer).errands) :
    u ∈ others ∨
      (u.number = t.number ∧ (t.process.resume x.session answer).2 = .inl u.process ∧
        u.reply = none) ∨
      (u.process.isFresh = true ∧ u.reply = none) := by
  rcases List.mem_append.mp hu with hu | hu
  · rcases List.mem_append.mp hu with hu | hu
    · exact .inl hu
    · exact .inr (.inl (Errand.of_mem_next? (Option.mem_toList.mp hu)))
  · obtain ⟨j, hj, rfl⟩ := List.mem_mapIdx.mp hu
    exact .inr (.inr ⟨Process.isFresh_ofBackground _, rfl⟩)

/-- What a call of the store does to a traffic, and at which place. -/
theorem carryOut_cases (x : Traffic) (i : Nat) :
    x.carryOut i = x ∨ ∃ before after t store reply, x.errands[i]? = some t ∧
      x.errands = before ++ t :: after ∧ t.reply = none ∧
      t.process.need.carryOut x.store = some (store, reply) ∧
      x.carryOut i =
        { x with
          store
          errands := before ++
            { number := t.number, process := t.process, reply := some reply } :: after
          log := x.log ++ [.carried t.number t.process.need reply] } := by
  cases ht : x.errands[i]? with
  | none => exact .inl (by rw [carryOut, ht])
  | some t =>
    obtain ⟨before, after, split, -, set⟩ := split_of_getElem? ht
    cases waits : t.reply with
    | some reply => exact .inl (by simp only [carryOut, ht, waits])
    | none =>
      cases done : t.process.need.carryOut x.store with
      | none => exact .inl (by simp only [carryOut, ht, waits, done])
      | some result =>
        obtain ⟨store, reply⟩ := result
        refine .inr ⟨before, after, t, store, reply, rfl, split, waits, done, ?_⟩
        simp only [carryOut, ht, waits, done, set]

/-- What a step of a process does to a traffic, and at which place. -/
theorem go_cases (x : Traffic) (i : Nat) (oracle : Oracle) :
    x.go i oracle = x ∨ ∃ before after t answer, x.errands[i]? = some t ∧
      x.errands = before ++ t :: after ∧
      Ensemble.permits ((before ++ after).map (·.process)) t.process.need = true ∧
      t.process.need.answer? oracle t.reply = some answer ∧
      x.go i oracle = x.resumed (before ++ after) t answer := by
  cases ht : x.errands[i]? with
  | none => exact .inl (by rw [go, ht])
  | some t =>
    obtain ⟨before, after, split, erase, -⟩ := split_of_getElem? ht
    simp only [go, ht, erase]
    split
    · next free =>
      split
      · next answer ready => exact .inr ⟨before, after, t, answer, rfl, split, free, ready, rfl⟩
      · exact .inl rfl
    · exact .inl rfl

/-- **Every move does one of these.** -/
theorem step_does (x : Traffic) (m : Move) : ∃ e, Does x m e (x.step m) := by
  cases m with
  | deed d => exact ⟨_, .deed d⟩
  | enter p =>
    simp only [step]
    split
    · next call => exact ⟨_, .enter call⟩
    · exact ⟨_, .nothing _⟩
  | others store => exact ⟨_, .others store⟩
  | carryOut i =>
    rcases x.carryOut_cases i with
      same | ⟨before, after, t, store, reply, -, split, waits, done, same⟩
    · exact ⟨_, by rw [step, same]; exact .nothing _⟩
    · exact ⟨_, by rw [step, same]; exact .carries i split waits done⟩
  | answer i oracle =>
    simp only [step, answer]
    split
    · exact ⟨_, .nothing _⟩
    · next t ht =>
      obtain ⟨before, after, split, -, set⟩ := split_of_getElem? ht
      split
      · rw [set]
        exact ⟨_, .answers i oracle split⟩
      · exact ⟨_, .nothing _⟩
  | go i oracle =>
    rcases x.go_cases i oracle with same | ⟨before, after, t, answer, -, split, free, ready, same⟩
    · exact ⟨_, by rw [step, same]; exact .nothing _⟩
    · exact ⟨_, by rw [step, same]; exact .goes i oracle split free ready⟩

/-- **What becomes of a process under way** in a move: it stays as it is, or it takes its step. -/
theorem stays_or_goes (x : Traffic) (m : Move) {t : Errand} (ht : t ∈ x.errands) :
    (∃ u ∈ (x.step m).errands, u.number = t.number ∧ u.process = t.process) ∨
      ∃ others answer, x.errands.Perm (t :: others) ∧ x.step m = x.resumed others t answer := by
  obtain ⟨e, does⟩ := x.step_does m
  generalize x.step m = y at does ⊢
  -- a reply is noted at the place of the process that waits for it
  have replied {before after : List Errand} {u : Errand} {r : Option u.process.need.Answer}
      (split : x.errands = before ++ u :: after) :
      ∃ v ∈ before ++ ⟨u.number, u.process, r⟩ :: after,
        v.number = t.number ∧ v.process = t.process := by
    rcases List.mem_cons.mp ((perm_of_split split).mem_iff.mp ht) with rfl | other
    · exact ⟨_, List.mem_append_right _ List.mem_cons_self, rfl, rfl⟩
    · refine ⟨t, ?_, rfl, rfl⟩
      rcases List.mem_append.mp other with earlier | later
      · exact List.mem_append_left _ earlier
      · exact List.mem_append_right _ (List.mem_cons_of_mem _ later)
  cases does with
  | nothing => exact .inl ⟨t, ht, rfl, rfl⟩
  | deed d => exact .inl ⟨t, List.mem_append_left _ ht, rfl, rfl⟩
  | enter call => exact .inl ⟨t, List.mem_append_left _ ht, rfl, rfl⟩
  | others store => exact .inl ⟨t, ht, rfl, rfl⟩
  | carries i split => exact .inl (replied split)
  | answers i oracle split => exact .inl (replied split)
  | @goes i oracle before after u answer split =>
    rcases List.mem_cons.mp ((perm_of_split split).mem_iff.mp ht) with rfl | other
    · exact .inr ⟨before ++ after, answer, perm_of_split split, rfl⟩
    · exact .inl ⟨t, List.mem_append_left _ (List.mem_append_left _ other), rfl, rfl⟩

/-- **Where a process that is under way after a move comes from**: it was there, or has entered, or
a step has led to it. -/
theorem stood_or_led (x : Traffic) (m : Move) {u : Errand} (hu : u ∈ (x.step m).errands) :
    (∃ t ∈ x.errands, t.number = u.number ∧ t.process = u.process) ∨ u.process.isFresh = true ∨
      ∃ t others answer, x.errands.Perm (t :: others) ∧ x.step m = x.resumed others t answer ∧
        u.number = t.number ∧ (t.process.resume x.session answer).2 = .inl u.process := by
  obtain ⟨e, does⟩ := x.step_does m
  generalize x.step m = y at does hu ⊢
  have entered {next : Nat} {works : List Background} (hu : u ∈ entering next works) :
      u.process.isFresh = true := by
    obtain ⟨j, hj, rfl⟩ := List.mem_mapIdx.mp hu
    exact Process.isFresh_ofBackground _
  cases does with
  | nothing => exact .inl ⟨u, hu, rfl, rfl⟩
  | deed d =>
    rcases List.mem_append.mp hu with there | new
    · exact .inl ⟨u, there, rfl, rfl⟩
    · exact .inr (.inl (entered new))
  | enter call =>
    rcases List.mem_append.mp hu with there | new
    · exact .inl ⟨u, there, rfl, rfl⟩
    · rw [List.mem_singleton.mp new]
      exact .inr (.inl (Process.isFresh_of_isCall call))
  | others store => exact .inl ⟨u, hu, rfl, rfl⟩
  | carries i split =>
    obtain ⟨t, there, same⟩ := mem_replied hu
    exact .inl ⟨t, split ▸ there, same⟩
  | answers i oracle split =>
    obtain ⟨t, there, same⟩ := mem_replied hu
    exact .inl ⟨t, split ▸ there, same⟩
  | @goes i oracle before after t answer split =>
    rcases mem_resumed hu with other | ⟨number, led, -⟩ | ⟨fresh, -⟩
    · have there := (perm_of_split split).mem_iff.mpr (List.mem_cons_of_mem t other)
      exact .inl ⟨u, there, rfl, rfl⟩
    · exact .inr (.inr ⟨t, before ++ after, answer, perm_of_split split, rfl, number, led⟩)
    · exact .inr (.inl fresh)

/-! ## 4. The log -/

/-- A move enters one event in the log, or none. -/
theorem Does.log {x y : Traffic} {m : Move} {e : Option Event} (h : Does x m e y) :
    y.log = x.log ++ e.toList := by
  cases h <;> simp [absorb, Traffic.enter, resumed]

/-- An event of a list that has grown by one is the last one, or was there before. -/
theorem split_concat {α : Type} {l a b : List α} {e last : α} (h : l ++ [last] = a ++ e :: b) :
    (a = l ∧ e = last ∧ b = []) ∨ ∃ c, l = a ++ e :: c ∧ b = c ++ [last] := by
  rcases List.eq_nil_or_concat b with rfl | ⟨c, z, rfl⟩
  · obtain ⟨rfl, same⟩ := List.append_inj' h rfl
    exact .inl ⟨rfl, by simpa using same.symm, rfl⟩
  · rw [List.concat_eq_append, ← List.cons_append, ← List.append_assoc] at h
    obtain ⟨rfl, same⟩ := List.append_inj' h rfl
    exact .inr ⟨c, rfl, by rw [List.concat_eq_append, same]⟩

/-- **An event of the log happened at a move.** -/
theorem eq_of_log {x : Traffic} (empty : x.log = []) {moves : List Move} {e : Event}
    {a b : List Event} (h : (x.run moves).log = a ++ e :: b) :
    ∃ first m second, moves = first ++ m :: second ∧ (x.run first).log = a ∧
      Does (x.run first) m (some e) ((x.run first).step m) := by
  induction moves using List.reverseRecOn generalizing b with
  | nil =>
    rw [show (x.run []).log = [] from empty] at h
    simp at h
  | append_singleton moves m ih =>
    obtain ⟨e', does⟩ := (x.run moves).step_does m
    rw [run_concat, does.log] at h
    have earlier {b : List Event} (h : (x.run moves).log = a ++ e :: b) :
        ∃ first m' second, moves ++ [m] = first ++ m' :: second ∧ (x.run first).log = a ∧
          Does (x.run first) m' (some e) ((x.run first).step m') := by
      obtain ⟨first, m', second, rfl, rest⟩ := ih h
      exact ⟨first, m', second ++ [m], by simp, rest⟩
    cases e' with
    | none => exact earlier (by simpa using h)
    | some last =>
      rcases split_concat h with ⟨rfl, rfl, -⟩ | ⟨c, before, -⟩
      · exact ⟨moves, m, [], rfl, rfl, does⟩
      · exact earlier before

/-- **A logged step was taken by a process under way**, at the move by which it went on. -/
theorem goes_of_log {x : Traffic} (empty : x.log = []) {moves : List Move} {n : Nat} {p : Process}
    {answer : p.need.Answer} {s : Session} {a b : List Event}
    (log : (x.run moves).log = a ++ .stepped n p answer s :: b) :
    ∃ first m second before after reply oracle, moves = first ++ m :: second ∧
      (x.run first).log = a ∧ (x.run first).session = s ∧
      (x.run first).errands = before ++ ⟨n, p, reply⟩ :: after ∧
      Ensemble.permits ((before ++ after).map (·.process)) p.need = true ∧
      p.need.answer? oracle reply = some answer ∧
      (x.run first).step m = (x.run first).resumed (before ++ after) ⟨n, p, reply⟩ answer := by
  obtain ⟨first, m, second, rfl, rfl, does⟩ := eq_of_log empty log
  generalize he : some (Event.stepped n p answer s) = e at does
  generalize hy : (x.run first).step m = y at does
  cases does with
  | @goes i oracle before after t got split free ready =>
    obtain ⟨number, process, reply⟩ := t
    simp only [Option.some.injEq, Event.stepped.injEq] at he
    obtain ⟨rfl, rfl, same, session⟩ := he
    cases same
    exact ⟨first, _, second, before, after, reply, oracle, rfl, rfl, session.symm, split, free,
      ready, hy⟩
  | _ => cases he

/-! ## 5. Invariants of ensembles -/

/-- The session and its processes. -/
def ensemble (x : Traffic) : Ensemble := ⟨x.session, x.errands.map (·.process)⟩

theorem map_process_entering (next : Nat) (works : List Background) :
    (entering next works).map (·.process) = works.map .ofBackground := by
  apply List.ext_getElem
  · simp [entering]
  · simp [entering]

theorem countP_entering (next : Nat) (works : List Background) (p : Process → Bool) :
    (entering next works).countP (fun t => p t.process) =
      works.countP fun work => p (.ofBackground work) := by
  have same := congrArg (List.countP p) (map_process_entering next works)
  simpa only [List.countP_map, Function.comp_def] using same

theorem filterMap_entering {β : Type} (next : Nat) (works : List Background)
    (f : Process → Option β) :
    (entering next works).filterMap (fun t => f t.process) =
      works.filterMap fun work => f (.ofBackground work) := by
  have same := congrArg (List.filterMap f) (map_process_entering next works)
  simpa only [List.filterMap_map, Function.comp_def] using same

theorem ensemble_absorb (x : Traffic) (session : Session) (errands : List Errand) :
    (x.absorb session errands).ensemble = Ensemble.absorb session (errands.map (·.process)) := by
  simp only [ensemble, absorb, Ensemble.absorb, List.map_append, map_process_entering]

theorem ensemble_resumed (x : Traffic) (others : List Errand) (t : Errand)
    (answer : t.process.need.Answer) :
    (x.resumed others t answer).ensemble =
      Ensemble.absorb (t.process.resume x.session answer).1 (others.map (·.process) ++
        Ensemble.continuing (t.process.resume x.session answer).2) := by
  rw [resumed, ensemble_absorb, List.map_append]
  cases (t.process.resume x.session answer).2 <;> rfl

section Invariant

open Ensemble

variable {allowed : Deed → Prop} {fits : Process → Prop} {Inv : Session → Option Stage → Prop}
  {x : Traffic}

/-- The moves for which an invariant is upheld. -/
def Allowed (allowed : Deed → Prop) (fits : Process → Prop) : Move → Prop
  | .deed d => allowed d
  | .enter p => fits p
  | _ => True

/-- The process that is about to take a step, and the others. -/
theorem orderly_split (orderly : Orderly fits Inv x.ensemble) {before after : List Errand}
    {t : Errand} (split : x.errands = before ++ t :: after) :
    Orderly fits Inv ⟨x.session, t.process :: (before ++ after).map (·.process)⟩ := by
  have whole : Orderly fits Inv ⟨x.session, x.errands.map Errand.process⟩ := orderly
  refine whole.perm ?_
  rw [split]
  exact List.perm_middle.map Errand.process

theorem orderly_step (h : Upheld allowed fits Inv) (orderly : Orderly fits Inv x.ensemble)
    {m : Move} (ok : Allowed allowed fits m) : Orderly fits Inv (x.step m).ensemble := by
  obtain ⟨e, does⟩ := x.step_does m
  generalize x.step m = y at does ⊢
  cases does with
  | nothing => exact orderly
  | deed d =>
    rw [ensemble_absorb]
    exact orderly.step h (.deed d) ok
  | @enter p call =>
    have entered := orderly.step h (.enter p) ok
    simp only [Ensemble.step, call, if_true] at entered
    simpa [ensemble, Traffic.enter] using entered
  | others store => exact orderly
  | carries i split =>
    simp only [ensemble, split, List.map_append, List.map_cons] at orderly ⊢
    exact orderly
  | answers i oracle split =>
    simp only [ensemble, split, List.map_append, List.map_cons] at orderly ⊢
    exact orderly
  | @goes i oracle before after t answer split free ready =>
    rw [ensemble_resumed]
    have front := orderly_split orderly split
    obtain ⟨number, process, reply⟩ := t
    cases alters : process.alters with
    | false => exact front.go_bystander h answer alters
    | true =>
      cases process with
      | manager stage => exact front.go_owner h answer alters free
      | _ => cases alters

/-- **Every run of allowed moves keeps the ensemble orderly.** -/
theorem orderly_run (h : Upheld allowed fits Inv) (orderly : Orderly fits Inv x.ensemble)
    (moves : List Move) (ok : ∀ m ∈ moves, Allowed allowed fits m) :
    Orderly fits Inv (x.run moves).ensemble := by
  induction moves using List.reverseRecOn with
  | nil => exact orderly
  | append_singleton moves m ih =>
    rw [run_concat]
    refine orderly_step h (ih fun n hn => ok n (List.mem_append_left _ hn)) (ok m ?_)
    exact List.mem_append_right _ (List.mem_singleton_self m)

/-- **A call that alters the books finds the invariant** with the stage that it is at. -/
theorem inv_of_log (h : Upheld allowed fits Inv) (orderly : Orderly fits Inv x.ensemble)
    (empty : x.log = []) {moves : List Move} (ok : ∀ m ∈ moves, Allowed allowed fits m) {n : Nat}
    {stage : Stage} {answer : stage.need.Answer} {s : Session} {a b : List Event}
    (alters : stage.alters = true)
    (log : (x.run moves).log = a ++ .stepped n (.manager stage) answer s :: b) :
    Inv s stage.owned? := by
  obtain ⟨first, m, second, before, after, reply, -, rfl, -, rfl, split, free, -, -⟩ :=
    goes_of_log empty log
  have here := orderly_run h orderly first fun m hm => ok m (List.mem_append_left _ hm)
  exact ((orderly_split here split).alone_of_alters alters free).2

end Invariant

end Traffic

end Folio
