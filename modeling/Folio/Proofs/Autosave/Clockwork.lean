/-
# Clockwork

Traffic in which time passes as the program lets it pass.  A timer loop that waits is served by the
world (`Host.World.serve`): it sets its timer, and wakes up when the time is over or there is a
reason to wake up before.  Where there are several reasons it takes whichever it finds first, and a
move says where it begins to look.  All else goes on as in traffic: calls take as long as they like,
and what the host and others do, they do when they like.

Time is virtual.  It passes only while every process waits for something, and no further than to the
next instant at which a timer is over (`Clockwork.isAtRest`).

A run of the clockwork is a run of traffic (`traffic_run`), in which loops are in step with their
coordinators.  `Does` says what a move can do, and `Wound` what is so of all timers: only a loop
that waits has one, and no timer is ever left behind by the time.
-/
import Folio.Proofs.Autosave.InStep
import Folio.Host.World
import Mathlib.Logic.Function.Basic

namespace Folio

/-! ## 1. Timers -/

/-- How long a timer of this length runs, in milliseconds: a started millisecond counts, and none
runs longer than the longest. -/
def Duration.timer (d : Duration) : Nat := Nat.min d.millisUp Host.World.longestWait

namespace Host

/-- The instant at which the timer is over, if one is set. -/
def Waiting.due? : Waiting → Option Nat
  | .timed due _ _ => some due
  | _ => none

namespace World

variable (w : World) (n : Nat) (k : CoordinatorId) (number : Nat) (c : ContextId) (place : Nat)

/-- **How a loop is served**: it wakes up, or waits; if it has not set its timer yet, it does. -/
theorem serve_tick (interval : Duration) (waiting : Waiting) :
    (w.serve n (.tick k number c place interval) waiting).2 =
      match w.tickNow? k number c place waiting.due? with
      | some tick => .inl tick
      | none =>
        .inr (if waiting.due?.isSome then waiting
          else .timed (w.now + interval.timer) w.timerCount .over) := by
  cases waiting with
  | timed due order pending =>
    simp only [serve, Waiting.due?]
    cases w.tickNow? k number c place (some due) <;> rfl
  | _ =>
    simp only [serve, earlyTick?, Waiting.due?]
    cases w.tickNow? k number c place none <;> rfl

variable {w k number c place}

/-- A loop looks for every reason, wherever it begins. -/
theorem mem_rounds (tick first : Tick) : tick ∈ rounds first := by
  cases tick <;> cases first <;> decide

/-- It goes on waiting only if there is none. -/
theorem tickNow?_eq_none_iff {due? : Option Nat} : w.tickNow? k number c place due? = none ↔
    ∀ tick, w.hasReason k number c place due? tick = false := by
  rw [tickNow?, List.find?_eq_none]
  exact ⟨fun none tick => by simpa using none tick (mem_rounds tick _),
    fun none tick _ => by simp [none tick]⟩

/-- The reason that it finds is there. -/
theorem hasReason_of_tickNow? {due? : Option Nat} {tick : Tick}
    (calls : w.tickNow? k number c place due? = some tick) :
    w.hasReason k number c place due? tick = true := List.find?_some calls

/-- It takes the reason that it looks for first, if that is there. -/
theorem tickNow?_of_first {due? : Option Nat}
    (there : w.hasReason k number c place due? w.lookFirst = true) :
    w.tickNow? k number c place due? = some w.lookFirst := by
  have begins : ∃ rest, rounds w.lookFirst = w.lookFirst :: rest := by
    cases w.lookFirst <;> exact ⟨_, rfl⟩
  obtain ⟨rest, begins⟩ := begins
  rw [tickNow?, begins, List.find?_cons_of_pos there]

/-- A loop has no reason to wake up before its time if its coordinator has this loop and wants no
new timer, and if there is no news. -/
theorem earlyTick?_eq_none_iff : w.earlyTick? k number c place = none ↔
    (w.session.coordinator k).rescheduled = false ∧
      (w.session.coordinator k).runs number = true ∧
      (w.session.context c).events.count ≤ place := by
  rw [earlyTick?, tickNow?_eq_none_iff]
  constructor
  · intro none
    have settled := none .rescheduled
    have heard := none .announced
    simp only [hasReason, Bool.or_eq_false_iff, Bool.not_eq_false', Journal.hasNews,
      decide_eq_false_iff_not, Nat.not_lt] at settled heard
    exact ⟨settled.1, settled.2, heard⟩
  · rintro ⟨wish, runs, heard⟩ tick
    cases tick <;> simp [hasReason, Journal.hasNews, wish, runs, heard]

/-- A loop that wakes up, but not because its time is over, would do so before its time. -/
theorem isSome_earlyTick? {due? : Option Nat} {tick : Tick} (other : tick ≠ .due)
    (calls : w.tickNow? k number c place due? = some tick) :
    (w.earlyTick? k number c place).isSome = true := by
  rw [Option.isSome_iff_ne_none, earlyTick?]
  intro none
  have absent := tickNow?_eq_none_iff.mp none tick
  have there := hasReason_of_tickNow? calls
  cases tick with
  | due => exact other rfl
  | rescheduled => exact Bool.false_ne_true (absent.symm.trans there)
  | announced => exact Bool.false_ne_true (absent.symm.trans there)

end World

end Host

/-- The process waits for a tick. -/
def Process.ticks : Process → Bool
  | .ticking _ _ _ _ _ => true
  | _ => false

/-- A process with this need goes on as soon as it has its turn. -/
def Need.isTurn : Need → Bool
  | .turn => true
  | _ => false

/-- A world in which loops wake up for this reason. -/
def Oracle.waking (tick : Tick) : Oracle
  | .tick _ _ _ _ _ => tick
  | need => Oracle.obliging need

/-! ## 2. Clockwork and its moves -/

/-- **Traffic whose loops have timers**, by the numbers of the processes. -/
structure Clockwork where
  traffic : Traffic
  waiting : Nat → Host.Waiting := fun _ => .fresh

namespace Clockwork

/-- **What happens next.** -/
inductive Move where
  /-- Something that has nothing to do with timers. -/
  | traffic (m : Traffic.Move)
  /-- The loop at a place looks whether it has to wake up, for one reason first. -/
  | poll (i : Nat) (first : Tick)
  /-- Time passes. -/
  | elapse (instant : Nat)

/-- The session. -/
abbrev session (x : Clockwork) : Session := x.traffic.session

/-- The time in milliseconds. -/
abbrev now (x : Clockwork) : Nat := x.session.now

/-- The world in which loops are served that look for one reason first. -/
def world (x : Clockwork) (first : Tick) : Host.World :=
  { session := x.session, lookFirst := first }

/-- The instant at which the timer of a process is over, if one is set. -/
def due? (x : Clockwork) (n : Nat) : Option Nat := (x.waiting n).due?

/-- A move that sets no clock and wakes no loop, and starts only a coordinator that was made. -/
def admits (x : Clockwork) : Traffic.Move → Bool
  | .deed (.setClock _) => false
  | .go i _ => !(x.traffic.errands[i]?).any (·.process.ticks)
  | m => x.traffic.startsMade m

/-- **A loop looks whether it has to wake up.** -/
def poll (x : Clockwork) (i : Nat) (first : Tick) : Clockwork :=
  match x.traffic.errands[i]? with
  | some ⟨n, .ticking k number place c interval, _⟩ =>
    match ((x.world first).serve n (.tick k number c place interval) (x.waiting n)).2 with
    | .inl tick =>
      ⟨x.traffic.step (.go i (.waking tick)), Function.update x.waiting n .fresh⟩
    | .inr waiting => ⟨x.traffic, Function.update x.waiting n waiting⟩
  | _ => x

/-- A loop that waits for a tick has no reason to wake up before its time. -/
def isQuiet (x : Clockwork) (k : CoordinatorId) (number : Nat) (c : ContextId) (place : Nat) :
    Bool := ((x.world .due).earlyTick? k number c place).isNone

/-- A process waits, and will up to an instant if nothing else happens. -/
def sleepsUntil (x : Clockwork) (instant : Nat) (t : Errand) : Bool :=
  match t.process with
  | .ticking k number place c _ =>
    (x.due? t.number).any (instant ≤ ·) && x.isQuiet k number c place
  | p => !p.need.isTurn

/-- **All processes wait** up to an instant to come. -/
def isAtRest (x : Clockwork) (instant : Nat) : Bool :=
  decide (x.now ≤ instant) && x.traffic.errands.all (x.sleepsUntil instant)

/-- **One move**; one that is not possible changes nothing. -/
def step (x : Clockwork) : Move → Clockwork
  | .traffic m => if x.admits m then { x with traffic := x.traffic.step m } else x
  | .poll i first => x.poll i first
  | .elapse instant =>
    if x.isAtRest instant then { x with traffic := x.traffic.step (.deed (.setClock instant)) }
    else x

/-- **A run**: one move after the other. -/
def run (x : Clockwork) (moves : List Move) : Clockwork := moves.foldl step x

theorem run_append (x : Clockwork) (first second : List Move) :
    x.run (first ++ second) = (x.run first).run second := List.foldl_append

theorem run_concat (x : Clockwork) (moves : List Move) (m : Move) :
    x.run (moves ++ [m]) = (x.run moves).step m := by
  rw [run_append]
  rfl

/-- **Every move of a run passes a test**, in the state in which it is made. -/
def throughout (ok : Clockwork → Move → Bool) : Clockwork → List Move → Bool
  | _, [] => true
  | x, m :: moves => ok x m && throughout ok (x.step m) moves

theorem throughout_concat (ok : Clockwork → Move → Bool) (x : Clockwork) (moves : List Move)
    (m : Move) :
    x.throughout ok (moves ++ [m]) = (x.throughout ok moves && ok (x.run moves) m) := by
  induction moves generalizing x with
  | nil => exact Bool.and_comm _ _
  | cons first moves ih =>
    rw [List.cons_append, throughout, ih, throughout, Bool.and_assoc]
    rfl

/-- A session in which nothing runs, at a store. -/
def start (session : Session) (store : MemoryStore) : Clockwork :=
  { traffic := .start session store }

/-! ## 3. What a move does -/

/-- The state after a loop has woken up. -/
def woken (x : Clockwork) (others : List Errand) (t : Errand) (answer : t.process.need.Answer) :
    Clockwork :=
  ⟨x.traffic.resumed others t answer, Function.update x.waiting t.number .fresh⟩

/-- The state after a loop has set its timer for a duration. -/
def timed (x : Clockwork) (n : Nat) (interval : Duration) : Clockwork :=
  { x with waiting := Function.update x.waiting n (.timed (x.now + interval.timer) 0 .over) }

/-- **What a move does.** -/
inductive Does (x : Clockwork) : Move → Clockwork → Prop where
  | nothing (m : Move) : Does x m x
  | moves {m : Traffic.Move} (admitted : x.admits m = true) :
      Does x (.traffic m) { x with traffic := x.traffic.step m }
  | wakes (i : Nat) (first : Tick) {others : List Errand} {n : Nat} {k : CoordinatorId}
      {number place : Nat} {c : ContextId} {interval : Duration} {reply : Option Tick} {tick : Tick}
      (all : x.traffic.errands.Perm (⟨n, .ticking k number place c interval, reply⟩ :: others))
      (calls : (x.world first).tickNow? k number c place (x.due? n) = some tick)
      (goes : x.traffic.step (.go i (.waking tick)) =
        x.traffic.resumed others ⟨n, .ticking k number place c interval, reply⟩ tick) :
      Does x (.poll i first) (x.woken others ⟨n, .ticking k number place c interval, reply⟩ tick)
  | sets (i : Nat) (first : Tick) {n : Nat} {k : CoordinatorId} {number place : Nat}
      {c : ContextId} {interval : Duration} {reply : Option Tick}
      (there : ⟨n, .ticking k number place c interval, reply⟩ ∈ x.traffic.errands)
      (unset : x.due? n = none) (quiet : x.isQuiet k number c place = true) :
      Does x (.poll i first) (x.timed n interval)
  | elapses {instant : Nat} (rests : x.isAtRest instant = true) :
      Does x (.elapse instant) { x with traffic := x.traffic.step (.deed (.setClock instant)) }

/-- Whether there is a reason does not depend on where a loop begins to look. -/
theorem isQuiet_iff {x : Clockwork} {k : CoordinatorId} {number : Nat} {c : ContextId}
    {place : Nat} (first : Tick) : x.isQuiet k number c place = true ↔
      (x.world first).earlyTick? k number c place = none := by
  rw [isQuiet, Option.isNone_iff_eq_none, Host.World.earlyTick?_eq_none_iff,
    Host.World.earlyTick?_eq_none_iff]
  rfl

/-- A loop that waits for a tick goes on with what it gets. -/
theorem go_waking (x : Traffic) {i n : Nat} {k : CoordinatorId} {number place : Nat} {c : ContextId}
    {interval : Duration} {reply : Option Tick}
    (there : x.errands[i]? = some ⟨n, .ticking k number place c interval, reply⟩) (tick : Tick) :
    ∃ others, x.errands.Perm (⟨n, .ticking k number place c interval, reply⟩ :: others) ∧
      x.step (.go i (.waking tick)) =
        x.resumed others ⟨n, .ticking k number place c interval, reply⟩ tick := by
  obtain ⟨before, after, split, erase, -⟩ := Traffic.split_of_getElem? there
  refine ⟨before ++ after, Traffic.perm_of_split split, ?_⟩
  simp only [Traffic.step, Traffic.go, there, erase]
  rfl

/-- **A loop that has reason to wake up** does when it looks. -/
theorem poll_waking (x : Clockwork) {i n : Nat} {first : Tick} {k : CoordinatorId}
    {number place : Nat} {c : ContextId} {interval : Duration} {reply : Option Tick} {tick : Tick}
    (there : x.traffic.errands[i]? = some ⟨n, .ticking k number place c interval, reply⟩)
    (calls : (x.world first).tickNow? k number c place (x.due? n) = some tick) :
    ∃ others, x.traffic.errands.Perm (⟨n, .ticking k number place c interval, reply⟩ :: others) ∧
      x.traffic.step (.go i (.waking tick)) =
        x.traffic.resumed others ⟨n, .ticking k number place c interval, reply⟩ tick ∧
      x.poll i first = x.woken others ⟨n, .ticking k number place c interval, reply⟩ tick := by
  obtain ⟨others, all, goes⟩ := go_waking x.traffic there tick
  refine ⟨others, all, goes, ?_⟩
  simp only [poll, there, Host.World.serve_tick]
  rw [← due?, calls, woken, ← goes]

theorem poll_does (x : Clockwork) (i : Nat) (first : Tick) :
    Does x (.poll i first) (x.poll i first) := by
  cases there : x.traffic.errands[i]? with
  | none =>
    rw [poll, there]
    exact .nothing _
  | some t =>
    obtain ⟨n, p, reply⟩ := t
    cases p with
    | ticking k number place c interval =>
      cases calls : (x.world first).tickNow? k number c place (x.due? n) with
      | some tick =>
        obtain ⟨others, all, goes, same⟩ := x.poll_waking there calls
        rw [same]
        exact .wakes i first all calls goes
      | none =>
        simp only [poll, there, Host.World.serve_tick]
        rw [← due?, calls]
        simp only
        cases set : x.due? n with
        | some due =>
          rw [Option.isSome_some, if_pos rfl, Function.update_eq_self]
          exact .nothing _
        | none =>
          rw [set] at calls
          exact .sets i first (List.mem_of_getElem? there) set ((isQuiet_iff first).mpr calls)
    | _ =>
      simp only [poll, there]
      exact .nothing _

/-- **Every move does one of these.** -/
theorem step_does (x : Clockwork) (m : Move) : Does x m (x.step m) := by
  cases m with
  | traffic m =>
    simp only [step]
    split
    · next admitted => exact .moves admitted
    · exact .nothing _
  | poll i first => exact x.poll_does i first
  | elapse instant =>
    simp only [step]
    split
    · next rests => exact .elapses rests
    · exact .nothing _

/-! ## 4. Runs of the clockwork are runs of traffic -/

/-- **A move is one of traffic**, or it sets a timer. -/
theorem traffic_step (x : Clockwork) (m : Move) : (x.step m).traffic = x.traffic ∨
    ∃ m', (x.step m).traffic = x.traffic.step m' ∧ x.traffic.startsMade m' = true := by
  have does := x.step_does m
  generalize x.step m = y at does ⊢
  cases does with
  | nothing => exact .inl rfl
  | @moves m admitted =>
    refine .inr ⟨m, rfl, ?_⟩
    cases m with
    | deed d => cases d <;> first | exact admitted | rfl
    | _ => rfl
  | @wakes i _ _ _ _ _ _ _ _ _ tick all calls goes =>
    exact .inr ⟨.go i (.waking tick), goes.symm, rfl⟩
  | sets => exact .inl rfl
  | @elapses instant rests => exact .inr ⟨.deed (.setClock instant), rfl, rfl⟩

variable (config : Settings) (store : MemoryStore) (moves : List Move)

theorem traffic_run : ∃ path,
    ((start (.create config) store).run moves).traffic =
      (Traffic.start (.create config) store).run path ∧
    (Traffic.start (.create config) store).throughout Traffic.startsMade path = true := by
  induction moves using List.reverseRecOn with
  | nil => exact ⟨[], rfl, rfl⟩
  | append_singleton moves m ih =>
    obtain ⟨path, led, starts⟩ := ih
    rw [run_concat]
    rcases traffic_step ((start (.create config) store).run moves) m with same | ⟨m', same, made⟩
    · exact ⟨path, same.trans led, starts⟩
    · rw [led] at same made
      refine ⟨path ++ [m'], by rw [same, Traffic.run_concat], ?_⟩
      rw [Traffic.throughout_concat, starts, made]
      rfl

/-- **What is so of the traffic of a clockwork.** -/
structure IsSteady (x : Clockwork) : Prop where
  started : x.session.started = []
  coherent : x.traffic.IsCoherent
  timed : ∀ k, x.traffic.Timed k
  paced : x.session.Paced
  inStep : x.traffic.InStep
  even : ∀ k, x.traffic.firings k = x.traffic.begun k + x.traffic.due k

theorem steady_run : ((start (.create config) store).run moves).IsSteady := by
  obtain ⟨path, led, starts⟩ := traffic_run config store moves
  constructor
  · rw [session, led]
    exact (Traffic.sound_run config store path).started
  · rw [led]
    exact Traffic.coherent_run _ store path
  · rw [led]
    exact Traffic.timed_run config store starts
  · rw [session, led]
    exact Traffic.paced_run config store path
  · rw [led]
    exact Traffic.inStep_run config store starts
  · rw [led]
    exact Traffic.firings_run config store path

end Clockwork

/-! ## 5. Time and timers -/

namespace Session

variable {s t : Session}

theorem now_startCoordinator (s : Session) (k : CoordinatorId) :
    (s.startCoordinator k).now = s.now := by
  unfold startCoordinator
  simp only
  split <;> rfl

theorem Edit.now (h : s.Edit t) : t.now = s.now := by
  cases h with
  | startCoordinator k => exact now_startCoordinator s k
  | retireWidget w => cases w <;> rfl
  | _ => rfl

theorem now_deed (s : Session) {d : Deed} (other : ∀ now, d ≠ .setClock now) :
    (d.apply s).now = s.now := by
  cases d with
  | setClock now => exact absurd rfl (other now)
  | startCoordinator k => exact now_startCoordinator s k
  | disposeWidget w => cases w <;> rfl
  | _ => rfl

end Session

/-- No process makes time pass. -/
theorem Process.now_resume (s : Session) (p : Process) (answer : p.need.Answer) :
    (p.resume s answer).1.now = s.now := by
  refine keeps (P := fun t => t.now = s.now) (fun edit same => edit.now.trans same)
    (fun makes => ?_) rfl answer
  cases makes with
  | starts k call reply => exact Session.now_startCoordinator _ k
  | _ => rfl

/-- Only the clock makes time pass. -/
theorem Traffic.now_step (x : Traffic) {m : Move} (other : ∀ now, m ≠ .deed (.setClock now)) :
    (x.step m).session.now = x.session.now := by
  obtain ⟨e, does⟩ := x.step_does m
  generalize x.step m = y at does ⊢
  cases does with
  | deed d => exact Session.now_deed x.session fun now same => other now (congrArg Move.deed same)
  | goes => exact Process.now_resume x.session _ _
  | _ => rfl

/-- **Who takes a step** is who goes on. -/
theorem Traffic.of_resumed {x : Traffic} {m : Move} {others : List Errand} {t : Errand}
    {answer : t.process.need.Answer} (h : x.step m = x.resumed others t answer) :
    ∃ i oracle u, m = .go i oracle ∧ x.errands[i]? = some u ∧ u.process = t.process := by
  -- the step is the one that the move enters in the log
  have log : (x.step m).log = x.log ++ [.stepped t.number t.process answer x.session] := by
    rw [h]
    rfl
  cases m with
  | go i oracle =>
    rcases x.go_cases i oracle with same | ⟨before, after, u, got, there, -, -, -, same⟩
    · rw [step, same] at log
      simp at log
    · rw [step, same] at log
      have last := (List.append_right_inj x.log).mp log
      simp only [List.cons.injEq, Event.stepped.injEq] at last
      exact ⟨i, oracle, u, rfl, there, last.1.2.1⟩
  | _ =>
    obtain ⟨e, does⟩ := x.step_does _
    have event := List.append_cancel_left (does.log.symm.trans log)
    generalize x.step _ = y at does
    cases does <;> cases event

namespace Clockwork

variable {x : Clockwork}

theorem due?_woken (x : Clockwork) (others : List Errand) (t : Errand)
    (answer : t.process.need.Answer) (n : Nat) :
    (x.woken others t answer).due? n = if n = t.number then none else x.due? n := by
  simp only [due?, woken, Function.update_apply]
  split <;> rfl

theorem due?_timed (x : Clockwork) (n : Nat) (interval : Duration) (m : Nat) :
    (x.timed n interval).due? m = if m = n then some (x.now + interval.timer) else x.due? m := by
  simp only [due?, timed, Function.update_apply]
  split <;> rfl

/-- **What is so of all timers**: only a loop that waits has one, and no time has passed over it. -/
structure Wound (x : Clockwork) : Prop extends IsSteady x where
  timers : ∀ n, ∀ due ∈ x.due? n,
    x.now ≤ due ∧ ∃ t ∈ x.traffic.errands, t.number = n ∧ t.process.ticks = true

/-- Two processes under way have different numbers. -/
theorem IsSteady.eq_of_number (steady : x.IsSteady) {t u : Errand} (ht : t ∈ x.traffic.errands)
    (hu : u ∈ x.traffic.errands) (same : t.number = u.number) : t = u :=
  List.inj_on_of_nodup_map steady.coherent.nodup ht hu same

/-- Who does not wait for a tick has no timer. -/
theorem Wound.unset (wound : x.Wound) {t : Errand} (ht : t ∈ x.traffic.errands)
    (quiet : t.process.ticks = false) : x.due? t.number = none := by
  cases set : x.due? t.number with
  | none => rfl
  | some due =>
    obtain ⟨-, u, hu, number, ticks⟩ := wound.timers t.number due set
    rw [wound.eq_of_number hu ht number, quiet] at ticks
    cases ticks

/-- A move that has nothing to do with timers is no step of a loop that waits. -/
theorem quiet_of_admits {m : Traffic.Move} (admitted : x.admits m = true) {t : Errand}
    {others : List Errand} {answer : t.process.need.Answer}
    (h : x.traffic.step m = x.traffic.resumed others t answer) : t.process.ticks = false := by
  obtain ⟨i, oracle, u, rfl, there, same⟩ := Traffic.of_resumed h
  simpa [admits, there, same] using admitted

/-- **A move of traffic** leaves the timers as they are. -/
theorem Wound.moves (wound : x.Wound) {m : Traffic.Move} (admitted : x.admits m = true)
    (steady : IsSteady { x with traffic := x.traffic.step m }) :
    Wound { x with traffic := x.traffic.step m } := by
  have now : (x.traffic.step m).session.now = x.now :=
    x.traffic.now_step fun now same => by subst same; cases admitted
  refine ⟨steady, fun n due set => ?_⟩
  obtain ⟨ahead, t, ht, number, ticks⟩ := wound.timers n due set
  refine ⟨Nat.le_trans (Nat.le_of_eq now) ahead, ?_⟩
  rcases x.traffic.stays_or_goes m ht with ⟨u, hu, same, process⟩ | ⟨others, answer, -, goes⟩
  · exact ⟨u, hu, same.trans number, by rw [process]; exact ticks⟩
  · rw [quiet_of_admits admitted goes] at ticks
    cases ticks

/-- **A loop that wakes up** has no timer any more. -/
theorem Wound.wakes (wound : x.Wound) {others : List Errand} {t : Errand}
    {answer : t.process.need.Answer} (all : x.traffic.errands.Perm (t :: others))
    (steady : IsSteady (x.woken others t answer)) : (x.woken others t answer).Wound := by
  have now : (x.woken others t answer).now = x.now := Process.now_resume _ _ _
  refine ⟨steady, fun n due set => ?_⟩
  rw [due?_woken] at set
  split at set
  · cases set
  · next other =>
    obtain ⟨ahead, u, hu, number, ticks⟩ := wound.timers n due set
    refine ⟨now ▸ ahead, u, ?_, number, ticks⟩
    rcases List.mem_cons.mp (all.mem_iff.mp hu) with rfl | there
    · exact absurd number.symm other
    · exact List.mem_append_left _ (List.mem_append_left _ there)

/-- **Time passes over no timer**, and leaves all processes where they are. -/
theorem Wound.elapses (wound : x.Wound) {instant : Nat} (rests : x.isAtRest instant = true)
    (steady : IsSteady { x with traffic := x.traffic.step (.deed (.setClock instant)) }) :
    Wound { x with traffic := x.traffic.step (.deed (.setClock instant)) } := by
  refine ⟨steady, fun n due set => ?_⟩
  obtain ⟨-, t, ht, number, ticks⟩ := wound.timers n due set
  obtain ⟨-, asleep⟩ := Bool.and_eq_true_iff.mp rests
  have sleeps := List.all_eq_true.mp asleep t ht
  refine ⟨?_, t, List.mem_append_left _ ht, number, ticks⟩
  obtain ⟨n', p, reply⟩ := t
  cases p with
  | ticking k place number' c interval =>
    obtain ⟨within, -⟩ := Bool.and_eq_true_iff.mp sleeps
    subst number
    rw [show x.due? n' = some due from set] at within
    exact of_decide_eq_true within
  | _ => cases ticks

theorem wound_run (config : Settings) (store : MemoryStore) (moves : List Move) :
    ((start (.create config) store).run moves).Wound := by
  have steady := steady_run config store moves
  induction moves using List.reverseRecOn with
  | nil => exact ⟨steady, nofun⟩
  | append_singleton moves m ih =>
    have wound := ih (steady_run config store moves)
    rw [run_concat] at steady ⊢
    generalize (start (.create config) store).run moves = x at wound steady
    have does := x.step_does m
    generalize x.step m = y at does steady ⊢
    cases does with
    | nothing => exact wound
    | moves admitted => exact wound.moves admitted steady
    | wakes i first all calls goes => exact wound.wakes all steady
    | @sets i first n k number place c interval reply there unset quiet =>
      refine ⟨steady, fun m due set => ?_⟩
      rw [due?_timed] at set
      split at set
      · next same =>
        cases set
        exact ⟨Nat.le_add_right _ _, _, there, same.symm, rfl⟩
      · exact wound.timers m due set
    | elapses rests => exact wound.elapses rests steady

end Clockwork

end Folio
