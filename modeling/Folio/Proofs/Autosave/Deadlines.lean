/-
# When autosave is due

The timer of a coordinator is over at an instant that is known from the moment at which it was last
set anew: the current interval later (`Clockwork.Stands`).  A firing and a start set it anew, and if
it is not over yet, so do a change of the interval and a save that completes, and all that the
context announces (`Clockwork.restarts`).  No other move does, and no time passes over that instant
(`Clockwork.fires_on_time`).

If one of these happens when the timer is over, but its loop has not woken up yet, the loop has two
reasons to wake up, and takes the one that it finds first.  If that is not the timer, the timer is
given up and set anew without having fired (`Clockwork.drops`).

An announcement is nothing that the loop has any use for, unless it is the last one.  All the same
it puts the next attempt off by a whole interval (`Clockwork.announcement_postpones`).
-/
import Folio.Proofs.Autosave.Clockwork

namespace Folio

namespace Clockwork

variable {x : Clockwork} {k : CoordinatorId}

/-! ## 1. Deadlines -/

/-- How long a timer runs that the coordinator sets now. -/
def wait (x : Clockwork) (k : CoordinatorId) : Nat := (x.session.coordinator k).current.timer

/-- **The instant at which the timer of a loop is over**, as things stand: if it is not set, or
about to be set anew, it is set now. -/
def deadline (x : Clockwork) (k : CoordinatorId) (t : Errand) : Nat :=
  match t.process, x.due? t.number with
  | .ticking j number place c _, some due =>
    if due ≤ x.now || x.isQuiet j number c place then due else x.now + x.wait k
  | _, _ => x.now + x.wait k

/-- The loops of a coordinator that may run have their timers over at an instant. -/
def Stands (x : Clockwork) (k : CoordinatorId) (instant : Nat) : Prop :=
  ∀ t ∈ x.traffic.errands, ∀ n, t.process.loopOf? k = some n →
    (x.session.coordinator k).runs n = true → x.deadline k t = instant

theorem deadline_of_quiet {t : Errand} (quiet : t.process.ticks = false) :
    x.deadline k t = x.now + x.wait k := by
  unfold deadline
  split
  · next at_tick _ => rw [at_tick] at quiet; cases quiet
  · rfl

theorem deadline_of_unset {t : Errand} (unset : x.due? t.number = none) :
    x.deadline k t = x.now + x.wait k := by
  unfold deadline
  split
  · next set => rw [unset] at set; cases set
  · rfl

theorem deadline_of_set {t : Errand} {j : CoordinatorId} {number place : Nat} {c : ContextId}
    {interval : Duration} (waits : t.process = .ticking j number place c interval) {due : Nat}
    (set : x.due? t.number = some due) :
    x.deadline k t =
      if due ≤ x.now || x.isQuiet j number c place then due else x.now + x.wait k := by
  simp only [deadline, waits, set]

/-- A timer that is over is not set anew before the loop has woken up. -/
theorem deadline_of_over {t : Errand} (ticks : t.process.ticks = true) {due : Nat}
    (set : x.due? t.number = some due) (past : due ≤ x.now) : x.deadline k t = due := by
  obtain ⟨n, p, reply⟩ := t
  cases p with
  | ticking j number place c interval =>
    rw [deadline_of_set rfl set, decide_eq_true past, Bool.true_or, if_pos rfl]
  | _ => cases ticks

/-- Whether a loop that may run goes on waiting. -/
theorem isQuiet_eq {n : Nat} (place : Nat) {c : ContextId}
    (runs : (x.session.coordinator k).runs n = true)
    (owner : c = (x.session.coordinator k).context) :
    x.isQuiet k n c place =
      (!(x.session.coordinator k).rescheduled && decide (x.session.announcedTo k ≤ place)) := by
  subst owner
  rw [Bool.eq_iff_iff, isQuiet, Option.isNone_iff_eq_none, Host.World.earlyTick?_eq_none_iff,
    Bool.and_eq_true, Bool.not_eq_true', decide_eq_true_eq]
  exact ⟨fun quiet => ⟨quiet.1, quiet.2.2⟩, fun quiet => ⟨quiet.1, runs, quiet.2⟩⟩

/-- A loop that waits for a tick. -/
theorem ticking_of_loop {p : Process} {n : Nat} (ticks : p.ticks = true)
    (loop : p.loopOf? k = some n) : ∃ place c interval, p = .ticking k n place c interval := by
  cases p with
  | ticking j number place c interval =>
    simp only [Process.loopOf?, Option.ite_none_right_eq_some, Option.some.injEq] at loop
    obtain ⟨rfl, rfl⟩ := loop
    exact ⟨place, c, interval, rfl⟩
  | _ => cases ticks

/-- A loop that does not wait for a tick. -/
theorem loop_of_loop {p : Process} {n : Nat} (quiet : p.ticks = false)
    (loop : p.loopOf? k = some n) : ∃ place, p = .loop k n place := by
  cases p with
  | loop j number place =>
    simp only [Process.loopOf?, Option.ite_none_right_eq_some, Option.some.injEq] at loop
    obtain ⟨rfl, rfl⟩ := loop
    exact ⟨place, rfl⟩
  | ticking j number place c interval => cases quiet
  | _ => cases loop

/-! ## 2. What sets a timer anew -/

/-- The timer of the coordinator fires in a move. -/
def fires (x : Clockwork) (k : CoordinatorId) (m : Move) : Bool :=
  decide (x.traffic.firings k < (x.step m).traffic.firings k)

/-- The timer of the coordinator is over, and its loop has not woken up yet. -/
def isOver (x : Clockwork) (k : CoordinatorId) : Bool :=
  x.traffic.errands.any fun t =>
    (t.process.loopOf? k).any (x.session.coordinator k).runs && (x.due? t.number).any (· ≤ x.now)

/-- The coordinator is started in a move. -/
def starts (x : Clockwork) (k : CoordinatorId) (m : Move) : Bool :=
  decide ((x.session.coordinator k).loopCount < ((x.step m).session.coordinator k).loopCount)

/-- In a move the coordinator comes to wish a new timer, because its interval is set or has adapted
to a save. -/
def resets (x : Clockwork) (k : CoordinatorId) (m : Move) : Bool :=
  let before := x.session.coordinator k
  let after := (x.step m).session.coordinator k
  after.rescheduled && (!before.rescheduled || after.current != before.current)

/-- The context of the coordinator announces something in a move. -/
def announces (x : Clockwork) (k : CoordinatorId) (m : Move) : Bool :=
  decide (x.session.announcedTo k < (x.step m).session.announcedTo k)

/-- In a move the timer of the coordinator, which is over, is given up: its loop has woken up for
another reason. -/
def drops (x : Clockwork) (k : CoordinatorId) (m : Move) : Bool :=
  x.isOver k && !x.fires k m && !(x.step m).isOver k && ((x.step m).session.coordinator k).active

/-- **A move sets the timer of the coordinator anew.** -/
def restarts (x : Clockwork) (k : CoordinatorId) (m : Move) : Bool :=
  x.fires k m || x.starts k m || x.drops k m ||
    (!x.isOver k && (x.resets k m || x.announces k m))

/-- A timer that is over and stays so is not given up. -/
theorem drops_of_over {m : Move} (elapsed : x.isOver k = true → (x.step m).isOver k = true) :
    x.drops k m = false := by
  cases before : x.isOver k with
  | false => simp [drops, before]
  | true => simp [drops, elapsed before]

/-- A move that fires nothing, gives no timer up and changes nothing of what a loop goes by, but
that it may take the wish for a new timer. -/
theorem restarts_of_same {m : Move}
    (firings : (x.step m).traffic.firings k = x.traffic.firings k)
    (elapsed : x.isOver k = true → (x.step m).isOver k = true)
    (count : ((x.step m).session.coordinator k).loopCount = (x.session.coordinator k).loopCount)
    (wish : ((x.step m).session.coordinator k).rescheduled = false ∨
      (x.step m).session.coordinator k = x.session.coordinator k)
    (announced : (x.step m).session.announcedTo k = x.session.announcedTo k) :
    x.restarts k m = false := by
  have calm : x.resets k m = false := by
    rcases wish with none | same
    · rw [resets, none]
      rfl
    · cases before : (x.session.coordinator k).rescheduled <;> simp [resets, same, before]
  simp [restarts, fires, starts, announces, calm, firings, count, announced, drops_of_over elapsed]

/-- The coordinator's timer is over if that of its loop is. -/
theorem IsSteady.isOver_eq (steady : x.IsSteady) {t : Errand} (ht : t ∈ x.traffic.errands) {n : Nat}
    (loop : t.process.loopOf? k = some n) (runs : (x.session.coordinator k).runs n = true) :
    x.isOver k = (x.due? t.number).any (· ≤ x.now) := by
  obtain ⟨others, all⟩ : ∃ others, x.traffic.errands.Perm (t :: others) := by
    obtain ⟨before, after, split⟩ := List.append_of_mem ht
    exact ⟨before ++ after, Traffic.perm_of_split split⟩
  have rest : others.any (fun t => (t.process.loopOf? k).any (x.session.coordinator k).runs &&
      (x.due? t.number).any (· ≤ x.now)) = false := by
    rw [List.any_eq_false]
    intro u hu past
    obtain ⟨may, -⟩ := Bool.and_eq_true_iff.mp past
    cases other : u.process.loopOf? k with
    | none => rw [other] at may; cases may
    | some m =>
      rw [other, Option.any_some, (steady.timed k).alone all loop runs hu other] at may
      cases may
  rw [isOver, all.any_eq, List.any_cons, rest, loop, Option.any_some, runs, Bool.true_and,
    Bool.or_false]

/-! ## 3. What a move does to a deadline -/

/-- Who does not wait for a tick fires nothing. -/
theorem firesFor_of_quiet {n : Nat} {p : Process} (quiet : p.ticks = false)
    (answer : p.need.Answer) (s : Session) (k : CoordinatorId) :
    (Event.stepped n p answer s).firesFor k = false := by
  cases p with
  | ticking j number place c interval => cases quiet
  | attempt j a => cases a <;> rfl
  | _ => rfl

theorem firings_resumed (x : Traffic) (others : List Errand) (t : Errand)
    (answer : t.process.need.Answer) (k : CoordinatorId) :
    (x.resumed others t answer).firings k =
      x.firings k + ((Event.stepped t.number t.process answer x.session).firesFor k).toNat := by
  simp only [Traffic.resumed, Traffic.absorb, Traffic.firings, List.countP_append,
    List.countP_singleton]
  cases (Event.stepped t.number t.process answer x.session).firesFor k <;> rfl

/-- A loop that may run fires if it wakes up because its timer is over, and only then. -/
theorem firings_woken {m : Move} {w n place : Nat} {others : List Errand} {c : ContextId}
    {interval : Duration} {reply : Option Tick} {tick : Tick}
    (led : (x.step m).traffic =
      x.traffic.resumed others ⟨w, .ticking k n place c interval, reply⟩ tick)
    (runs : (x.session.coordinator k).runs n = true) :
    (x.step m).traffic.firings k = x.traffic.firings k + (decide (tick = .due)).toNat := by
  rw [led, firings_resumed]
  cases tick with
  | due => rw [Event.firesFor, beq_self_eq_true, runs]; rfl
  | _ => rfl

/-- A move that has nothing to do with timers fires none. -/
theorem firings_moves {m : Traffic.Move} (admitted : x.admits m = true) (k : CoordinatorId) :
    (x.traffic.step m).firings k = x.traffic.firings k := by
  obtain ⟨e, does⟩ := x.traffic.step_does m
  generalize goes : x.traffic.step m = y at does
  cases does with
  | @goes i oracle before after t answer split =>
    have quiet := quiet_of_admits admitted goes
    rw [firings_resumed, firesFor_of_quiet quiet]
    rfl
  | others store => simp [Traffic.firings, Event.firesFor]
  | carries => simp [Traffic.firings, Event.firesFor]
  | answers => simp [Traffic.firings, Event.firesFor]
  | _ => rfl

/-- **What a move does to the deadline of a loop that may run**: it sets the timer anew, or the
deadline is that of the same loop before. -/
inductive Sets (x y : Clockwork) (k : CoordinatorId) (u : Errand) (restarts : Bool) : Prop
  | anew (restart : restarts = true) (deadline : y.deadline k u = y.now + y.wait k)
  | stands (calm : restarts = false) (t : Errand) (ht : t ∈ x.traffic.errands) (n : Nat)
      (loop : t.process.loopOf? k = some n) (runs : (x.session.coordinator k).runs n = true)
      (deadline : y.deadline k u = x.deadline k t)

/-- **A loop goes on** in a move that is no step of it: it may run before and after, and its
coordinator keeps its interval or wishes a new timer. -/
structure RunsOn (x : Clockwork) (k : CoordinatorId) (n : Nat) (m : Move) : Prop where
  now : (x.step m).now = x.now
  calm : x.fires k m = false
  before : (x.session.coordinator k).runs n = true
  after : ((x.step m).session.coordinator k).runs n = true
  owner : ((x.step m).session.coordinator k).context = (x.session.coordinator k).context
  listens : x.session.announcedTo k ≤ (x.step m).session.announcedTo k
  count : ((x.step m).session.coordinator k).loopCount = (x.session.coordinator k).loopCount
  pace : (((x.step m).session.coordinator k).current = (x.session.coordinator k).current ∧
      ((x.step m).session.coordinator k).rescheduled = (x.session.coordinator k).rescheduled) ∨
    ((x.step m).session.coordinator k).rescheduled = true

namespace RunsOn

variable {n : Nat} {m : Move}

theorem restarts_eq (on : x.RunsOn k n m) (elapsed : (x.step m).isOver k = x.isOver k) :
    x.restarts k m = (!x.isOver k && (x.resets k m || x.announces k m)) := by
  have unstarted : x.starts k m = false := by
    rw [starts, on.count]
    exact decide_eq_false (Nat.lt_irrefl _)
  rw [restarts, on.calm, unstarted, drops_of_over elapsed.trans, Bool.false_or, Bool.false_or,
    Bool.false_or]

/-- Unless there is a change, all that matters is as it was. -/
theorem still (on : x.RunsOn k n m) (none : (x.resets k m || x.announces k m) = false) :
    (x.step m).wait k = x.wait k ∧
      ((x.step m).session.coordinator k).rescheduled = (x.session.coordinator k).rescheduled ∧
      (x.step m).session.announcedTo k = x.session.announcedTo k := by
  obtain ⟨calm, silent⟩ := Bool.or_eq_false_iff.mp none
  have announced := Nat.le_antisymm (Nat.le_of_not_lt (of_decide_eq_false silent)) on.listens
  rcases on.pace with ⟨current, wish⟩ | wish
  · exact ⟨congrArg Duration.timer current, wish, announced⟩
  · simp only [resets, wish, Bool.true_and, Bool.or_eq_false_iff, Bool.not_eq_false',
      bne_eq_false_iff_eq] at calm
    exact ⟨congrArg Duration.timer calm.2, wish.trans calm.1.symm, announced⟩

/-- A loop that waits wakes up early if there is a change, and otherwise if it did anyway. -/
theorem isQuiet_eq (on : x.RunsOn k n m) {place : Nat} {c : ContextId}
    (owner : c = (x.session.coordinator k).context) (listens : place ≤ x.session.announcedTo k) :
    (x.step m).isQuiet k n c place =
      (x.isQuiet k n c place && !(x.resets k m || x.announces k m)) := by
  rw [Clockwork.isQuiet_eq place on.before owner,
    Clockwork.isQuiet_eq place on.after (owner.trans on.owner.symm)]
  cases change : (x.resets k m || x.announces k m) with
  | false =>
    obtain ⟨-, wish, announced⟩ := on.still change
    rw [wish, announced, Bool.not_false, Bool.and_true]
  | true =>
    rw [Bool.not_true, Bool.and_false, Bool.and_eq_false_iff]
    rcases Bool.or_eq_true_iff.mp change with wish | announced
    · rw [(Bool.and_eq_true_iff.mp wish).1]
      exact .inl rfl
    · have announced := of_decide_eq_true announced
      exact .inr (decide_eq_false (by omega))

/-- **A loop that stays where it is.** -/
theorem sets (on : x.RunsOn k n m) (wound : x.Wound) (after : (x.step m).Wound) {t u : Errand}
    (ht : t ∈ x.traffic.errands) (hu : u ∈ (x.step m).traffic.errands)
    (number : t.number = u.number) (same : t.process = u.process)
    (loop : u.process.loopOf? k = some n) (due : (x.step m).due? u.number = x.due? u.number) :
    Sets x (x.step m) k u (x.restarts k m) := by
  have mine : t.process.loopOf? k = some n := same ▸ loop
  have past := wound.isOver_eq ht mine on.before
  have elapsed : (x.step m).isOver k = x.isOver k := by
    rw [past, after.isOver_eq hu loop on.after, due, on.now, number]
  have restarts_eq := on.restarts_eq elapsed
  cases set : x.due? t.number with
  | none =>
    have unset : (x.step m).due? u.number = none := by rw [due, ← number, set]
    rw [set, Option.any_none] at past
    cases change : (x.resets k m || x.announces k m) with
    | true => exact .anew (by rw [restarts_eq, past, change]; rfl) (deadline_of_unset unset)
    | false =>
      refine .stands (by rw [restarts_eq, past, change]; rfl) t ht n mine on.before ?_
      rw [deadline_of_unset unset, deadline_of_unset set, on.now, (on.still change).1]
  | some instant =>
    have set' : (x.step m).due? u.number = some instant := by rw [due, ← number, set]
    have ticks : t.process.ticks = true := by
      cases ticks : t.process.ticks with
      | true => rfl
      | false => rw [wound.unset ht ticks] at set; cases set
    rw [set, Option.any_some] at past
    by_cases passed : instant ≤ x.now
    · -- the loop wakes up before it hears of any change
      refine .stands (by rw [restarts_eq, past, decide_eq_true passed]; rfl) t ht n mine
        on.before ?_
      rw [deadline_of_over (same ▸ ticks) set' (on.now ▸ passed), deadline_of_over ticks set passed]
    · rw [decide_eq_false passed] at past
      obtain ⟨place, c, interval, waits⟩ := ticking_of_loop ticks mine
      obtain ⟨owner, listens, -⟩ : c = (x.session.coordinator k).context ∧
          place ≤ x.session.announcedTo k ∧ _ := by
        have inStep := wound.inStep t ht
        rw [waits] at inStep
        exact inStep on.before
      have deadline := deadline_of_set (k := k) (same ▸ waits) set'
      rw [decide_eq_false (on.now ▸ passed), Bool.false_or, on.isQuiet_eq owner listens]
        at deadline
      cases change : (x.resets k m || x.announces k m) with
      | true =>
        refine .anew (by rw [restarts_eq, past, change]; rfl) (deadline.trans (if_neg ?_))
        rw [change, Bool.not_true, Bool.and_false]
        exact Bool.false_ne_true
      | false =>
        refine .stands (by rw [restarts_eq, past, change]; rfl) t ht n mine on.before ?_
        rw [deadline, deadline_of_set waits set, decide_eq_false passed, Bool.false_or, change,
          Bool.not_false, Bool.and_true, on.now, (on.still change).1]

end RunsOn

/-- A loop that stays under way goes on, if it may still run. -/
theorem Wound.runsOn (wound : x.Wound) {m : Move} (after : (x.step m).Wound) {m' : Traffic.Move}
    (led : (x.step m).traffic = x.traffic.step m') {t u : Errand} (ht : t ∈ x.traffic.errands)
    (hu : u ∈ (x.step m).traffic.errands) (same : t.process = u.process)
    (now : (x.step m).now = x.now)
    (heeds : (x.session.coordinator k).Heeds ((x.step m).session.coordinator k))
    (calm : x.fires k m = false) {n : Nat} (loop : u.process.loopOf? k = some n)
    (runs : ((x.step m).session.coordinator k).runs n = true) : x.RunsOn k n m := by
  have timed := after.timed k
  obtain ⟨before, count, pace⟩ : (x.session.coordinator k).runs n = true ∧
      ((x.step m).session.coordinator k).loopCount = (x.session.coordinator k).loopCount ∧
      ((((x.step m).session.coordinator k).current = (x.session.coordinator k).current ∧
        ((x.step m).session.coordinator k).rescheduled = (x.session.coordinator k).rescheduled) ∨
        ((x.step m).session.coordinator k).rescheduled = true) := by
    simp only [session, led] at timed hu heeds runs ⊢
    exact (wound.timed k).stays timed ht hu same heeds loop runs
  refine ⟨now, calm, before, runs, ?_, ?_, count, pace⟩
  · rw [session, led]
    exact x.traffic.owner_step m' before
  · rw [session, session, led]
    exact x.traffic.announcedTo_le m' before

/-- **A loop that has entered** sets its timer for the first time. -/
theorem Wound.enters {m : Move} (after : (x.step m).Wound) {u : Errand}
    (hu : u ∈ (x.step m).traffic.errands) {n place : Nat} (loop : u.process = .loop k n place)
    (new : (x.session.coordinator k).loopCount ≤ n) :
    Sets x (x.step m) k u (x.restarts k m) := by
  have below := (after.timed k).lt hu (n := n) (by rw [loop]; exact if_pos rfl)
  have started : x.starts k m = true := decide_eq_true (Nat.lt_of_le_of_lt new below)
  refine .anew ?_ (deadline_of_quiet (by rw [loop]; rfl))
  rw [restarts, started, Bool.or_true, Bool.true_or, Bool.true_or]

/-- **A move of traffic**: a loop stays where it is, enters, or begins to wait. -/
theorem Wound.sets_moves (wound : x.Wound) {m' : Traffic.Move} (admitted : x.admits m' = true)
    (hy : x.step (.traffic m') = { x with traffic := x.traffic.step m' })
    (after : (x.step (.traffic m')).Wound) {u : Errand}
    (hu : u ∈ (x.step (.traffic m')).traffic.errands) {n : Nat}
    (loop : u.process.loopOf? k = some n)
    (runs : ((x.step (.traffic m')).session.coordinator k).runs n = true) :
    Sets x (x.step (.traffic m')) k u (x.restarts k (.traffic m')) := by
  have led : (x.step (.traffic m')).traffic = x.traffic.step m' := congrArg traffic hy
  have due (n : Nat) : (x.step (.traffic m')).due? n = x.due? n := by rw [hy]; rfl
  have now : (x.step (.traffic m')).now = x.now := by
    rw [Clockwork.now, session, led]
    exact x.traffic.now_step fun now same => by subst same; cases admitted
  have firings : (x.step (.traffic m')).traffic.firings k = x.traffic.firings k := by
    rw [led]
    exact firings_moves admitted k
  have calm : x.fires k (.traffic m') = false := by
    rw [fires, firings]
    exact decide_eq_false (Nat.lt_irrefl _)
  have origin := Traffic.loop_cases (wound.timed k) wound.started m' (led ▸ hu) loop
    (by rw [← led]; exact runs)
  rcases origin with ⟨t, ht, number, same, heeds⟩ | ⟨enters, new⟩ |
    ⟨⟨w, q, r⟩, others, answer, all, goes, number, goesOn⟩
  · rw [← led] at heeds
    have on := wound.runsOn after led ht hu same now heeds calm loop runs
    exact on.sets wound after ht hu number same loop (due _)
  · exact after.enters hu enters new
  · -- the loop begins to wait, and the session stays as it is
    have quiet := quiet_of_admits admitted goes
    have there := all.mem_iff.mpr List.mem_cons_self
    have mine : q.loopOf? k = some n :=
      (Process.loopOf?_of_goesOn (Process.goesOn goesOn)).symm.trans loop
    obtain ⟨place, rfl⟩ := loop_of_loop quiet mine
    obtain ⟨-, same⟩ := Process.sleeps goesOn
    have session : (x.step (.traffic m')).session = { x.session with started := [] } := by
      rw [session, led, goes]
      exact congrArg (fun s : Session => { s with started := [] }) same
    have coordinator : (x.step (.traffic m')).session.coordinator k = x.session.coordinator k := by
      rw [session]
      rfl
    have may : (x.session.coordinator k).runs n = true := coordinator ▸ runs
    have ahead : x.isOver k = false := by
      rw [wound.isOver_eq there mine may, wound.unset there quiet]
      rfl
    refine .stands (restarts_of_same firings (by simp [ahead])
      (congrArg Coordinator.loopCount coordinator) (.inr coordinator) (by rw [session]; rfl)) _
      there n mine may ?_
    have unset : (x.step (.traffic m')).due? u.number = none := by
      rw [due, number]
      exact wound.unset there quiet
    rw [deadline_of_unset unset, deadline_of_quiet quiet, now, wait, wait, coordinator]

/-- **A loop that wakes up before its time** at most takes the wish for a new timer. -/
theorem wakes_early {s : Session} {n place : Nat} {c : ContextId} {interval : Duration}
    {tick : Tick} {q : Process} (early : tick ≠ .due)
    (h : ((Process.ticking k n place c interval).resume s tick).2 = .inl q) :
    let t := ((Process.ticking k n place c interval).resume s tick).1
    (t.coordinator k).loopCount = (s.coordinator k).loopCount ∧
      ((t.coordinator k).rescheduled = false ∨ t.coordinator k = s.coordinator k) ∧
      t.announcedTo k = s.announcedTo k ∧
      (t.coordinator k).current = (s.coordinator k).current := by
  obtain ⟨runs, -⟩ := Process.wakes h
  simp only [Process.resume, Process.resumeLoop, runs, Bool.not_true, Bool.false_eq_true,
    if_false] at h ⊢
  cases tick with
  | due => exact absurd rfl early
  | rescheduled =>
    have taken := Session.coordinator_setCoordinator (s.coordinator k).takeReschedule
      (Session.made_of_runs runs)
    simp only [Session.announcedTo, taken]
    exact ⟨rfl, .inl rfl, rfl, rfl⟩
  | announced =>
    simp only at h ⊢
    split at h
    · cases h
    · exact ⟨rfl, .inr rfl, rfl, rfl⟩

/-- A loop that wakes up for another reason than its timer has one. -/
theorem isQuiet_of_early {n place : Nat} {j : CoordinatorId} {c : ContextId} {due? : Option Nat}
    {first tick : Tick} (early : tick ≠ .due)
    (calls : (x.world first).tickNow? j n c place due? = some tick) :
    x.isQuiet j n c place = false := by
  refine Bool.eq_false_iff.mpr fun quiet => ?_
  have some_reason := Host.World.isSome_earlyTick? early calls
  rw [(isQuiet_iff first).mp quiet] at some_reason
  cases some_reason

/-- A loop that wakes up before its time was to set its timer now. -/
theorem deadline_of_early {w n place : Nat} {j : CoordinatorId} {c : ContextId}
    {interval : Duration} {reply : Option Tick} (called : x.isQuiet j n c place = false)
    (ahead : (x.due? w).any (· ≤ x.now) = false) :
    x.deadline k ⟨w, .ticking j n place c interval, reply⟩ = x.now + x.wait k := by
  cases set : x.due? w with
  | none => exact deadline_of_unset set
  | some due =>
    rw [set, Option.any_some] at ahead
    rw [deadline_of_set rfl set, ahead, called]
    rfl

/-- While another of its loops may run, a loop fires nothing. -/
theorem calm_of_other (timed : x.traffic.Timed k) {m : Move} {others : List Errand} {t u : Errand}
    {answer : t.process.need.Answer} (all : x.traffic.errands.Perm (t :: others))
    (led : (x.step m).traffic = x.traffic.resumed others t answer) (other : u ∈ others) {n : Nat}
    (loop : u.process.loopOf? k = some n) (runs : (x.session.coordinator k).runs n = true) :
    x.fires k m = false := by
  refine decide_eq_false fun more => ?_
  rw [led, firings_resumed] at more
  cases fires : (Event.stepped t.number t.process answer x.traffic.session).firesFor k with
  | false =>
    rw [fires] at more
    exact Nat.lt_irrefl _ more
  | true =>
    obtain ⟨mine, loop', runs', -⟩ := Process.fires fires
    have stopped := timed.alone all loop' runs' other loop
    rw [runs] at stopped
    cases stopped

/-- Once its loop has woken up, the timer of a coordinator is not over any more. -/
theorem Wound.isOver_woken (wound : x.Wound) {m : Move} (after : (x.step m).Wound) {w n place : Nat}
    {others : List Errand} {c : ContextId} {interval : Duration} {reply : Option Tick} {tick : Tick}
    (all : x.traffic.errands.Perm (⟨w, .ticking k n place c interval, reply⟩ :: others))
    (led : (x.step m).traffic =
      x.traffic.resumed others ⟨w, .ticking k n place c interval, reply⟩ tick)
    (may : (x.session.coordinator k).runs n = true) : (x.step m).isOver k = false := by
  refine List.any_eq_false.mpr fun u hu past => ?_
  obtain ⟨runs, past⟩ := Bool.and_eq_true_iff.mp past
  obtain ⟨n', loop, runs⟩ := (Option.any_eq_true _ _).mp runs
  -- a loop that may run is not one of the others, so it does not wait for a tick
  have quiet : u.process.ticks = false := by
    rcases Traffic.loop_resumed (wound.timed k) wound.started all (led ▸ hu) loop (led ▸ runs) with
      ⟨other, heeds⟩ | ⟨enters, -⟩ | ⟨-, goesOn⟩
    · have hu' : u ∈ x.traffic.errands := all.mem_iff.mpr (List.mem_cons_of_mem _ other)
      have still := (heeds.runs n' ((wound.timed k).lt hu' loop) (led ▸ runs)).1
      rw [(wound.timed k).alone all (if_pos rfl) may other loop] at still
      cases still
    · rw [enters]
      rfl
    · obtain ⟨-, next, same, -⟩ := Process.wakes goesOn
      rw [same]
      rfl
  rw [after.unset hu quiet] at past
  cases past

/-- **The loop that wakes up** has fired or given its timer up, or sets its timer anew, as it was
about to. -/
theorem Wound.sets_woken (wound : x.Wound) {i w n place : Nat} {first : Tick}
    {others : List Errand} {c : ContextId} {interval : Duration} {reply : Option Tick} {tick : Tick}
    (all : x.traffic.errands.Perm (⟨w, .ticking k n place c interval, reply⟩ :: others))
    (calls : (x.world first).tickNow? k n c place (x.due? w) = some tick)
    (led : (x.step (.poll i first)).traffic =
      x.traffic.resumed others ⟨w, .ticking k n place c interval, reply⟩ tick)
    (now : (x.step (.poll i first)).now = x.now) (after : (x.step (.poll i first)).Wound)
    {u : Errand} (hu : u ∈ (x.step (.poll i first)).traffic.errands)
    (runs : ((x.step (.poll i first)).session.coordinator k).runs n = true)
    (goesOn : ((Process.ticking k n place c interval).resume x.session tick).2 = .inl u.process) :
    Sets x (x.step (.poll i first)) k u (x.restarts k (.poll i first)) := by
  obtain ⟨may, next, same, -⟩ := Process.wakes goesOn
  have there := all.mem_iff.mpr List.mem_cons_self
  have anew : (x.step (.poll i first)).deadline k u =
      (x.step (.poll i first)).now + (x.step (.poll i first)).wait k :=
    deadline_of_quiet (by rw [same]; rfl)
  have firings := firings_woken led may
  by_cases past : tick = .due
  · rw [decide_eq_true past] at firings
    have fires : x.fires k (.poll i first) = true :=
      decide_eq_true (firings ▸ Nat.lt_succ_self _)
    exact .anew (by rw [restarts, fires]; rfl) anew
  · rw [decide_eq_false past] at firings
    have before : x.isOver k = (x.due? w).any (· ≤ x.now) :=
      wound.isOver_eq there (if_pos rfl) may
    cases elapsed : (x.due? w).any (· ≤ x.now) with
    | true =>
      -- the timer is over, but the loop has found another reason first
      have calm : x.fires k (.poll i first) = false :=
        decide_eq_false (Nat.not_lt.mpr (Nat.le_of_eq firings))
      have active : ((x.step (.poll i first)).session.coordinator k).active = true :=
        (after.timed k).isActive hu (by rw [same]; exact if_pos rfl) runs
      have drops : x.drops k (.poll i first) = true := by
        rw [drops, before, elapsed, calm, wound.isOver_woken after all led may, active]
        rfl
      exact .anew (by rw [restarts, drops, Bool.or_true, Bool.true_or]) anew
    | false =>
      obtain ⟨count, wish, announced, current⟩ := wakes_early past goesOn
      have session : (x.step (.poll i first)).session =
          { ((Process.ticking k n place c interval).resume x.session tick).1 with
            started := [] } := by
        rw [session, led]
        rfl
      have calm : x.restarts k (.poll i first) = false :=
        restarts_of_same firings (by simp [before, elapsed]) (session ▸ count) (session ▸ wish)
          (session ▸ announced)
      have wait : (x.step (.poll i first)).wait k = x.wait k := by
        rw [Clockwork.wait, Clockwork.wait, session]
        exact congrArg Duration.timer current
      refine .stands calm _ there n (if_pos rfl) may ?_
      rw [anew, now, wait, deadline_of_early (isQuiet_of_early past calls) elapsed]

/-- **A loop wakes up.** -/
theorem Wound.sets_wakes (wound : x.Wound) {i w : Nat} {first : Tick} {others : List Errand}
    {j : CoordinatorId} {number place : Nat} {c : ContextId} {interval : Duration}
    {reply : Option Tick} {tick : Tick}
    (all : x.traffic.errands.Perm (⟨w, .ticking j number place c interval, reply⟩ :: others))
    (calls : (x.world first).tickNow? j number c place (x.due? w) = some tick)
    (goes : x.traffic.step (.go i (.waking tick)) =
      x.traffic.resumed others ⟨w, .ticking j number place c interval, reply⟩ tick)
    (hy : x.step (.poll i first) =
      x.woken others ⟨w, .ticking j number place c interval, reply⟩ tick)
    (after : (x.step (.poll i first)).Wound) {u : Errand}
    (hu : u ∈ (x.step (.poll i first)).traffic.errands) {n : Nat}
    (loop : u.process.loopOf? k = some n)
    (runs : ((x.step (.poll i first)).session.coordinator k).runs n = true) :
    Sets x (x.step (.poll i first)) k u (x.restarts k (.poll i first)) := by
  have led : (x.step (.poll i first)).traffic =
      x.traffic.resumed others ⟨w, .ticking j number place c interval, reply⟩ tick :=
    congrArg traffic hy
  have now : (x.step (.poll i first)).now = x.now := by
    rw [hy]
    exact Process.now_resume _ _ _
  rcases Traffic.loop_resumed (wound.timed k) wound.started all (led ▸ hu) loop (led ▸ runs) with
    ⟨other, heeds⟩ | ⟨enters, new⟩ | ⟨-, goesOn⟩
  · have hu' : u ∈ x.traffic.errands := all.mem_iff.mpr (List.mem_cons_of_mem _ other)
    have apart : u.number ≠ w := by
      intro same
      have nodup := (all.map Errand.number).nodup_iff.mp wound.coherent.nodup
      exact (List.nodup_cons.mp nodup).1 (List.mem_map.mpr ⟨u, other, same⟩)
    have due : (x.step (.poll i first)).due? u.number = x.due? u.number := by
      rw [hy, due?_woken, if_neg apart]
    have may := (heeds.runs n ((wound.timed k).lt hu' loop) (led ▸ runs)).1
    have calm : x.fires k (.poll i first) = false :=
      calm_of_other (wound.timed k) all led other loop may
    rw [← led] at heeds
    have on := wound.runsOn after (led.trans goes.symm) hu' hu rfl now heeds calm loop runs
    exact on.sets wound after hu' hu rfl rfl loop due
  · rw [← led] at enters
    exact after.enters hu enters new
  · obtain ⟨-, next, same, -⟩ := Process.wakes goesOn
    have mine : (Process.loop j number next).loopOf? k = some n := same ▸ loop
    obtain ⟨rfl, rfl⟩ : j = k ∧ number = n := by
      simpa [Process.loopOf?, Option.ite_none_right_eq_some] using mine
    exact wound.sets_woken all calls led now after hu runs goesOn

/-- To set a timer leaves over what is over. -/
theorem over_timed {w : Nat} {interval : Duration} (unset : x.due? w = none)
    (elapsed : x.isOver k = true) : (x.timed w interval).isOver k = true := by
  obtain ⟨t, ht, past⟩ := List.any_eq_true.mp elapsed
  refine List.any_eq_true.mpr ⟨t, ht, ?_⟩
  have other : t.number ≠ w := by
    rintro rfl
    rw [unset, Option.any_none, Bool.and_false] at past
    cases past
  rw [due?_timed, if_neg other]
  exact past

/-- **A loop sets its timer**: it is over when it was to be. -/
theorem Wound.sets_timed (wound : x.Wound) {i w : Nat} {first : Tick} {j : CoordinatorId}
    {number place : Nat} {c : ContextId} {interval : Duration} {reply : Option Tick}
    (there : ⟨w, .ticking j number place c interval, reply⟩ ∈ x.traffic.errands)
    (unset : x.due? w = none) (quiet : x.isQuiet j number c place = true)
    (hy : x.step (.poll i first) = x.timed w interval) {u : Errand}
    (hu : u ∈ (x.step (.poll i first)).traffic.errands) {n : Nat}
    (loop : u.process.loopOf? k = some n)
    (runs : ((x.step (.poll i first)).session.coordinator k).runs n = true) :
    Sets x (x.step (.poll i first)) k u (x.restarts k (.poll i first)) := by
  have led : (x.step (.poll i first)).traffic = x.traffic := by rw [hy]; rfl
  have calm : x.restarts k (.poll i first) = false :=
    restarts_of_same (by rw [led]) (by rw [hy]; exact over_timed unset) (by rw [session, led])
      (.inr (by rw [session, led])) (by rw [session, led])
  rw [led] at hu
  rw [session, led] at runs
  refine .stands calm u hu n loop runs ?_
  have due := due?_timed x w interval u.number
  rw [hy]
  by_cases same : u.number = w
  · obtain rfl := wound.eq_of_number hu there same
    obtain ⟨rfl, rfl⟩ : j = k ∧ number = n := by
      simpa [Process.loopOf?, Option.ite_none_right_eq_some] using loop
    obtain ⟨wish, -⟩ := Host.World.earlyTick?_eq_none_iff.mp
      ((isQuiet_iff .due).mp quiet)
    obtain ⟨-, -, rfl | wish'⟩ := wound.inStep _ hu runs
    · have waits : (x.timed w (x.session.coordinator j).current).isQuiet j number c place = true :=
        quiet
      rw [if_pos rfl] at due
      rw [deadline_of_set rfl due, deadline_of_unset unset, waits, Bool.or_true, if_pos rfl]
      rfl
    · rw [show (x.world .due).session = x.session from rfl, wish'] at wish
      cases wish
  · rw [if_neg same] at due
    simp only [deadline, due]
    rfl

/-- **Time passes** over no timer, and nobody has anything to do. -/
theorem Wound.sets_elapsed (wound : x.Wound) {instant : Nat} (rests : x.isAtRest instant = true)
    (hy : x.step (.elapse instant) =
      { x with traffic := x.traffic.step (.deed (.setClock instant)) })
    {u : Errand} (hu : u ∈ (x.step (.elapse instant)).traffic.errands) {n : Nat}
    (loop : u.process.loopOf? k = some n)
    (runs : ((x.step (.elapse instant)).session.coordinator k).runs n = true) :
    Sets x (x.step (.elapse instant)) k u (x.restarts k (.elapse instant)) := by
  have session : (x.step (.elapse instant)).session =
      { x.session with now := instant, started := [] } := by
    rw [hy]
    rfl
  obtain ⟨later, asleep⟩ := Bool.and_eq_true_iff.mp rests
  have elapsed (past : x.isOver k = true) : (x.step (.elapse instant)).isOver k = true := by
    rw [hy]
    obtain ⟨t, ht, past⟩ := List.any_eq_true.mp past
    refine List.any_eq_true.mpr ⟨t, List.mem_append_left _ ht, ?_⟩
    obtain ⟨may, past⟩ := Bool.and_eq_true_iff.mp past
    refine Bool.and_eq_true_iff.mpr ⟨may, ?_⟩
    obtain ⟨due, set, past⟩ := (Option.any_eq_true _ _).mp past
    exact (Option.any_eq_true _ _).mpr ⟨due, set,
      decide_eq_true (Nat.le_trans (of_decide_eq_true past) (of_decide_eq_true later))⟩
  have calm : x.restarts k (.elapse instant) = false :=
    restarts_of_same (by rw [hy]; rfl) elapsed (by rw [session]; rfl) (.inr (by rw [session]; rfl))
      (by rw [session]; rfl)
  have there : u ∈ x.traffic.errands := by
    have none : ((Deed.setClock instant).apply x.session).started = [] := wound.started
    rw [hy] at hu
    rcases List.mem_append.mp hu with there | new
    · exact there
    · rw [none] at new
      cases new
  rw [session] at runs
  refine .stands calm u there n loop runs ?_
  have sleeps := List.all_eq_true.mp asleep u there
  cases ticks : u.process.ticks with
  | false =>
    -- a loop that does not wait for a tick has something to do
    obtain ⟨place, at_loop⟩ := loop_of_loop ticks loop
    rw [sleepsUntil, at_loop] at sleeps
    cases sleeps
  | true =>
    obtain ⟨place, c, interval, waits⟩ := ticking_of_loop ticks loop
    rw [sleepsUntil, waits] at sleeps
    obtain ⟨set, quiet⟩ := Bool.and_eq_true_iff.mp sleeps
    cases set' : x.due? u.number with
    | none => rw [set'] at set; cases set
    | some due =>
      have later : (x.step (.elapse instant)).due? u.number = some due := by rw [hy]; exact set'
      have quiet' : (x.step (.elapse instant)).isQuiet k n c place = true := by
        rw [hy]
        exact quiet
      rw [deadline_of_set waits later, deadline_of_set waits set', quiet, quiet', Bool.or_true,
        Bool.or_true, if_pos rfl, if_pos rfl]

/-- **Every move** sets the timer of a coordinator anew, or leaves its deadline. -/
theorem Wound.sets_step (wound : x.Wound) {m : Move} (after : (x.step m).Wound) {u : Errand}
    (hu : u ∈ (x.step m).traffic.errands) {n : Nat} (loop : u.process.loopOf? k = some n)
    (runs : ((x.step m).session.coordinator k).runs n = true) :
    Sets x (x.step m) k u (x.restarts k m) := by
  have does := x.step_does m
  generalize hy : x.step m = y at does
  cases does with
  | nothing =>
    have calm : x.restarts k m = false :=
      restarts_of_same (by rw [hy]) (by rw [hy]; exact id) (by rw [hy]) (.inr (by rw [hy]))
        (by rw [hy])
    rw [hy] at hu runs
    exact .stands calm u hu n loop runs rfl
  | moves admitted => exact hy ▸ wound.sets_moves admitted hy after hu loop runs
  | wakes i first all calls goes => exact hy ▸ wound.sets_wakes all calls goes hy after hu loop runs
  | sets i first there unset quiet => exact hy ▸ wound.sets_timed there unset quiet hy hu loop runs
  | elapses rests => exact hy ▸ wound.sets_elapsed rests hy hu loop runs

theorem Wound.stands_anew (wound : x.Wound) {m : Move} (after : (x.step m).Wound)
    (restart : x.restarts k m = true) :
    (x.step m).Stands k ((x.step m).now + (x.step m).wait k) := by
  intro u hu n loop runs
  cases wound.sets_step after hu loop runs with
  | anew _ deadline => exact deadline
  | stands calm => rw [restart] at calm; cases calm

theorem Wound.stands_step (wound : x.Wound) {m : Move} (after : (x.step m).Wound) {instant : Nat}
    (stands : x.Stands k instant) (calm : x.restarts k m = false) :
    (x.step m).Stands k instant := by
  intro u hu n loop runs
  cases wound.sets_step after hu loop runs with
  | anew restart => rw [calm] at restart; cases restart
  | stands _ t ht number loop' runs' deadline =>
    exact deadline.trans (stands t ht number loop' runs')

/-! ## 4. Firing on time -/

/-- No timer is over at once. -/
theorem timer_pos {d : Duration} (long : Autosave.shortestInterval.nanos ≤ d.nanos) :
    0 < d.timer := by
  have second : 1000000000 ≤ d.nanos := long
  refine Nat.lt_min.mpr ⟨?_, by decide⟩
  simp only [Duration.millisUp, nanosPerMilli]
  omega

/-- No timer is left behind by the time. -/
theorem Wound.now_le_deadline (wound : x.Wound) (k : CoordinatorId) (t : Errand) :
    x.now ≤ x.deadline k t := by
  unfold deadline
  split
  · next set =>
    split
    · exact (wound.timers _ _ set).1
    · exact Nat.le_add_right _ _
  · exact Nat.le_add_right _ _

/-- **A loop that fires** was to, at this instant, and takes no time. -/
theorem Wound.fires_at (wound : x.Wound) {m : Move} (fires : x.fires k m = true) :
    (x.step m).now = x.now ∧ ∃ t ∈ x.traffic.errands, ∃ n, t.process.loopOf? k = some n ∧
      (x.session.coordinator k).runs n = true ∧ x.deadline k t = x.now := by
  have more : x.traffic.firings k < (x.step m).traffic.firings k := of_decide_eq_true fires
  have does := x.step_does m
  generalize x.step m = y at does more ⊢
  cases does with
  | nothing => exact absurd more (Nat.lt_irrefl _)
  | moves admitted => exact absurd more (by rw [firings_moves admitted]; exact Nat.lt_irrefl _)
  | sets => exact absurd more (Nat.lt_irrefl _)
  | elapses => exact absurd more (Nat.lt_irrefl _)
  | @wakes i first others w j number place c interval reply tick all calls goes =>
    rw [woken, firings_resumed] at more
    cases fires : (Event.stepped w (.ticking j number place c interval) tick
        x.traffic.session).firesFor k with
    | false =>
      rw [fires] at more
      exact absurd more (Nat.lt_irrefl _)
    | true =>
      obtain ⟨n, loop, runs, -⟩ := Process.fires fires
      refine ⟨Process.now_resume _ _ _, _, all.mem_iff.mpr List.mem_cons_self, n, loop, runs, ?_⟩
      have past : (x.due? w).any (· ≤ x.now) = true := by
        cases tick with
        | due => exact Host.World.hasReason_of_tickNow? calls
        | _ => cases fires
      cases set : x.due? w with
      | none => rw [set] at past; cases past
      | some due =>
        rw [set] at past
        have passed : due ≤ x.now := of_decide_eq_true past
        rw [deadline_of_over rfl set passed]
        exact Nat.le_antisymm passed (wound.timers w due set).1

/-- The loop of the coordinator waits, and has another reason to wake up than its timer: the wish
for a new one, or something that the context has announced. -/
def isCalled (x : Clockwork) (k : CoordinatorId) : Bool :=
  x.traffic.errands.any fun t =>
    match t.process with
    | .ticking j number place c _ =>
      j == k && (x.session.coordinator k).runs number && !x.isQuiet j number c place
    | _ => false

/-- **A loop whose timer is over** wakes up when it looks, whatever it looks for first: it fires, or
it has been called and gives its timer up, if it does not end. -/
theorem Wound.wakes_of_deadline (wound : x.Wound) (after : ∀ m, (x.step m).Wound) {t : Errand}
    (ht : t ∈ x.traffic.errands) {n : Nat} (loop : t.process.loopOf? k = some n)
    (runs : (x.session.coordinator k).runs n = true) (now : x.deadline k t = x.now) :
    ∃ i, ∀ first, x.fires k (.poll i first) = true ∨
      first ≠ .due ∧ x.isCalled k = true ∧
        (((x.step (.poll i first)).session.coordinator k).active = true →
          x.drops k (.poll i first) = true) := by
  have wait : 0 < x.wait k :=
    timer_pos (Nat.le_trans (wound.paced k).shortest (wound.paced k).least)
  have apart : x.now + x.wait k ≠ x.now := by omega
  cases ticks : t.process.ticks with
  | false => exact absurd ((deadline_of_quiet ticks).symm.trans now) apart
  | true =>
    obtain ⟨w, p, reply⟩ := t
    obtain ⟨place, c, interval, rfl⟩ := ticking_of_loop ticks loop
    have elapsed : (x.due? w).any (· ≤ x.now) = true := by
      cases set : x.due? w with
      | none => exact absurd ((deadline_of_unset set).symm.trans now) apart
      | some due =>
        rw [deadline_of_set rfl set] at now
        split at now
        · exact decide_eq_true (Nat.le_of_eq now)
        · exact absurd now apart
    obtain ⟨i, there⟩ := List.mem_iff_getElem?.mp ht
    refine ⟨i, fun first => ?_⟩
    cases calls : (x.world first).tickNow? k n c place (x.due? w) with
    | none =>
      have unset := Host.World.tickNow?_eq_none_iff.mp calls .due
      exact absurd (unset.symm.trans elapsed) Bool.false_ne_true
    | some tick =>
      obtain ⟨others, all, goes, wakes⟩ := x.poll_waking there calls
      have led : (x.step (.poll i first)).traffic =
          x.traffic.resumed others ⟨w, .ticking k n place c interval, reply⟩ tick :=
        congrArg traffic wakes
      have firings := firings_woken led runs
      by_cases timer : tick = .due
      · rw [decide_eq_true timer] at firings
        exact .inl (decide_eq_true (firings ▸ Nat.lt_succ_self _))
      · rw [decide_eq_false timer] at firings
        have calm : x.fires k (.poll i first) = false :=
          decide_eq_false (Nat.not_lt.mpr (Nat.le_of_eq firings))
        refine .inr ⟨?_, ?_, fun active => ?_⟩
        · rintro rfl
          exact timer (Option.some.inj (calls.symm.trans (Host.World.tickNow?_of_first elapsed)))
        · refine List.any_eq_true.mpr ⟨_, ht, ?_⟩
          simp [runs, isQuiet_of_early timer calls]
        · rw [drops, wound.isOver_eq ht (if_pos rfl) runs, elapsed, calm,
            wound.isOver_woken (after _) all led runs, active]
          rfl

/-- A move undoes no firing, and no attempt that has begun. -/
theorem counts_step (x : Clockwork) (m : Move) (k : CoordinatorId) :
    x.traffic.firings k ≤ (x.step m).traffic.firings k ∧
      x.traffic.begun k ≤ (x.step m).traffic.begun k := by
  rcases x.traffic_step m with same | ⟨m', same, -⟩
  · rw [same]
    exact ⟨Nat.le_refl _, Nat.le_refl _⟩
  · obtain ⟨e, does⟩ := x.traffic.step_does m'
    rw [same, Traffic.firings, Traffic.firings, Traffic.begun, Traffic.begun, does.log,
      List.countP_append, List.countP_append]
    exact ⟨Nat.le_add_right _ _, Nat.le_add_right _ _⟩

/-- **No time passes** while an attempt is to begin. -/
theorem now_of_due (x : Clockwork) (m : Move) (some_due : 0 < x.traffic.due k) :
    (x.step m).now = x.now := by
  have does := x.step_does m
  generalize x.step m = y at does ⊢
  cases does with
  | nothing => rfl
  | moves admitted => exact x.traffic.now_step fun now same => by subst same; cases admitted
  | wakes => exact Process.now_resume _ _ _
  | sets => rfl
  | elapses rests =>
    obtain ⟨t, ht, due⟩ := List.countP_pos_iff.mp some_due
    obtain ⟨-, asleep⟩ := Bool.and_eq_true_iff.mp rests
    have sleeps := List.all_eq_true.mp asleep t ht
    rw [sleepsUntil] at sleeps
    generalize t.process = p at due sleeps
    cases p with
    | attempt j a =>
      cases a with
      | due => cases sleeps
      | _ => cases due
    | _ => cases due

variable (config : Settings) (store : MemoryStore)

/-- **What has fired begins** before any time passes. -/
theorem begins_in_time (moves : List Move) (k : CoordinatorId) (later : List Move) :
    let x := (start (.create config) store).run moves
    x.now < (x.run later).now → x.traffic.firings k ≤ (x.run later).traffic.begun k := by
  intro x passes
  have still : x.traffic.firings k ≤ (x.run later).traffic.firings k ∧
      ((x.run later).now = x.now ∨ x.traffic.firings k ≤ (x.run later).traffic.begun k) := by
    clear passes
    induction later using List.reverseRecOn with
    | nil => exact ⟨Nat.le_refl _, .inl rfl⟩
    | append_singleton later m ih =>
      obtain ⟨fired, ih⟩ := ih
      have even := (steady_run config store (moves ++ later)).even k
      rw [run_append] at even
      rw [run_concat]
      obtain ⟨firings, begun⟩ := (x.run later).counts_step m k
      refine ⟨Nat.le_trans fired firings, ?_⟩
      rcases ih with same | begins
      · by_cases some_due : 0 < (x.run later).traffic.due k
        · exact .inl (((x.run later).now_of_due m some_due).trans same)
        · have even : (x.run later).traffic.firings k =
              (x.run later).traffic.begun k + (x.run later).traffic.due k := even
          exact .inr (by omega)
      · exact .inr (Nat.le_trans begins begun)
  rcases still.2 with same | begins
  · rw [same] at passes
    exact absurd passes (Nat.lt_irrefl _)
  · exact begins

/-- **A deadline stands** until the timer is set anew. -/
theorem stands_run {moves between : List Move} {instant : Nat}
    (stands : ((start (.create config) store).run moves).Stands k instant)
    (calm : ((start (.create config) store).run moves).throughout (fun x m => !x.restarts k m)
      between = true) :
    ((start (.create config) store).run (moves ++ between)).Stands k instant := by
  induction between generalizing moves with
  | nil => rwa [List.append_nil]
  | cons m between ih =>
    obtain ⟨calm, later⟩ := Bool.and_eq_true_iff.mp calm
    have before := wound_run config store moves
    have after := wound_run config store (moves ++ [m])
    rw [← run_concat] at later
    rw [run_concat] at after
    rw [List.append_cons]
    refine ih ?_ later
    rw [run_concat]
    exact before.stands_step after stands (by simpa using calm)

/-- **Autosave is on time.**  A move sets the timer of a coordinator anew (`restarts`): it fires,
the coordinator is started, or, with the timer not over, its interval is set or adapts to a save, or
its context announces something; or, with the timer over, the loop wakes up for one of these reasons
instead.  As long as no later move does and the coordinator is active, the deadline is the instant
that is the current interval after that move, whatever else happens: no time passes over it; the
timer fires at it, and not before, and the attempt begins before time passes; and once it has come,
the loop wakes up as soon as it looks.  Then it fires, if it looks at its timer first or has no
other reason to wake up, and otherwise it either fires or sets its timer anew. -/
theorem fires_on_time (first : List Move) (m : Move) (between : List Move) (k : CoordinatorId) :
    let x := (start (.create config) store).run first
    let y := x.step m
    let z := y.run between
    let deadline := y.now + (y.session.coordinator k).current.timer
    x.restarts k m = true → y.throughout (fun x m => !x.restarts k m) between = true →
    (z.session.coordinator k).active = true →
    z.now ≤ deadline ∧
      (∀ last, z.fires k last = true → z.now = deadline ∧
        ∀ later, z.now < ((z.step last).run later).now →
          (z.step last).traffic.firings k ≤ ((z.step last).run later).traffic.begun k) ∧
      (z.now = deadline → ∃ i, ∀ tick, z.fires k (.poll i tick) = true ∨
        tick ≠ .due ∧ z.isCalled k = true ∧
          (((z.step (.poll i tick)).session.coordinator k).active = true →
            z.drops k (.poll i tick) = true)) := by
  intro x y z deadline restart calm active
  have ran : z = (start (.create config) store).run (first ++ [m] ++ between) := by
    rw [run_append, run_concat]
  have before : x.Wound := wound_run config store first
  have after : y.Wound := by
    have after := wound_run config store (first ++ [m])
    rwa [run_concat] at after
  have wound : z.Wound := ran ▸ wound_run config store (first ++ [m] ++ between)
  have next (last : Move) : (z.step last).Wound := by
    have next := wound_run config store (first ++ [m] ++ between ++ [last])
    rwa [run_concat, ← ran] at next
  have stands : z.Stands k deadline := by
    have anew : y.Stands k deadline := before.stands_anew after restart
    rw [ran]
    refine stands_run config store ?_ ?_
    · rw [run_concat]
      exact anew
    · rw [run_concat]
      exact calm
  obtain ⟨t, ht, n, loop, runs⟩ := (wound.timed k).of_active active
  have now := stands t ht n loop runs
  refine ⟨now ▸ wound.now_le_deadline k t, fun last fires => ?_,
    fun past => wound.wakes_of_deadline next ht loop runs (now.trans past.symm)⟩
  obtain ⟨at_once, u, hu, n', loop', runs', instant⟩ := wound.fires_at fires
  refine ⟨instant.symm.trans (stands u hu n' loop' runs'), fun later passes => ?_⟩
  have begins := begins_in_time config store (first ++ [m] ++ between ++ [last]) k later
  rw [run_concat, ← ran] at begins
  exact begins (at_once ▸ passes)

/-- A document is loaded, and a coordinator is made for it, -/
def coordinatesFirst : List Move :=
  Traffic.loadsFirst.map .traffic ++ [.traffic (.deed (.newCoordinator 0 (.ofMillis 1000)))]

/-- which is started. -/
def startsFirst : Move := .traffic (.deed (.startCoordinator 0))

/-- The document is edited meanwhile, and a second passes. -/
def editsInTime : List Move :=
  [.traffic (.go 0 Traffic.timely), .poll 0 .due, .elapse 600, .traffic (Traffic.edits "mine"),
    .elapse 1000]

theorem fires_on_time_editsInTime :
    let x := (start (.create {}) Commons.firstStore).run coordinatesFirst
    let y := x.step startsFirst
    let z := y.run editsInTime
    let fired := z.step (.poll 0 .due)
    x.restarts 0 startsFirst = true ∧
      y.throughout (fun x m => !x.restarts 0 m) editsInTime = true ∧
      (z.session.coordinator 0).active = true ∧ z.now = 1000 ∧
      (∃ i, ∀ tick, z.fires 0 (.poll i tick) = true) ∧ z.fires 0 (.poll 0 .due) = true ∧
      fired.traffic.firings 0 = 1 ∧ fired.traffic.begun 0 = 0 ∧
      ∀ later, z.now < (fired.run later).now →
        fired.traffic.firings 0 ≤ (fired.run later).traffic.begun 0 := by
  obtain ⟨-, on_time, past⟩ := fires_on_time {} Commons.firstStore coordinatesFirst startsFirst
    editsInTime 0 (by decide +kernel) (by decide +kernel) (by decide +kernel)
  dsimp only
  obtain ⟨i, wakes⟩ := past (by decide +kernel)
  refine ⟨by decide +kernel, by decide +kernel, by decide +kernel, by decide +kernel,
    ⟨i, fun tick => (wakes tick).resolve_right fun ⟨_, called, _⟩ => ?_⟩, by decide +kernel,
    by decide +kernel, by decide +kernel, (on_time (.poll 0 .due) (by decide +kernel)).2⟩
  -- nobody has called the loop
  exact absurd called (by decide +kernel)

/-- The document is edited, saved by hand, and edited again while the timer runs. -/
def savesInTime : List Move :=
  [.traffic (.go 0 Traffic.timely), .poll 0 .due, .traffic (Traffic.edits "mine"), .elapse 600] ++
    (Traffic.operates .save 1 ++ Traffic.returns 1 ++ [Traffic.edits "more"]).map .traffic ++
    [.poll 0 .due, .traffic (.go 0 Traffic.timely), .poll 0 .due, .traffic (.go 0 Traffic.timely),
      .poll 0 .due, .elapse 1200]

/-- **What a context announces puts autosave off.**  The coordinator is started and neither fires,
nor is started again, nor has its interval changed; but when the second is over that it was to wait,
time passes, and the document is left unsaved.  The timer fires a second after the save by hand. -/
theorem announcement_postpones :
    let x := (start (.create {}) Commons.firstStore).run coordinatesFirst
    let y := x.step startsFirst
    let z := y.run savesInTime
    let w := z.step (.elapse 1600)
    x.starts 0 startsFirst = true ∧
      y.throughout (fun x m => !(x.fires 0 m || x.starts 0 m || x.resets 0 m)) savesInTime = true ∧
      y.now + (y.session.coordinator 0).current.timer = 1000 ∧
      z.now = 1200 ∧ z.traffic.firings 0 = 0 ∧ (z.session.coordinator 0).active = true ∧
      (z.session.context 0).model.dirty = true ∧
      w.now = 1600 ∧ w.traffic.firings 0 = 0 ∧ w.fires 0 (.poll 0 .due) = true := by
  decide +kernel

/-- The document is edited, and saved by hand at the instant at which the timer is over. -/
def savesAtOnce : List Move :=
  [.traffic (.go 0 Traffic.timely), .poll 0 .due, .traffic (Traffic.edits "mine"), .elapse 1000] ++
    (Traffic.operates .save 1 ++ Traffic.returns 1).map .traffic

/-- An announcement may overtake a timer that is over.  The loop fires if it looks at its timer
first; if it looks for announcements first, it gives the timer up, and fires a second later. -/
example :
    let y := (start (.create {}) Commons.firstStore).run (coordinatesFirst ++ [startsFirst])
    let z := y.run savesAtOnce
    let w := z.run [.poll 0 .announced, .traffic (.go 0 Traffic.timely), .poll 0 .announced,
      .traffic (.go 0 Traffic.timely), .poll 0 .announced, .elapse 2000]
    y.throughout (fun x m => !x.restarts 0 m) savesAtOnce = true ∧ z.now = 1000 ∧
      z.fires 0 (.poll 0 .due) = true ∧ z.drops 0 (.poll 0 .announced) = true ∧
      w.now = 2000 ∧ w.traffic.firings 0 = 0 ∧ w.fires 0 (.poll 0 .announced) = true := by
  decide +kernel

end Clockwork

end Folio
