/-
# How far a context has come

A context is loading when it is made.  The end of its first load or save makes it ready or failed,
if it is still loading by then, and it is closed once and for good; it comes from one phase to
another in no other way (`Phase.Leads`).  It announces that it is ready in the step in which it
becomes so, and that it is closed in the step in which it is closed (`Context.Turns`), so neither is
announced twice.

How many operations are under way, and in which order they end, makes no difference to this.  Nor
does it to what is begun on a context that is closed: every operation looks whether the context is
live in the step in which it turns to the store (`Process.isStore_eq_false_of_isDisposed`).
-/
import Folio.Proofs.Session.Contexts
import Folio.Proofs.Autosave.Dealing

namespace Folio

/-! ## 1. Phases -/

/-- **Where a context may come from a phase.** -/
inductive Phase.Leads : Phase → Phase → Prop
  | readies : Leads .loading .ready
  | fails (message : String) : Leads .loading (.failed message)
  | closes {p : Phase} (live : p ≠ .disposed) : Leads p .disposed

/-- No phase leads back to loading, only loading leads to ready, and nothing leads on from closed.
-/
theorem Phase.Leads.sound {p q : Phase} (h : p.Leads q) :
    q ≠ .loading ∧ (q = .ready → p = .loading) ∧ p ≠ .disposed := by
  cases h with
  | readies => exact ⟨nofun, fun _ => rfl, nofun⟩
  | fails message => exact ⟨nofun, nofun, nofun⟩
  | closes live => exact ⟨nofun, nofun, live⟩

namespace Context

/-- How often a context has announced something. -/
def told (c : Context) (a : Announcement) : Nat := c.announced.count a

@[simp] theorem told_emit (c : Context) (e a : Announcement) :
    (c.emit e).told a = c.told a + if e = a then 1 else 0 := by
  simp [told, List.count_append, List.count_singleton]

/-- **A context turns into another**: it stays in its phase or comes to the next one, and it
announces that it is ready, or closed, just if it becomes so. -/
structure Turns (c d : Context) : Prop where
  phase : d.state = c.state ∨ c.state.Leads d.state
  ready : d.told .ready = c.told .ready + if c.state ≠ .ready ∧ d.state = .ready then 1 else 0
  closed : d.told .disposed =
    c.told .disposed + if c.state ≠ .disposed ∧ d.state = .disposed then 1 else 0

/-- **What changes do to the phase**: nothing, unless they close the context. -/
inductive Ages (c d : Context) : Prop
  | stays (state : d.state = c.state) (ready : d.told .ready = c.told .ready)
      (closed : d.told .disposed = c.told .disposed)
  | closes (live : c.state ≠ .disposed) (state : d.state = .disposed)
      (ready : d.told .ready = c.told .ready) (closed : d.told .disposed = c.told .disposed + 1)

variable {c d e : Context}

theorem Ages.trans (h : c.Ages d) (h' : d.Ages e) : c.Ages e := by
  cases h with
  | stays state ready closed =>
    cases h' with
    | stays state' ready' closed' =>
      exact .stays (state'.trans state) (ready'.trans ready) (closed'.trans closed)
    | closes live state' ready' closed' =>
      exact .closes (state ▸ live) state' (ready'.trans ready) (by omega)
  | closes live state ready closed =>
    cases h' with
    | stays state' ready' closed' =>
      exact .closes live (state'.trans state) (ready'.trans ready) (by omega)
    | closes live' state' ready' closed' => exact absurd state live'

theorem Change.ages (h : c.Change d) : c.Ages d := by
  cases h with
  | models model => exact .stays rfl rfl rfl
  | follows away => exact .stays rfl (by simp; rfl) (by simp; rfl)
  | saves model m => exact .stays rfl (by simp; rfl) (by simp; rfl)
  | learns model m => exact .stays rfl (by simp; rfl) (by simp; rfl)
  | closes live =>
    refine .closes (fun closed => ?_) rfl (by simp; rfl) (by simp; rfl)
    rw [isDisposed, closed] at live
    cases live

theorem Changes.ages (h : c.Changes d) : c.Ages d :=
  h.keeps (P := c.Ages) (fun change on => on.trans change.ages) (.stays rfl rfl rfl)

theorem Ages.turns (h : c.Ages d) : c.Turns d := by
  cases h with
  | stays state ready closed =>
    refine ⟨.inl state, ?_, ?_⟩
    · simp [ready, state]
    · simp [closed, state]
  | closes live state ready closed =>
    refine ⟨.inr (state ▸ .closes live), ?_, ?_⟩
    · simp [ready, state]
    · simp [closed, state, live]

theorem turns_settle (c : Context) (result : Except ContextError Unit) :
    c.Turns (c.settle result) := by
  rcases c.settle_cases result with same | ⟨loading, -, same⟩ | ⟨loading, e, same⟩
  · rw [same]
    exact (Ages.stays rfl rfl rfl).turns
  · rw [same]
    refine ⟨.inr (loading ▸ .readies), ?_, ?_⟩
    · simp [loading, told, announced, emit, Journal.emit]
    · simp [told, announced, emit, Journal.emit]
  · rw [same]
    refine ⟨.inr (loading ▸ .fails _), ?_, ?_⟩
    · simp [told, announced]
    · simp [told, announced]

/-- **A context that proceeds turns.**  What changes before its first load ends leaves it loading,
or closes it, and then the end of the load does nothing. -/
theorem Proceeds.turns (h : c.Proceeds d) : c.Turns d := by
  cases h with
  | changes changes => exact changes.ages.turns
  | @settles d result changes known =>
    have turns := d.turns_settle result
    cases changes.ages with
    | stays state ready closed =>
      exact ⟨state ▸ turns.phase, by rw [turns.ready, ready, state],
        by rw [turns.closed, closed, state]⟩
    | closes live state ready closed =>
      have same : d.settle result = d := by
        rcases d.settle_cases result with same | ⟨loading, -⟩ | ⟨loading, -⟩
        · exact same
        · rw [state] at loading
          cases loading
        · rw [state] at loading
          cases loading
      rw [same]
      exact (Ages.closes live state ready closed).turns

/-! ## 2. What is always so -/

/-- **A context is regular**: nothing is announced before its time or twice, and the metadata are
known when it is ready. -/
structure Regular (c : Context) : Prop where
  unready : c.state = .loading → c.told .ready = 0
  ready_once : c.told .ready ≤ 1
  unclosed : c.state ≠ .disposed → c.told .disposed = 0
  closed_once : c.told .disposed ≤ 1
  known : c.state = .ready → c.remote.isSome = true

theorem IsFresh.regular (fresh : c.IsFresh) : c.Regular := by
  have silent (a : Announcement) : c.told a = 0 := by simp [told, fresh.silent]
  refine ⟨fun _ => silent _, ?_, fun _ => silent _, ?_, fun ready => ?_⟩
  · rw [silent]
    exact Nat.zero_le 1
  · rw [silent]
    exact Nat.zero_le 1
  · rw [fresh.loading] at ready
    cases ready

/-- The metadata stay known. -/
theorem Changes.known (h : c.Changes d) (known : c.state = .ready → c.remote.isSome = true) :
    d.state = .ready → d.remote.isSome = true := by
  refine h.keeps (P := fun c => c.state = .ready → c.remote.isSome = true) ?_ known
  intro c d change known
  cases change with
  | models model => exact known
  | follows away => exact known
  | saves model m => exact fun _ => rfl
  | learns model m => exact fun _ => rfl
  | closes live => nofun

theorem Proceeds.known (h : c.Proceeds d) (known : c.state = .ready → c.remote.isSome = true) :
    d.state = .ready → d.remote.isSome = true := by
  cases h with
  | changes changes => exact changes.known known
  | @settles d result changes remote =>
    rcases d.settle_cases result with same | ⟨-, ok, same⟩ | ⟨-, e, same⟩
    · rw [same]
      exact changes.known known
    · rw [same]
      exact fun _ => remote ok
    · rw [same]
      nofun

/-- **A regular context stays regular.** -/
theorem Regular.proceeds (regular : c.Regular) (h : c.Proceeds d) : d.Regular := by
  obtain ⟨phase, ready, closed⟩ := h.turns
  have unready := regular.unready
  have unclosed := regular.unclosed
  have ready_once := regular.ready_once
  have closed_once := regular.closed_once
  refine ⟨?_, ?_, ?_, ?_, h.known regular.known⟩
  · intro loading
    rcases phase with same | leads
    · rw [ready, unready (same ▸ loading)]
      simp [loading]
    · exact absurd loading leads.sound.1
  · rw [ready]
    split
    · next becomes =>
      rcases phase with same | leads
      · exact absurd (same ▸ becomes.2) becomes.1
      · have none_yet := unready (leads.sound.2.1 becomes.2)
        omega
    · exact ready_once
  · intro live
    have before : c.state ≠ .disposed := by
      rcases phase with same | leads
      · exact same ▸ live
      · exact leads.sound.2.2
    rw [closed, unclosed before]
    simp [live]
  · rw [closed]
    split
    · next becomes =>
      have none_yet := unclosed becomes.1
      omega
    · exact closed_once

end Context

/-- **All contexts of a session are regular.** -/
def Session.Regular (s : Session) : Prop := ∀ c < s.contexts.length, (s.context c).Regular

theorem Session.Regular.proceeds {s t : Session} (regular : s.Regular) (h : s.Proceeds t) :
    t.Regular := by
  intro c made
  rcases Nat.lt_or_ge c s.contexts.length with before | new
  · exact (regular c before).proceeds (h.context c before)
  · exact (h.fresh c new made).regular

/-! ## 3. What is begun on a closed context -/

/-- A further call of an operation is begun on a live context, too. -/
theorem ContextCall.isDisposed_of_again {c d : Context} {call next : ContextCall}
    {reply : call.request.Reply} (h : ContextCall.resume c call reply = (d, .again next)) :
    c.isDisposed = false := by
  cases call with
  | restoring path id =>
    cases reply with
    | error e => cases h
    | ok u =>
      simp only [ContextCall.resume] at h
      split at h
      · next begun => exact (ContextOp.of_begin begun).1
      · cases h
  | _ => simp [ContextCall.resume, ContextCall.conclude] at h

namespace Attempt

/-- Nothing is saved of a closed context. -/
theorem beginSave_of_isDisposed {s : Scene} (closed : s.context.isDisposed = true) :
    beginSave s = (s, none) := by
  simp [beginSave, closed]

/-- **An attempt for a closed context** may ask the user; it does not turn to the store. -/
theorem isStore_eq_false_of_isDisposed {s : Scene} (closed : s.context.isDisposed = true)
    {a next : Attempt} {answer : a.need.Answer} (h : (Attempt.resume s a answer).2 = some next) :
    next.need.isStore = false := by
  cases a with
  | due =>
    simp only [Attempt.resume, Attempt.begin, closed, beginSave_of_isDisposed closed, if_true] at h
    split at h <;> cases h
  | checking path =>
    simp only [Attempt.resume, afterCheck, beginSave_of_isDisposed closed] at h
    split at h
    · cases h
    · split at h
      · cases h
      · split at h <;> cases h
        rfl
  | asking prompt =>
    have released :
        ({ s with coordinator := s.coordinator.closeConflict } : Scene).context.isDisposed = true :=
      closed
    simp only [Attempt.resume, afterAnswer, beginSave_of_isDisposed released, closed, if_true] at h
    cases answer <;> cases h
  | reverting path => cases h
  | saving since path request => cases h

end Attempt

/-- **A process that deals with a closed context does not turn to the store.** -/
theorem Process.isStore_eq_false_of_isDisposed {s : Session} {c : ContextId} {p q : Process}
    {answer : p.need.Answer} (deals : p.dealsWith s c = true)
    (closed : (s.context c).isDisposed = true) (h : (p.resume s answer).2 = .inl q) :
    q.need.isStore = false := by
  have live {d : ContextId} (same : (d == c) = true) (live : (s.context d).isDisposed = false) :
      False := by
    rw [beq_iff_eq.mp same, closed] at live
    cases live
  cases goesOn h with
  | begins begun => exact (live deals (ContextOp.of_begin begun).1).elim
  | again again => exact (live deals (ContextCall.isDisposed_of_again again)).elim
  | loads begun => exact (live deals (ContextOp.of_begin begun).1).elim
  | loadsAgain again => exact (live deals (ContextCall.isDisposed_of_again again)).elim
  | @attempts k a next given follows =>
    refine Attempt.isStore_eq_false_of_isDisposed (s := s.scene k) ?_ follows
    have same : (s.coordinator k).context = c := beq_iff_eq.mp deals
    rw [← same] at closed
    exact closed
  | sleeps => cases deals
  | wakes => cases deals
  | conducts => cases deals

namespace Ensemble

/-! ## 4. Every run -/

theorem regular_run (config : Settings) (moves : List Move) :
    ((start config).run moves).session.Regular :=
  run_keeps (P := fun e => e.session.Regular)
    (fun e m (_ : True) regular => regular.proceeds (e.proceeds_step m)) moves (start config)
    (fun _ _ => trivial) fun c made => absurd made (Nat.not_lt_zero c)

/-- **The phases of a context.**  In every run, a context that is new is loading, knows nothing and
has announced nothing.  Every move leaves it in its phase or leads it to the next one, and it
announces that it is ready, or closed, in the step in which it becomes so and at no other time, so
at most once.  When it is ready its metadata are known, and when it is closed no process that deals
with it begins a call of the store. -/
theorem phases_advance (config : Settings) (moves : List Move) (m : Move) (c : ContextId) :
    let e := (start config).run moves
    let now := e.session.context c
    let next := (e.step m).session.context c
    (e.session.contexts.length ≤ c → c < (e.step m).session.contexts.length → next.IsFresh) ∧
      (c < e.session.contexts.length →
        now.Turns next ∧ now.told .ready ≤ 1 ∧ now.told .disposed ≤ 1 ∧
          (now.state = .ready → now.remote.isSome = true) ∧
          (now.state = .disposed → ∀ (p : Process) (answer : p.need.Answer) (q : Process),
            p.dealsWith e.session c = true → (p.resume e.session answer).2 = .inl q →
            q.need.isStore = false)) := by
  intro e now next
  have proceeds := e.proceeds_step m
  refine ⟨proceeds.fresh c, fun made => ?_⟩
  have regular := regular_run config moves c made
  refine ⟨(proceeds.context c made).turns, regular.ready_once, regular.closed_once,
    regular.known, ?_⟩
  intro gone p answer q deals goesOn
  have closed : (e.session.context c).isDisposed = true := by
    rw [Context.isDisposed]
    exact beq_iff_eq.mpr gone
  exact Process.isStore_eq_false_of_isDisposed deals closed goesOn

/-- A context is made and loaded, up to the step in which the store has answered. -/
def loadsText : List Move :=
  [.deed (.newContext "a" "text" "file" .text), .enter (.operation 0 (.populate false)),
    .go 0 .obliging]

/-- The text is saved, the save waits for the store, and the context is closed. -/
def closesWhileSaving : List Move :=
  loadsText ++ [.go 0 .obliging, .enter (.operation 0 .save), .go 0 .obliging,
    .deed (.disposeContext 0), .enter (.operation 0 .save)]

theorem phases_advance_loadsText :
    (((start {}).run []).session.contexts.length = 0 ∧
      (((start {}).step (.deed (.newContext "a" "text" "file" .text))).session.context 0).IsFresh) ∧
    (((start {}).run loadsText).session.context 0).state = .loading ∧
      ((((start {}).run loadsText).step (.go 0 .obliging)).session.context 0).told .ready = 1 ∧
    (((start {}).run closesWhileSaving).session.context 0).state = .disposed ∧
      ((Process.operation 0 .save).resume ((start {}).run closesWhileSaving).session ()).2 =
        .inr (.context (.error .disposed)) ∧
      ∀ q : Process, ((Process.operation 0 .save).resume
        ((start {}).run closesWhileSaving).session ()).2 = .inl q → q.need.isStore = false := by
  have born := phases_advance {} [] (.deed (.newContext "a" "text" "file" .text)) 0
  have settles := phases_advance {} loadsText (.go 0 .obliging) 0
  have closed := phases_advance {} closesWhileSaving (.go 0 .obliging) 0
  refine ⟨⟨rfl, born.1 (by decide) (by decide)⟩, by decide +kernel, ?_, by decide +kernel, rfl, ?_⟩
  · rw [(settles.2 (by decide +kernel)).1.ready]
    decide +kernel
  · intro q goesOn
    obtain ⟨-, -, -, -, stops⟩ := closed.2 (by decide +kernel)
    exact stops (by decide +kernel) (.operation 0 .save) () q (by decide +kernel) goesOn

end Ensemble

namespace Traffic

theorem proceeds_step (x : Traffic) (m : Move) : x.session.Proceeds (x.step m).session := by
  obtain ⟨e, does⟩ := x.step_does m
  generalize x.step m = y at does ⊢
  cases does with
  | deed d => exact (Session.Proceeds.deed x.session d).then_contexts rfl
  | goes => exact (Session.Proceeds.process x.session _ _).then_contexts rfl
  | _ => exact .of_contexts rfl

theorem regular_run (config : Settings) (store : MemoryStore) (moves : List Move) :
    ((start (.create config) store).run moves).session.Regular := by
  induction moves using List.reverseRecOn with
  | nil => exact fun c made => absurd made (Nat.not_lt_zero c)
  | append_singleton moves m ih =>
    rw [run_concat]
    exact ih.proceeds (proceeds_step _ m)

end Traffic

end Folio
