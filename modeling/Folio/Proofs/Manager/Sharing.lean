/-
# A document is opened many times

However many calls open a document side by side, whichever widgets they make of it: they share one
context, which is made once and loaded once.  A call that finds it leaves it as it is, with all that
was changed in it, and only adds its own widget (`Traffic.opens_share`).

This needs that nothing else makes the document go: its first load does not fail, nothing closes or
renames it, and nothing else comes to its path (`Traffic.leavesOpen`).
-/
import Folio.Proofs.Manager.Opening
import Folio.Proofs.Manager.RemoveFile

namespace Folio

/-! ## 1. What is counted -/

/-- The process is a call that is about to open a document. -/
def Process.isOpening (path model : String) : Process → Bool
  | .manager stage => stage.isOpening path model
  | _ => false

/-- The process is the first load of a coordinator, which is yet to ask the store. -/
def Process.isUnread (k : CoordinatorId) : Process → Bool
  | .load j false => j == k
  | _ => false

theorem Process.load?_of_isUnread {p : Process} {k : CoordinatorId} (unread : p.isUnread k = true) :
    p.load? = some k := by
  cases p with
  | load j isNew =>
    cases isNew with
    | false => exact congrArg some (beq_iff_eq.mp unread)
    | true => cases unread
  | _ => cases unread

/-- No process goes on as a first load that is yet to ask. -/
theorem Process.isUnread_of_goesOn {s : Session} {p q : Process} (h : GoesOn s p q)
    (k : CoordinatorId) : q.isUnread k = false := by
  cases h <;> rfl

/-- The store is asked for the content of the file at a path. -/
def Need.isRead (path : String) : Need → Bool
  | .store (.get p content) => p == path && content
  | _ => false

namespace Event

/-- **A call has made a context for a document** that it is to open. -/
def makesFor (path model : String) : Event → Bool
  | .stepped _ p answer s =>
    p.isOpening path model && decide (s.contexts.length < (p.resume s answer).1.contexts.length)
  | _ => false

/-- **The first load of a coordinator has asked the store** for the content of a file. -/
def readsFor (k : CoordinatorId) (path : String) : Event → Bool
  | .stepped _ p answer s =>
    p.load? == some k &&
      match (p.resume s answer).2 with
      | .inl q => q.need.isRead path
      | .inr _ => false
  | _ => false

/-- An event that counts among the reads of a coordinator is a step of its first load. -/
theorem load?_of_readsFor {k : CoordinatorId} {path : String} {e : Event}
    (reads : e.readsFor k path = true) :
    ∃ n p answer s, e = .stepped n p answer s ∧ p.load? = some k := by
  cases e with
  | stepped n p answer s =>
    obtain ⟨loads, -⟩ := Bool.and_eq_true_iff.mp reads
    exact ⟨n, p, answer, s, rfl, beq_iff_eq.mp loads⟩
  | _ => cases reads

/-- **A first load asks for the content once**, in its first step, and of the file at the path of
its context. -/
theorem readsFor_stepped {k : CoordinatorId} {path : String} {s : Session} {p : Process}
    (live : (s.context (s.coordinator k).context).isDisposed = false)
    (there : (s.context (s.coordinator k).context).path = path)
    (first : ∀ call, p = .loading k call → call.isFirst = true) (n : Nat) (answer : p.need.Answer) :
    (Event.stepped n p answer s).readsFor k path = p.isUnread k := by
  have begins (isNew : Bool) : (ContextOp.populate isNew).begin
      (s.context (s.coordinator k).context) =
        .ok ((ContextOp.populate isNew).call (s.context (s.coordinator k).context)) := by
    simp [ContextOp.begin, Context.requireLive, live, Except.map]
  cases p with
  | load j isNew =>
    by_cases same : j = k
    · subst same
      cases isNew <;>
        simp [readsFor, Process.load?, Process.isUnread, Process.resume, begins, ContextOp.call,
          Need.isRead, there]
    · cases isNew <;> simp [readsFor, Process.load?, Process.isUnread, same]
  | loading j call =>
    by_cases same : j = k
    · subst same
      have ends : ∀ q, ((Process.loading j call).resume s answer).2 ≠ .inl q := by
        intro q goesOn
        cases Process.goesOn goesOn with
        | loadsAgain again => exact ContextCall.not_again_of_isFirst (first call rfl) again
      simp only [readsFor, Process.isUnread, Bool.and_eq_false_iff]
      right
      split
      · next q goesOn => exact absurd goesOn (ends q)
      · rfl
    · simp [readsFor, Process.load?, Process.isUnread, same]
  | _ => rfl

end Event

namespace Traffic

variable {x : Traffic} {path model : String} {k : CoordinatorId}

/-- The contexts that calls have made for a document that they were to open. -/
def made (x : Traffic) (path model : String) : Nat := x.log.countP (Event.makesFor path model)

/-- How often the first load of a coordinator has asked the store for the content of a file. -/
def reads (x : Traffic) (k : CoordinatorId) (path : String) : Nat :=
  x.log.countP (Event.readsFor k path)

/-- The first loads of a coordinator that are yet to ask. -/
def unread (x : Traffic) (k : CoordinatorId) : Nat :=
  x.errands.countP fun t => t.process.isUnread k

/-! ## 2. Reads -/

/-- What enters with the background work of a session. -/
theorem unread_absorb (x : Traffic) (session : Session) (errands : List Errand)
    (k : CoordinatorId) :
    (x.absorb session errands).unread k =
      errands.countP (fun t => t.process.isUnread k) +
        session.started.countP fun work => (Process.ofBackground work).isUnread k := by
  rw [unread, absorb, List.countP_append, countP_entering]

/-- No other first load of a coordinator is started than those that are counted. -/
theorem unread_started {s : Session} (unstarted : k ∉ s.startedLoads) :
    (s.started.countP fun work => (Process.ofBackground work).isUnread k) = 0 := by
  refine List.countP_eq_zero.mpr fun work hw unread => unstarted ?_
  exact List.mem_filterMap.mpr ⟨work, hw, Process.load?_of_isUnread unread⟩

/-- **What is yet to ask after a step** is what was, but for the process that took the step, and
what the step has started. -/
theorem unread_resumed {t : Errand} {others : List Errand} (all : x.errands.Perm (t :: others))
    (answer : t.process.need.Answer) (k : CoordinatorId) :
    (x.resumed others t answer).unread k + (t.process.isUnread k).toNat =
      x.unread k + (t.process.resume x.session answer).1.started.countP
        fun work => (Process.ofBackground work).isUnread k := by
  have before : x.unread k = others.countP (fun t => t.process.isUnread k) +
      (t.process.isUnread k).toNat := by
    rw [unread, all.countP_eq, List.countP_cons]
    cases t.process.isUnread k <;> rfl
  have next : (Errand.next? t.number (t.process.resume x.session answer).2).toList.countP
      (fun t => t.process.isUnread k) = 0 := by
    refine List.countP_eq_zero.mpr fun u hu => ?_
    obtain ⟨-, goesOn, -⟩ := Errand.of_mem_next? (Option.mem_toList.mp hu)
    rw [Process.isUnread_of_goesOn (Process.goesOn goesOn) k]
    exact Bool.false_ne_true
  rw [resumed, unread_absorb, List.countP_append, next, before]
  omega

/-- **The reads of a coordinator that was made are settled**: in every move they grow by the first
load that asks, which is no longer one that is yet to. -/
theorem read_step (tidy : x.Tidy) (made : k < x.session.coordinators.length)
    (live : (x.session.context (x.session.coordinator k).context).isDisposed = false)
    (there : (x.session.context (x.session.coordinator k).context).path = path) (m : Move) :
    (x.step m).reads k path + (x.step m).unread k = x.reads k path + x.unread k := by
  obtain ⟨e, does⟩ := x.step_does m
  have log := does.log
  generalize x.step m = y at does log ⊢
  rw [reads, reads, log, List.countP_append]
  cases does with
  | nothing => simp
  | deed d =>
    have none : k ∉ (d.apply x.session).startedLoads := by
      rw [Session.startedLoads_deed, Session.startedLoads, tidy.started]
      exact List.not_mem_nil
    rw [unread_absorb, unread_started none]
    simp [unread]
  | @enter p call =>
    have none : p.isUnread k = false := by
      rw [Bool.eq_false_iff]
      intro unread
      cases (Process.load?_of_isCall call).symm.trans (Process.load?_of_isUnread unread)
    simp [unread, Traffic.enter, none]
  | others store => simp [unread, Event.readsFor]
  | carries i split => simp [unread, split, List.countP_cons, Event.readsFor]
  | answers i oracle split => simp [unread, split, List.countP_cons, Event.readsFor]
  | @goes i oracle before after t answer split =>
    have within : t ∈ x.errands := (perm_of_split split).mem_iff.mpr List.mem_cons_self
    have asks := Event.readsFor_stepped live there (fun call => tidy.firsts t within k call)
      t.number answer
    have none : k ∉ (t.process.resume x.session answer).1.startedLoads := by
      have bears := Session.Bears.process x.session t.process answer
      have quiet : x.session.startedLoads = [] := by
        rw [Session.startedLoads, tidy.started]
        rfl
      cases bears with
      | nothing rested =>
        rw [rested.loads, quiet]
        exact List.not_mem_nil
      | one tracked loads new contexts coordinators =>
        rw [loads, quiet, List.nil_append, List.mem_singleton]
        exact Nat.ne_of_lt made
    have counted := unread_resumed (perm_of_split split) answer k
    rw [unread_started none] at counted
    rw [Option.toList_some, List.countP_singleton, asks]
    cases unread : t.process.isUnread k with
    | true =>
      rw [unread, Bool.toNat_true] at counted
      rw [if_pos rfl]
      omega
    | false =>
      rw [unread, Bool.toNat_false] at counted
      rw [if_neg Bool.false_ne_true]
      omega

/-- **Nothing was read for a coordinator that is not made yet**, in any run. -/
theorem unmade_run (config : Settings) (store : MemoryStore) (moves : List Move)
    (path : String) {k : CoordinatorId}
    (unmade : ((start (.create config) store).run moves).session.coordinators.length ≤ k) :
    ((start (.create config) store).run moves).reads k path = 0 ∧
      ((start (.create config) store).run moves).unread k = 0 := by
  have populates := (tidy_run config store moves).populates
  refine ⟨List.countP_eq_zero.mpr fun e he reads => ?_,
    List.countP_eq_zero.mpr fun t ht unread => ?_⟩
  · -- the process was under way when it took the step
    obtain ⟨n, p, answer, s, rfl, loads⟩ := Event.load?_of_readsFor reads
    obtain ⟨a, b, log⟩ := List.append_of_mem he
    obtain ⟨first, m, second, before, after, reply, -, rfl, -, -, split, -, -, -⟩ :=
      goes_of_log rfl log
    have earlier := (tidy_run config store first).populates
    have on := ((start (.create config) store).run first).advances_run (m :: second)
    rw [← run_append] at on
    have within := (perm_of_split split).mem_iff.mpr List.mem_cons_self
    have made := earlier.coordinator k (List.mem_filterMap.mpr ⟨_, within, loads⟩)
    exact absurd (Nat.lt_of_lt_of_le made on.coordinators_length) (Nat.not_lt.mpr unmade)
  · have made := populates.coordinator k
      (List.mem_filterMap.mpr ⟨t, ht, Process.load?_of_isUnread unread⟩)
    exact absurd made (Nat.not_lt.mpr unmade)

/-! ## 3. A move of the call -/

/-- The move is a step of a call that is about to open the document. -/
def opensBy (x : Traffic) (path model : String) : Move → Bool
  | .go i _ => (x.errands[i]?).any fun t => t.process.isOpening path model
  | _ => false

/-- **The move leaves what the document is open in**, or is a step of a call that is about to open
it.  So its first load does not fail in this move, nothing closes or renames it, and nothing else
comes to its path. -/
def leavesOpen (path model : String) (x : Traffic) (m : Move) : Bool :=
  x.opensBy path model m ||
    (x.step m).session.openFor? path model == x.session.openFor? path model

/-- **What the move of such a call does**: it waits on, or it takes one of the steps of the call. -/
theorem opens_step (tidy : x.Tidy) {m : Move} (opens : x.opensBy path model m = true) :
    x.step m = x ∨ ∃ others t answer, x.errands.Perm (t :: others) ∧
      x.step m = x.resumed others t answer ∧ t.process.isOpening path model = true ∧
      ∃ step : Manager.Step, Stage.Opens x.session path model step ∧
        (t.process.resume x.session answer).1 = step.1 ∧
        ∀ q, step.2 = .inl q → (t.process.resume x.session answer).2 = .inl (.manager q) := by
  cases m with
  | go i oracle =>
    rcases x.go_cases i oracle with same | ⟨before, after, t, answer, found, split, -, -, same⟩
    · exact .inl same
    · have opening : t.process.isOpening path model = true := by
        rwa [opensBy, found, Option.any_some] at opens
      have all := perm_of_split split
      have apart := tidy.apart t (all.mem_iff.mpr List.mem_cons_self)
      refine .inr ⟨before ++ after, t, answer, all, same, opening, ?_⟩
      obtain ⟨number, process, reply⟩ := t
      cases process with
      | manager stage =>
        refine ⟨stage.resume x.session answer, Stage.opens_resume opening tidy.made ?_ answer,
          Ensemble.session_manager .., fun q goesOn => Process.resume_manager_inl.mpr goesOn⟩
        rintro first rest after rfl
        exact apart first rest after rfl
      | _ => cases opening
  | _ => cases opens

/-- Nothing that such a call does is entered in the log by another move. -/
theorem log_step_of_not_opensBy {m : Move} (other : x.opensBy path model m = false) :
    ∃ e : Option Event, (x.step m).log = x.log ++ e.toList ∧
      ∀ n p answer s, e = some (.stepped n p answer s) → p.isOpening path model = false := by
  cases m with
  | go i oracle =>
    rcases x.go_cases i oracle with same | ⟨before, after, t, answer, found, -, -, -, same⟩
    · refine ⟨none, by rw [step, same, Option.toList_none, List.append_nil], ?_⟩
      intro n p answer s now
      cases now
    · refine ⟨some (.stepped t.number t.process answer x.session), ?_, ?_⟩
      · rw [step, same, Option.toList_some]
        rfl
      · rintro n p answer s ⟨⟩
        rwa [opensBy, found, Option.any_some] at other
  | _ =>
    obtain ⟨e, does⟩ := x.step_does _
    refine ⟨e, does.log, fun n p answer s same => ?_⟩
    generalize x.step _ = y at does
    cases does <;> cases same

/-! ## 4. Runs -/

/-- **The document is opened once**, since the traffic was at a certain point. -/
structure OpensOnce (path model : String) (x₀ x : Traffic) : Prop where
  stays : ∀ t, x₀.session.openFor? path model = some t → x.session.openFor? path model = some t
  once : x.made path model + (x₀.session.openFor? path model).isSome.toNat =
    x₀.made path model + (x.session.openFor? path model).isSome.toNat
  read : x₀.session.openFor? path model = none → ∀ t, x.session.openFor? path model = some t →
    x.reads t.coordinator path + x.unread t.coordinator = 1
  binds : ∀ n p answer s w c, x₀.next ≤ n → .stepped n p answer s ∈ x.log →
    p.isOpening path model = true → (p.resume s answer).2 = .inl (.manager (.binding w c)) →
    ∃ t, x.session.openFor? path model = some t ∧ t.context = c

namespace OpensOnce

variable {x₀ : Traffic}

/-- **Where the traffic begins**, nothing has been done by a call that comes later. -/
theorem refl (coherent : x₀.IsCoherent) : OpensOnce path model x₀ x₀ where
  stays _ here := here
  once := rfl
  read nowhere t here := by cases nowhere.symm.trans here
  binds n p answer s w c new there := by
    have own : Event.stepped n p answer s ∈ own n x₀.log := stepped_mem_own there
    rw [Coherent.unused coherent n new] at own
    cases own

/-- **What the document is open in stays**, and what a call binds is bound to that. -/
theorem still (h : OpensOnce path model x₀ x) (tidy : x.Tidy) (m : Move)
    (openFor : (x.step m).session.openFor? path model = x.session.openFor? path model)
    (made : (x.step m).made path model = x.made path model)
    (binds : ∀ n p answer s w c, .stepped n p answer s ∈ (x.step m).log →
      p.isOpening path model = true → (p.resume s answer).2 = .inl (.manager (.binding w c)) →
      .stepped n p answer s ∈ x.log ∨ ∃ t, x.session.openFor? path model = some t ∧ t.context = c) :
    OpensOnce path model x₀ (x.step m) where
  stays t here := openFor.trans (h.stays t here)
  once := by
    rw [made, openFor]
    exact h.once
  read nowhere t here := by
    rw [openFor] at here
    have known := tidy.made t (Session.mem_of_openFor? here)
    obtain ⟨live, there, -⟩ := Session.of_openFor? here
    rw [← known.owner] at live there
    rw [read_step tidy known.coordinator live there m]
    exact h.read nowhere t here
  binds n p answer s w c new there opening goesOn := by
    rw [openFor]
    rcases binds n p answer s w c there opening goesOn with before | bound
    · exact h.binds n p answer s w c new before opening goesOn
    · exact bound

/-- **The document gets its context**, which is yet to be read. -/
theorem gets (h : OpensOnce path model x₀ x) (tidy : x.Tidy)
    (unmade : x.reads x.session.coordinators.length path = 0 ∧
      x.unread x.session.coordinators.length = 0)
    (nowhere : x.session.openFor? path model = none) {others : List Errand} {t : Errand}
    {answer : t.process.need.Answer} (all : x.errands.Perm (t :: others))
    (opening : t.process.isOpening path model = true)
    (gets : x.session.Gets (t.process.resume x.session answer).1 path model) {w : WidgetId}
    (goesOn : (t.process.resume x.session answer).2 =
      .inl (.manager (.binding w x.session.contexts.length))) :
    OpensOnce path model x₀ (x.resumed others t answer) := by
  have openFor : (x.resumed others t answer).session.openFor? path model =
      some ⟨x.session.contexts.length, x.session.coordinators.length⟩ := gets.openFor
  have log : (x.resumed others t answer).log =
      x.log ++ [.stepped t.number t.process answer x.session] := rfl
  have noLoad : t.process.load? = none := by
    generalize t.process = p at opening
    cases p with
    | manager stage => rfl
    | _ => cases opening
  have makes : (Event.stepped t.number t.process answer x.session).makesFor path model = true := by
    rw [Event.makesFor, opening, gets.contexts, Bool.true_and, decide_eq_true_eq]
    exact Nat.lt_succ_self _
  have made : (x.resumed others t answer).made path model = x.made path model + 1 := by
    rw [Traffic.made, log, List.countP_append, List.countP_singleton, if_pos makes, Traffic.made]
  refine ⟨fun u here => ?_, ?_, fun _ u here => ?_, fun n p got s w' c new there opening led => ?_⟩
  · cases nowhere.symm.trans (h.stays u here)
  · have once := h.once
    rw [nowhere] at once
    rw [made, openFor]
    simp only [Option.isSome_none, Bool.toNat_false, Option.isSome_some, Bool.toNat_true] at once ⊢
    omega
  · obtain rfl := Option.some.inj (openFor.symm.trans here)
    have none : (Event.stepped t.number t.process answer x.session).readsFor
        x.session.coordinators.length path = false := by
      rw [Event.readsFor, noLoad]
      rfl
    have reads : (x.resumed others t answer).reads x.session.coordinators.length path = 0 := by
      rw [Traffic.reads, log, List.countP_append, List.countP_singleton, none,
        if_neg Bool.false_ne_true]
      exact unmade.1
    have notUnread : t.process.isUnread x.session.coordinators.length = false := by
      rw [Bool.eq_false_iff]
      intro unread
      cases noLoad.symm.trans (Process.load?_of_isUnread unread)
    have counted := unread_resumed all answer x.session.coordinators.length
    rw [notUnread, unmade.2, gets.started, tidy.started] at counted
    show (x.resumed others t answer).reads x.session.coordinators.length path + _ = 1
    rw [reads, Nat.zero_add]
    simpa [Process.ofBackground, Process.isUnread] using counted
  · rw [log] at there
    refine ⟨_, openFor, ?_⟩
    rcases List.mem_append.mp there with before | now
    · obtain ⟨u, here, -⟩ := h.binds n p got s w' c new before opening led
      cases nowhere.symm.trans here
    · simp only [List.mem_singleton, Event.stepped.injEq] at now
      obtain ⟨-, rfl, same, rfl⟩ := now
      cases same
      rw [goesOn] at led
      cases led
      rfl

/-- **A move that is no step of such a call.** -/
theorem others (h : OpensOnce path model x₀ x) (tidy : x.Tidy) {m : Move}
    (other : x.opensBy path model m = false)
    (openFor : (x.step m).session.openFor? path model = x.session.openFor? path model) :
    OpensOnce path model x₀ (x.step m) := by
  obtain ⟨e, log, notOpening⟩ := log_step_of_not_opensBy other
  refine h.still tidy m openFor ?_ fun n p answer s w c there opening _ => .inl ?_
  · rw [made, log, List.countP_append, made, Nat.add_eq_left]
    refine List.countP_eq_zero.mpr fun event he => ?_
    cases event with
    | stepped n p answer s =>
      rw [Event.makesFor, notOpening n p answer s (Option.mem_toList.mp he), Bool.false_and]
      exact Bool.false_ne_true
    | _ => exact Bool.false_ne_true
  · rw [log] at there
    refine (List.mem_append.mp there).resolve_right fun now => ?_
    rw [notOpening n p answer s (Option.mem_toList.mp now)] at opening
    cases opening

/-- **A step of such a call that spares what is in use** makes no context; what it binds is bound to
what the document is open in. -/
theorem spares (h : OpensOnce path model x₀ x) (tidy : x.Tidy) {m : Move} {others : List Errand}
    {t : Errand} {answer : t.process.need.Answer} (same : x.step m = x.resumed others t answer)
    (spares : x.session.Spares (t.process.resume x.session answer).1 path model)
    (bound : ∀ w c, (t.process.resume x.session answer).2 = .inl (.manager (.binding w c)) →
      ∃ u, x.session.openFor? path model = some u ∧ u.context = c) :
    OpensOnce path model x₀ (x.step m) := by
  have log : (x.step m).log = x.log ++ [.stepped t.number t.process answer x.session] := by
    rw [same]
    rfl
  have openFor : (x.step m).session.openFor? path model = x.session.openFor? path model := by
    rw [same]
    exact spares.openFor
  have none : (Event.stepped t.number t.process answer x.session).makesFor path model = false := by
    rw [Event.makesFor, spares.rested.contexts, decide_eq_false (Nat.lt_irrefl _), Bool.and_false]
  refine h.still tidy m openFor ?_ fun n p got s w c there _ led => ?_
  · rw [made, log, List.countP_append, List.countP_singleton, none, if_neg Bool.false_ne_true]
    rfl
  · rw [log] at there
    refine (List.mem_append.mp there).imp_right fun now => ?_
    simp only [List.mem_singleton, Event.stepped.injEq] at now
    obtain ⟨-, rfl, same, rfl⟩ := now
    cases same
    exact bound w c led

/-- **Every move** that leaves what the document is open in, or is a step of a call that is about to
open it. -/
theorem step (h : OpensOnce path model x₀ x) (tidy : x.Tidy)
    (unmade : x.reads x.session.coordinators.length path = 0 ∧
      x.unread x.session.coordinators.length = 0) {m : Move}
    (leaves : leavesOpen path model x m = true) : OpensOnce path model x₀ (x.step m) := by
  cases opens : x.opensBy path model m with
  | false =>
    rw [leavesOpen, opens, Bool.false_or, beq_iff_eq] at leaves
    exact h.others tidy opens leaves
  | true =>
    rcases opens_step tidy opens with
      same | ⟨others, t, answer, all, same, opening, ⟨session, next⟩, steps, rfl, goesOn⟩
    · rw [same]
      exact h
    · have contexts (u : Tracked) (hu : u ∈ x.session.manager.tracked) :
          u.context < x.session.contexts.length := (tidy.made u hu).context
      cases here : x.session.openFor? path model with
      | some u =>
        obtain ⟨spares, q, next, either⟩ := steps.finds here
        refine h.spares tidy same spares fun w c led => ⟨u, here, ?_⟩
        rw [goesOn q next] at led
        cases led
        rcases either with opening | ⟨w', binding⟩
        · cases opening
        · cases binding
          rfl
      | none =>
        rcases steps.misses contexts here with ⟨spares, q, next, opening⟩ | ⟨gets, w, next⟩
        · refine h.spares tidy same spares fun w c led => ?_
          rw [goesOn q next] at led
          cases led
          cases opening
        · rw [same]
          exact h.gets tidy unmade here all opening gets (goesOn _ next)

/-- **In every run that leaves what the document is open in**, from any point of it on. -/
theorem run (config : Settings) (store : MemoryStore) {before moves : List Move}
    (leaves : ((start (.create config) store).run before).throughout (leavesOpen path model) moves =
      true) :
    OpensOnce path model ((start (.create config) store).run before)
      ((start (.create config) store).run (before ++ moves)) := by
  induction moves using List.reverseRecOn with
  | nil =>
    rw [List.append_nil]
    exact refl (coherent_run _ store before)
  | append_singleton moves m ih =>
    rw [throughout_concat, Bool.and_eq_true, ← run_append] at leaves
    rw [← List.append_assoc, run_concat]
    exact (ih leaves.1).step (tidy_run config store _)
      (unmade_run config store _ path (Nat.le_refl _)) leaves.2

end OpensOnce

/-! ## 5. Calls for a document -/

end Traffic

/-- **The process of a number has called for a document**: it has found a widget factory, and the
model factory of the document. -/
def CallsFor (path model : String) (n : Nat) (log : List Event) : Prop :=
  ∃ widget factory hint s,
    .stepped n (.manager (.updating (.open path widget factory hint))) () s ∈ log ∧
      Text.sameAscii factory.name model = true

/-- **A call that is about to open a document** goes on to do so, or to bind a widget. -/
theorem Process.opens_or_binds {path model : String} {s : Session} {p q : Process}
    {answer : p.need.Answer} (opening : p.isOpening path model = true)
    (led : (p.resume s answer).2 = .inl q) :
    q.isOpening path model = true ∨ ∃ w c, q = .manager (.binding w c) := by
  have closes {after : AfterClosing} (opens : after.isOpening path model = true) {next : Stage}
      (closes : next.closesFor after) :
      (Process.manager next).isOpening path model = true ∨
        ∃ w c, Process.manager next = .manager (.binding w c) := by
    cases next with
    | closing first rest then_ =>
      obtain rfl : then_ = after := closes
      exact .inl opens
    | binding w c => exact .inr ⟨w, c, rfl⟩
    | deleting target =>
      obtain rfl : after = .delete target := closes
      cases opens
    | clearing last =>
      obtain rfl : after = .clear last := closes
      cases opens
    | _ => exact absurd closes id
  cases p with
  | manager stage =>
    obtain ⟨next, rfl⟩ := Process.exists_stage_of_resume led
    have follows := Stage.goesOn_of_resume (Process.resume_manager_inl.mp led)
    cases stage with
    | updating update =>
      cases update with
      | «open» p widget factory hint =>
        have opens : (AfterClosing.open p widget factory hint).isOpening path model = true :=
          opening
        exact closes opens follows
      | _ => cases opening
    | closing first rest after => exact closes opening follows
    | _ => cases opening
  | _ => cases opening

/-- **A call for a document** is about to open it, or waits to bind what it was led to when it did.
-/
theorem Course.binds {path model : String} {n : Nat} {h : List Event} {o : Option Errand}
    (course : Course n h o) (calls : CallsFor path model n h) :
    ∀ t ∈ o, t.process.isOpening path model = true ∨
      ∃ w c p answer s, t.process = .manager (.binding w c) ∧ .stepped n p answer s ∈ h ∧
        p.isOpening path model = true ∧
        (p.resume s answer).2 = .inl (.manager (.binding w c)) := by
  induction course with
  | enters fresh =>
    obtain ⟨_, _, _, _, called, -⟩ := calls
    cases called
  | @carries h t store store' reply before done ih =>
    obtain ⟨widget, factory, hint, s, called, same⟩ := calls
    rintro _ ⟨⟩
    refine (ih ⟨widget, factory, hint, s, by simpa using called, same⟩ t rfl).imp_right ?_
    rintro ⟨w, c, p, answer, s, binding, there, rest⟩
    exact ⟨w, c, p, answer, s, binding, List.mem_append_left _ there, rest⟩
  | @answers h t reply before ih =>
    obtain ⟨widget, factory, hint, s, called, same⟩ := calls
    rintro _ ⟨⟩
    refine (ih ⟨widget, factory, hint, s, by simpa using called, same⟩ t rfl).imp_right ?_
    rintro ⟨w, c, p, answer, s, binding, there, rest⟩
    exact ⟨w, c, p, answer, s, binding, List.mem_append_left _ there, rest⟩
  | @goes h t oracle answer before ready s ih =>
    have here : t.process.isOpening path model = true ∨
        ∃ w c, t.process = .manager (.binding w c) := by
      obtain ⟨widget, factory, hint, s', called, same⟩ := calls
      rcases List.mem_append.mp called with earlier | now
      · refine (ih ⟨widget, factory, hint, s', earlier, same⟩ t rfl).imp_right ?_
        rintro ⟨w, c, p, answer, s, binding, -⟩
        exact ⟨w, c, binding⟩
      · have process := (Event.stepped.inj (List.mem_singleton.mp now)).2.1
        refine .inl ?_
        rw [← process, Process.isOpening, Stage.isOpening, same, Bool.and_true]
        exact beq_self_eq_true path
    intro u hu
    have led := (Errand.of_mem_next? hu).2.1
    obtain ⟨number, process, reply⟩ := t
    rcases here with opening | ⟨w, c, rfl⟩
    · refine (Process.opens_or_binds opening led).imp_right ?_
      rintro ⟨w, c, same⟩
      exact ⟨w, c, process, answer, s, same, List.mem_append_right _ List.mem_cons_self, opening,
        same ▸ led⟩
    · -- what binds a widget ends with that
      cases led

/-! ## 6. Sharing -/

namespace Traffic

variable {path model : String} {x₀ x : Traffic}

/-- **What calls for a document share**, since the traffic was at a certain point. -/
structure Shares (path model : String) (x₀ x : Traffic) : Prop where
  /-- Where the document was open it is open still. -/
  stays : ∀ t, x₀.session.openFor? path model = some t → x.session.openFor? path model = some t
  /-- The calls have made one context for it if it was open nowhere, and none otherwise. -/
  once : x.made path model + (x₀.session.openFor? path model).isSome.toNat =
    x₀.made path model + (x.session.openFor? path model).isSome.toNat
  /-- The first load of the context that was made asks the store for the content once. -/
  read : x₀.session.openFor? path model = none → ∀ t, x.session.openFor? path model = some t →
    x.reads t.coordinator path + x.unread t.coordinator = 1
  /-- A call that came since returns a widget, bound to what the document is open in; in that step
  it does nothing else. -/
  bound : ∀ n a p answer s b outcome, x₀.next ≤ n → x.log = a ++ .stepped n p answer s :: b →
    CallsFor path model n a → (p.resume s answer).2 = .inr outcome →
    ∃ w t, x.session.openFor? path model = some t ∧
      outcome = .manager (.ok (.widget (some w))) ∧
      (p.resume s answer).1 = s.setBindings (s.manager.bindings ++ [⟨w, t.context⟩])
  /-- A call that finds the document open leaves its context as it is, and all that is in use but
  for contexts of the document that have failed.  It starts nothing, and leaves the store alone. -/
  aside : ∀ t, x.session.openFor? path model = some t → ∀ m, x.opensBy path model m = true →
    x.session.Spares (x.step m).session path model ∧
      (x.step m).session.context t.context = x.session.context t.context ∧
      (x.step m).next = x.next ∧ (x.step m).store = x.store
  /-- If no context of the document has failed, all that becomes of the session is one more widget.
  -/
  alone : ∀ t, x.session.openFor? path model = some t →
    (∀ u ∈ x.session.manager.tracked, x.session.standsFor u path model = true →
      (x.session.context u.context).hasFailed = false) →
    ∀ i oracle n widget factory hint reply,
      x.errands[i]? = some ⟨n, .manager (.updating (.open path widget factory hint)), reply⟩ →
      Text.sameAscii factory.name model = true →
      x.step (.go i oracle) = x ∨
        (x.step (.go i oracle)).session = (x.session.newWidget widget t.context hint).1

/-- **A call that finds the document open.** -/
theorem aside_of_openFor? (tidy : x.Tidy) {t : Tracked}
    (here : x.session.openFor? path model = some t) {m : Move}
    (opens : x.opensBy path model m = true) :
    x.session.Spares (x.step m).session path model ∧
      (x.step m).session.context t.context = x.session.context t.context ∧
      (x.step m).next = x.next ∧ (x.step m).store = x.store := by
  rcases opens_step tidy opens with
    same | ⟨others, u, answer, -, same, -, ⟨session, next⟩, steps, rfl, -⟩
  · rw [same]
    exact ⟨.refl x.session path model, rfl, rfl, rfl⟩
  · obtain ⟨spares, -⟩ := steps.finds here
    have started : (u.process.resume x.session answer).1.started = [] :=
      spares.started.trans tidy.started
    have after : x.session.Spares (x.resumed others u answer).session path model :=
      { spares with
        started := tidy.started.symm
        rested := spares.rested.trans (.of_eq (List.Subset.refl _) started.symm rfl rfl)
        advances := spares.advances.trans (.of_eq rfl rfl) }
    rw [same]
    refine ⟨after, after.context t (spares.mem here), ?_, rfl⟩
    show x.next + (u.process.resume x.session answer).1.started.length = x.next
    rw [started]
    rfl

/-- **And no context of the document has failed.** -/
theorem alone_of_openFor? (tidy : x.Tidy) {t : Tracked}
    (here : x.session.openFor? path model = some t)
    (sound : ∀ u ∈ x.session.manager.tracked, x.session.standsFor u path model = true →
      (x.session.context u.context).hasFailed = false) {i n : Nat} {oracle : Oracle}
    {widget : WidgetFactory} {factory : ModelFactory} {hint : Option OpenHint} {reply : Option Unit}
    (found : x.errands[i]? = some ⟨n, .manager (.updating (.open path widget factory hint)), reply⟩)
    (same : Text.sameAscii factory.name model = true) :
    x.step (.go i oracle) = x ∨
      (x.step (.go i oracle)).session = (x.session.newWidget widget t.context hint).1 := by
  rcases x.go_cases i oracle with still | ⟨before, after, u, answer, there, -, -, -, goes⟩
  · exact .inl still
  · right
    obtain rfl := Option.some.inj (there.symm.trans found)
    have opened := Stage.resume_open here sound same widget hint
    have made : ((Process.manager (.updating (.open path widget factory hint))).resume x.session
        answer).1 = (x.session.newWidget widget t.context hint).1 := by
      rw [Ensemble.session_manager]
      exact congrArg Prod.fst opened
    rw [step, goes]
    show ({ ((Process.manager (.updating (.open path widget factory hint))).resume x.session
      answer).1 with started := [] } : Session) = _
    rw [made, ← tidy.started]
    rfl

/-- **A document is opened once, and shared.**  From any point of any run on, as long as nothing but
calls that open the document changes what it is open in: however many calls open it, through
whatever widget factories, and in whatever order they and everything else take their steps. -/
theorem opens_share (config : Settings) (store : MemoryStore) {before moves : List Move}
    (path model : String)
    (leaves : ((start (.create config) store).run before).throughout (leavesOpen path model) moves =
      true) :
    Shares path model ((start (.create config) store).run before)
      ((start (.create config) store).run (before ++ moves)) := by
  have once := OpensOnce.run config store leaves
  have tidy := tidy_run config store (before ++ moves)
  refine ⟨once.stays, once.once, once.read, ?_,
    fun _ here _ opens => aside_of_openFor? tidy here opens,
    fun _ here sound _ _ _ _ _ _ _ found same => alone_of_openFor? tidy here sound found same⟩
  intro n a p answer s b outcome new log calls ends
  obtain ⟨reply, oracle, course, -⟩ := course_of_log log
  have own : CallsFor path model n (own n a) := by
    obtain ⟨widget, factory, hint, s', called, same⟩ := calls
    exact ⟨widget, factory, hint, s', List.mem_filter.mpr ⟨called, by simp [Event.number?]⟩, same⟩
  rcases course.binds own ⟨n, p, reply⟩ rfl with
    opening | ⟨w, c, q, got, s', same, there, opens, led⟩
  · -- a call that is about to open the document does not end
    cases p with
    | manager stage =>
      obtain ⟨q, goesOn⟩ := Stage.exists_next_of_isOpening opening s answer
      cases (Process.resume_manager_inl.mpr goesOn).symm.trans ends
    | _ => cases opening
  · have logged : Event.stepped n q got s' ∈
        ((start (.create config) store).run (before ++ moves)).log := by
      rw [log]
      exact List.mem_append_left _ (List.mem_of_mem_filter there)
    obtain ⟨t, here, rfl⟩ := once.binds n q got s' w c new logged opens led
    obtain rfl : p = .manager (.binding w t.context) := same
    cases ends
    exact ⟨w, t, here, rfl, rfl⟩

/-- Two widget factories for one model factory. -/
def twoViews : Registry where
  tables := Registry.sample.tables.putWidget "reader" ⟨"reader", [], [], "text", none⟩

/-- A document is opened by two calls side by side, the second of which waits for the first.  It is
loaded and edited, and opened once more. -/
def opensThrice : List Move :=
  [.call (.open "a" "editor" none), .call (.open "a" "reader" none)] ++ goes 0 4 ++ goes 1 1 ++
    goes 0 3 ++ [.carryOut 0, .go 0 .obliging, .deed (.setModel 0 ⟨.text "two", true, false⟩),
      .call (.open "a" "editor" none)] ++ goes 1 3

theorem opens_share_opensThrice :
    let registers : List Move := [.deed (.setRegistry twoViews)]
    let x₀ := (start (.create {}) oneFile).run registers
    let x := (start (.create {}) oneFile).run (registers ++ opensThrice)
    x₀.throughout (leavesOpen "a" "text") opensThrice = true ∧ Shares "a" "text" x₀ x ∧
      x.log.filterMap Event.returned? =
        [.widget (some (.issued 0)), .widget (some (.issued 1)), .widget (some (.issued 2))] ∧
      x.session.manager.bindings = [⟨.issued 0, 0⟩, ⟨.issued 1, 0⟩, ⟨.issued 2, 0⟩] ∧
      x.made "a" "text" = 1 ∧ x.reads 0 "a" = 1 ∧ (x.session.context 0).isReady = true ∧
      (x.session.context 0).model = ⟨.text "two", true, false⟩ := by
  have leaves : ((start (.create {}) oneFile).run
      [.deed (.setRegistry twoViews)]).throughout (leavesOpen "a" "text") opensThrice = true := by
    decide +kernel
  exact ⟨leaves, opens_share {} oneFile "a" "text" leaves, by decide +kernel,
    by decide +kernel, by decide +kernel, by decide +kernel, by decide +kernel, by decide +kernel⟩

end Traffic

end Folio
