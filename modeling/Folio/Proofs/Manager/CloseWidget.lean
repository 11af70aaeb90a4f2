/-
# What a call that closes a widget does

Any number of calls that open, create and close go on side by side, models are edited, and the host
takes as long as it likes to answer.  A call that closes a widget closes its context only where that
was checked; it asks the host at most once; a refusal ends it without any change; and where another
widget shows the context by the time of its last look, it takes out its own widget and nothing else
(`Traffic.ClosesWithCare`).

The first three are facts about the course of the call.  The last is about the session that the call
finds, and uses that the books are kept and that what is in use is live.
-/
import Folio.Proofs.Manager.Confirmation
import Folio.Proofs.Manager.Live

namespace Folio

/-! ## 1. The stages of the call -/

namespace Stage

/-- The stages of a call that closes this widget. -/
def closesWidget (w : WidgetId) : Stage → Prop
  | .called op => op = .closeWidget w
  | .updating update => ∃ confirmed, update = .closeWidget w confirmed
  | .unbinding v _ => v = w
  | .confirming v => v = w
  | .closing _ _ after => after = .finish (.closed true)
  | _ => False

/-- The call stays at these stages. -/
theorem closesWidget_of_goesOn {w : WidgetId} {p q : Stage} (kind : p.closesWidget w)
    (next : p.goesOn q) : q.closesWidget w := by
  cases p with
  | called op =>
    obtain rfl : op = _ := kind
    obtain rfl : q = _ := next
    exact ⟨false, rfl⟩
  | updating update =>
    obtain ⟨confirmed, rfl⟩ := kind
    obtain rfl : q = _ := next
    rfl
  | unbinding v confirmed =>
    obtain rfl : v = w := kind
    obtain ⟨-, rfl⟩ | ⟨t, rfl⟩ := next <;> rfl
  | confirming v =>
    obtain rfl : v = w := kind
    obtain rfl : q = _ := next
    exact ⟨true, rfl⟩
  | closing t rest after =>
    obtain rfl : after = _ := kind
    have closes : q.closesFor (.finish (.closed true)) := next
    cases q with
    | closing u rest' after' => exact closes
    | binding v c => obtain ⟨_, _, _, _, h⟩ | ⟨_, _, _, _, h⟩ := closes <;> cases h
    | deleting path => cases closes
    | clearing last => cases closes
    | _ => exact absurd closes id
  | _ => exact absurd kind id

end Stage

/-- Taking out a widget does not touch contexts. -/
theorem Manager.contexts_unbind (s : Session) (w : WidgetId) (confirmed : Bool) :
    (unbind s w confirmed).1.contexts = s.contexts := by
  unfold unbind
  split
  · rfl
  · simp only
    split
    · rfl
    · split
      · exact Session.Sound.contexts_taken s w
      · split <;> exact Session.Sound.contexts_taken s w

/-- **Only where it is to close a context does the call close one.** -/
theorem Stage.closing_of_isDisposed {w : WidgetId} {s : Session} {stage : Stage}
    {answer : stage.need.Answer} {c : ContextId} (kind : stage.closesWidget w)
    (live : (s.context c).isDisposed = false)
    (closed : ((stage.resume s answer).1.context c).isDisposed = true) :
    ∃ t rest, t.context = c ∧ stage = .closing t rest (.finish (.closed true)) := by
  -- where this context is as it was, it is not closed
  have changed (same : (stage.resume s answer).1.context c = s.context c) : False := by
    rw [same, live] at closed
    cases closed
  cases stage with
  | called op =>
    obtain rfl : op = _ := kind
    refine (changed ?_).elim
    simp only [resume]
    split <;> rfl
  | updating update =>
    obtain ⟨confirmed, rfl⟩ := kind
    exact (changed rfl).elim
  | unbinding v confirmed =>
    refine (changed ?_).elim
    rw [Session.context, resume, Manager.contexts_unbind, Session.context]
  | confirming v =>
    refine (changed ?_).elim
    simp only [resume]
    split <;> rfl
  | closing t rest after =>
    obtain rfl : after = _ := kind
    have session : ((closing t rest (.finish (.closed true))).resume s answer).1 =
        s.retireContext t := by cases rest <;> rfl
    refine ⟨t, rest, ?_, rfl⟩
    by_contra other
    refine changed ?_
    rw [session, Session.context_retireContext_of_ne (Ne.symm other)]
  | _ => exact absurd kind id

/-! ## 2. A context that another widget shows -/

/-- **Only this widget is closed**: it is out of use and disposed, the host is told so, and nothing
else is touched. -/
structure Session.ClosesOnly (s t : Session) (w : WidgetId) : Prop where
  bindings : t.manager.bindings = s.manager.bindings.eraseP (·.widget == w)
  tracked : t.manager.tracked = s.manager.tracked
  contexts : t.contexts = s.contexts
  coordinators : t.coordinators = s.coordinators
  disposed : ∃ x, t.widget? w = some x ∧ x.disposed = true
  others : ∀ v, v ≠ w → t.widget? v = s.widget? v
  lifecycle : t.lifecycle = s.lifecycle ++ [.disposed w]

namespace Session

theorem ClosesOnly.taken {s : Session} {w : WidgetId} (inUse : s.InUse w) :
    s.ClosesOnly (Sound.taken s w) w where
  bindings := Sound.bindings_taken s w
  tracked := Sound.tracked_taken s w
  contexts := Sound.contexts_taken s w
  coordinators := by cases w <;> rfl
  disposed := by
    obtain ⟨x, hx, -⟩ := inUse.widget
    have there :
        (s.setBindings (s.manager.bindings.eraseP (·.widget == w))).widget? w = some x := by
      cases w <;> exact hx
    exact ⟨_, widget?_disposeWidget there, rfl⟩
  others v hv := by
    have same := widget?_disposeWidget_of_ne
      (s := s.setBindings (s.manager.bindings.eraseP (·.widget == w))) hv
    cases v <;> exact same
  lifecycle := by cases w <;> rfl

variable {s : Session} {owner : Option Stage}

/-- The widgets in use by themselves, when nothing is in hand. -/
theorem Kept.ledger_bindings (kept : s.Kept [] []) :
    s.Ledger (s.manager.bindings.map (·.widget)) := by
  have ledger := kept.ledger
  rwa [shown, List.append_nil] at ledger

/-- A widget in use is found by its identity. -/
theorem Kept.find?_bindings (kept : s.Kept [] []) {b : Binding} (hb : b ∈ s.manager.bindings) :
    s.manager.bindings.find? (·.widget == b.widget) = some b := by
  obtain ⟨found, hfound⟩ : ∃ d, s.manager.bindings.find? (·.widget == b.widget) = some d :=
    Option.isSome_iff_exists.mp (List.find?_isSome.mpr ⟨b, hb, beq_iff_eq.mpr rfl⟩)
  have same : found.widget = b.widget := beq_iff_eq.mp
    (List.find?_some (p := fun d : Binding => d.widget == b.widget) hfound)
  rw [hfound, List.inj_on_of_nodup_map kept.ledger_bindings.nodup
    (List.mem_of_find?_eq_some hfound) hb same]

end Session

/-- A context that two widgets show is not left by one of them. -/
theorem Manager.isLast_eq_false {s : Session} {b other : Binding} (hb : b ∈ s.manager.bindings)
    (hother : other ∈ s.manager.bindings) (distinct : other.widget ≠ b.widget)
    (same : other.context = b.context) : isLast s b.context = false := by
  rw [isLast, beq_eq_false_iff_ne]
  intro one
  obtain ⟨only, honly⟩ := List.length_eq_one_iff.mp one
  have mem {d : Binding} (hd : d ∈ s.manager.bindings) (shows : d.context = b.context) :
      d = only := by
    have there : d ∈ s.manager.bindings.filter (·.context == b.context) :=
      List.mem_filter.mpr ⟨hd, beq_iff_eq.mpr shows⟩
    rwa [honly, List.mem_singleton] at there
  exact distinct (by rw [mem hother same, mem hb rfl])

/-- **The last look finds another widget**: only the one that was meant is closed. -/
theorem Manager.unbind_shared {s : Session} (kept : s.Kept [] []) {b other : Binding}
    (hb : b ∈ s.manager.bindings) (hother : other ∈ s.manager.bindings)
    (distinct : other.widget ≠ b.widget) (same : other.context = b.context) (confirmed : Bool) :
    unbind s b.widget confirmed = reply (Session.Sound.taken s b.widget) (.closed true) := by
  have shared := isLast_eq_false hb hother distinct same
  have found := kept.find?_bindings hb
  rcases unbind_cases s b.widget confirmed with ⟨none, -⟩ | ⟨d, hd, cases⟩
  · rw [found] at none
    cases none
  · rw [found, Option.some.injEq] at hd
    subst hd
    rcases cases with ⟨last, -⟩ | ⟨-, he⟩ | ⟨last, -⟩
    · rw [shared] at last
      cases last
    · exact he
    · rw [shared] at last
      cases last

/-! ## 3. Every run -/

namespace Traffic

/-- The host disposes a widget or a context by itself. -/
def Move.disposes : Move → Bool
  | .deed d => d.disposes
  | _ => false

/-- **Widgets are closed with care.** -/
structure ClosesWithCare (x : Traffic) : Prop where
  /-- A context that such a call closes was checked in this same call. -/
  checked : ∀ n w p answer s a b c, x.log = a ++ .stepped n p answer s :: b →
    Began n (.closeWidget w) a → (s.context c).isDisposed = false →
    ((p.resume s answer).1.context c).isDisposed = true →
    ∃ t, t.context = c ∧ CheckedIn n t (own n a)
  asksOnce : ∀ n, (own n x.log).countP Event.asks ≤ 1
  /-- When the host refuses, the call ends and has changed nothing. -/
  refused : ∀ n w s, .stepped n (.manager (.confirming w)) false s ∈ x.log →
    ((Process.manager (.confirming w)).resume s false).2 = .inr (.manager (.ok (.closed false))) ∧
      ∀ e ∈ own n x.log, e.isIdle
  /-- Where another widget shows the context, only the widget of the call is closed. -/
  shared : ∀ n w v confirmed s a b, Began n (.closeWidget w) a →
    x.log = a ++ .stepped n (.manager (.unbinding v confirmed)) () s :: b →
    ∀ shown ∈ s.manager.bindings, shown.widget = w →
      ∀ other ∈ s.manager.bindings, other.widget ≠ w → other.context = shown.context →
        ∃ t, (Stage.unbinding v confirmed).resume s () = (t, .inr (.ok (.closed true))) ∧
          s.ClosesOnly t w ∧ ∃ u ∈ t.manager.tracked,
            u.context = shown.context ∧ (t.context u.context).isDisposed = false

section Run

variable {config : Settings} {store : MemoryStore} {moves : List Move}

/-- What a call closes was checked. -/
theorem checkedIn_of_log {n : Nat} {w : WidgetId} {p : Process} {answer : p.need.Answer}
    {s : Session} {a b : List Event} {c : ContextId}
    (log : ((start (.create config) store).run moves).log = a ++ .stepped n p answer s :: b)
    (began : Began n (.closeWidget w) a) (live : (s.context c).isDisposed = false)
    (closed : ((p.resume s answer).1.context c).isDisposed = true) :
    ∃ t, t.context = c ∧ CheckedIn n t (own n a) := by
  obtain ⟨stage, rfl, kind⟩ : ∃ stage, p = .manager stage ∧ stage.closesWidget w :=
    among_of_log Stage.closesWidget_of_goesOn rfl log began
  rw [Ensemble.session_manager] at closed
  obtain ⟨t, rest, rfl, rfl⟩ := Stage.closing_of_isDisposed kind live closed
  obtain ⟨reply, oracle, course, -⟩ := course_of_log log
  exact ⟨t, rfl, ((Asking.of_course course).checked _ rfl t rest rfl).2⟩

theorem countP_asks (n : Nat) :
    (own n ((start (.create config) store).run moves).log).countP Event.asks ≤ 1 := by
  cases hl : own n ((start (.create config) store).run moves).log with
  | nil => exact Nat.zero_le 1
  | cons e rest =>
    have he : e ∈ own n ((start (.create config) store).run moves).log := by simp [hl]
    obtain ⟨there, about⟩ := List.mem_filter.mp he
    obtain ⟨o, course⟩ := course_of_mem (beq_iff_eq.mp about) there
    rw [← hl]
    exact (Asking.of_course course).once

theorem isIdle_of_refused {n : Nat} {w : WidgetId} {s : Session}
    (he : .stepped n (.manager (.confirming w)) false s ∈
      ((start (.create config) store).run moves).log) :
    ∀ e ∈ own n ((start (.create config) store).run moves).log, e.isIdle := by
  obtain ⟨o, course⟩ := course_of_mem rfl he
  refine ((Asking.of_course course).refused w s ?_).2
  exact stepped_mem_own he

end Run

/-- **Closing widgets is done with care**, in every run in which the host disposes nothing by
itself. -/
theorem closes_with_care (config : Settings) (store : MemoryStore) (moves : List Move)
    (harmless : ∀ m ∈ moves, m.disposes = false) :
    ((start (.create config) store).run moves).ClosesWithCare where
  checked n w p answer s a b c log began := checkedIn_of_log log began
  asksOnce := countP_asks
  refused n w s he := ⟨rfl, isIdle_of_refused he⟩
  shared := by
    rintro n w v confirmed s a b began log shown hshown rfl other hother distinct same
    obtain ⟨stage, same_stage, kind⟩ : ∃ stage, Process.manager (.unbinding v confirmed) =
        .manager stage ∧ stage.closesWidget shown.widget :=
      among_of_log Stage.closesWidget_of_goesOn rfl log began
    cases same_stage
    obtain rfl : v = shown.widget := kind
    have allowed : ∀ m ∈ moves, Allowed (fun d => d.disposes = false) (fun _ => True) m := by
      intro m hm
      have ok := harmless m hm
      cases m with
      | deed d => exact ok
      | _ => trivial
    obtain ⟨⟨books, -⟩, live⟩ := inv_of_log Ensemble.upheld_live
      (x := start (.create config) store) (Ensemble.orderly_start_live config) rfl allowed rfl log
    have kept : s.Kept [] [] := books.kept
    have closes : s.ClosesOnly (Session.Sound.taken s shown.widget) shown.widget :=
      .taken (kept.ledger_bindings.inUse _ (List.mem_map_of_mem hshown))
    have bound := kept.roster.bound shown (List.mem_append_left [] hshown)
    rw [List.append_nil] at bound
    obtain ⟨u, hu, shows⟩ := List.mem_map.mp bound
    refine ⟨_, Manager.unbind_shared kept hshown hother distinct same confirmed, closes, u, ?_,
      shows, ?_⟩
    · rwa [closes.tracked]
    · rw [Session.context, closes.contexts]
      exact live u hu

/-- A document is opened and edited, and its widget is to be closed.  While the host is asked about
that, the document is opened again; then the host agrees. -/
def opensMeanwhile : List Move :=
  [.deed (.setRegistry .sample), .call (.open "a" "editor" none)] ++ goes 0 4 ++
    [.deed (.setModel 0 ((Model.create .text).setDirty true)), .call (.closeWidget (.issued 0))] ++
    goes 1 3 ++ [.call (.open "a" "editor" none)] ++ goes 2 3 ++ goes 1 3

/-- The first widget is closed and the context lives on for the second; when that one is to be
closed too, the host is asked once more and the context is closed. -/
theorem closes_with_care_opensMeanwhile :
    let moves := opensMeanwhile ++ .call (.closeWidget (.issued 1)) :: goes 1 7
    let x := (start (.create {}) {}).run opensMeanwhile
    let y := (start (.create {}) {}).run moves
    (∀ m ∈ moves, m.disposes = false) ∧
      x.session.manager.bindings = [⟨.issued 1, 0⟩] ∧ (x.session.context 0).isDisposed = false ∧
      y.session.manager.bindings = [] ∧ (y.session.context 0).isDisposed = true ∧
      y.log.countP Event.asks = 2 ∧ y.ClosesWithCare :=
  have harmless : ∀ m ∈ opensMeanwhile ++ .call (.closeWidget (.issued 1)) :: goes 1 7,
      m.disposes = false := by decide +kernel
  ⟨harmless, by decide +kernel, by decide +kernel, by decide +kernel, by decide +kernel,
    by decide +kernel, closes_with_care {} {} _ harmless⟩

end Traffic

end Folio
