/-
# Closing a widget with the host's word

A call that closes a widget may have to ask the host first, and lets go of all locks while it waits.
What it has found before may be different by then, so it looks again.

The events of such a call, taken by themselves, tell that it asks at most once; that it changes
nothing up to the host's word, and nothing at all if the host refuses; and that it closes a context
only where it found, with both locks in hand, a model without changes, or had the host's word before
(`Asking`).  That is shown by induction on the course of the call.  What the other calls do
meanwhile makes no difference to it.
-/
import Folio.Proofs.Manager.Balance
import Folio.Proofs.Traffic.Calls

namespace Folio

/-! ## 1. Stages of closing a widget -/

namespace Stage

/-- The call is to close a widget and has not asked the host. -/
def mayAsk : Stage → Bool
  | .called (.closeWidget _) => true
  | .updating (.closeWidget _ false) => true
  | .unbinding _ false => true
  | _ => false

/-- The widget that the host has agreed to close. -/
def agreedFor? : Stage → Option WidgetId
  | .updating (.closeWidget w true) => some w
  | .unbinding w true => some w
  | _ => none

/-- **Where a stage of closing a widget comes from.** -/
def comesFrom : Stage → Stage → Prop
  | .called (.closeWidget _), _ => False
  | .updating (.closeWidget w false), p => p = .called (.closeWidget w)
  | .updating (.closeWidget w true), p => p = .confirming w
  | .unbinding w confirmed, p => p = .updating (.closeWidget w confirmed)
  | .confirming w, p => p = .unbinding w false
  | .closing _ rest (.finish (.closed true)), p =>
    (∃ w confirmed, p = .unbinding w confirmed ∧ rest = []) ∨
      ∃ u closing, p = .closing u closing (.finish (.closed true))
  | _, _ => True

variable {s : Session} {stage q : Stage}

theorem comesFrom_of_closesFor {after : AfterClosing} (h : q.closesFor after)
    (other : after ≠ .finish (.closed true)) : q.comesFrom stage := by
  cases q with
  | closing t rest a =>
    obtain rfl : a = after := h
    unfold comesFrom
    split <;> simp_all
  | binding w c => trivial
  | deleting path => trivial
  | clearing last => trivial
  | _ => exact absurd h id

theorem comesFrom_of_opens {otherwise : Option Wanted} (h : opens otherwise q) :
    q.comesFrom stage := by
  obtain ⟨w, -, rfl⟩ := h
  trivial

theorem comesFrom_of_goesOn (h : stage.goesOn q) : q.comesFrom stage := by
  cases stage with
  | called op =>
    cases op with
    | closeWidget w =>
      obtain rfl : q = _ := h
      rfl
    | «open» path name hint =>
      obtain ⟨_, _, rfl⟩ := h
      trivial
    | create path name hint =>
      obtain ⟨_, _, rfl⟩ := h
      trivial
    | find path name =>
      obtain ⟨_, _, rfl⟩ := h
      trivial
    | reveal path name hint =>
      obtain ⟨_, _, rfl⟩ | rfl := h <;> trivial
    | _ =>
      obtain rfl : q = _ := h
      trivial
  | updating update =>
    cases update with
    | closeWidget w confirmed =>
      obtain rfl : q = _ := h
      rfl
    | renameFile source target =>
      obtain ⟨models, rfl⟩ := h
      trivial
    | closeFile path delete => exact comesFrom_of_closesFor h (by cases delete <;> simp)
    | «open» path widget model hint => exact comesFrom_of_closesFor h (by simp)
    | create path widget model hint => exact comesFrom_of_closesFor h (by simp)
    | closeAll last => exact comesFrom_of_closesFor h (by simp)
  | finding path widget model otherwise =>
    obtain ⟨c, rfl⟩ | h := h
    · trivial
    · exact comesFrom_of_opens h
  | searching c widget otherwise => exact comesFrom_of_opens h
  | closing t rest after =>
    by_cases last : after = .finish (.closed true)
    · subst last
      cases q with
      | closing u rest' a =>
        obtain rfl : a = _ := h
        exact .inr ⟨t, rest, rfl⟩
      | binding w c => trivial
      | deleting path => trivial
      | clearing last => trivial
      | _ => exact absurd h id
    · exact comesFrom_of_closesFor h last
  | unbinding w confirmed =>
    obtain ⟨rfl, rfl⟩ | ⟨t, rfl⟩ := h
    · rfl
    · exact .inl ⟨w, confirmed, rfl, rfl⟩
  | confirming w =>
    obtain rfl : q = _ := h
    rfl
  | moving source target models => exact comesFrom_of_closesFor h (by simp)
  | _ => exact absurd h id
/-- What may ask comes from what may. -/
theorem mayAsk_of_comesFrom (h : q.comesFrom stage) (asks : q.mayAsk = true) :
    stage.mayAsk = true := by
  cases q with
  | called op => cases op <;> first | exact absurd h id | cases asks
  | updating update =>
    cases update with
    | closeWidget w confirmed =>
      cases confirmed with
      | true => cases asks
      | false =>
        obtain rfl : stage = _ := h
        rfl
    | _ => cases asks
  | unbinding w confirmed =>
    cases confirmed with
    | true => cases asks
    | false =>
      obtain rfl : stage = _ := h
      rfl
  | _ => cases asks

end Stage

namespace Manager

open Session.Sound (taken)

/-- Only one widget shows the context. -/
def isLast (s : Session) (c : ContextId) : Bool :=
  (s.manager.bindings.filter (·.context == c)).length == 1

/-- **What happens when a widget is to be taken out.** -/
theorem unbind_cases (s : Session) (w : WidgetId) (confirmed : Bool) :
    (s.manager.bindings.find? (·.widget == w) = none ∧
        unbind s w confirmed = fail s (.widgetNotFound w)) ∨
      ∃ b, s.manager.bindings.find? (·.widget == w) = some b ∧
        ((isLast s b.context = true ∧ confirmed = false ∧
            unbind s w confirmed = await s (.confirming w)) ∨
          (isLast s b.context = false ∧
            unbind s w confirmed = reply (taken s w) (.closed true)) ∨
          (isLast s b.context = true ∧
            (confirmed = true ∨ (s.context b.context).model.dirty = false) ∧
            (unbind s w confirmed = reply (taken s w) (.closed true) ∨
              ∃ t s', t.context = b.context ∧
                unbind s w confirmed = await s' (.closing t [] (.finish (.closed true)))))) := by
  unfold unbind
  cases found : s.manager.bindings.find? (·.widget == w) with
  | none => exact .inl ⟨rfl, rfl⟩
  | some b =>
    refine .inr ⟨b, rfl, ?_⟩
    simp only
    rw [← isLast]
    cases last : isLast s b.context with
    | false => exact .inr (.inl ⟨rfl, rfl⟩)
    | true =>
      cases agreed : confirmed || !(s.context b.context).model.dirty with
      | false =>
        obtain ⟨rfl, dirty⟩ : confirmed = false ∧ (s.context b.context).model.dirty = true := by
          simpa using agreed
        exact .inl ⟨rfl, rfl, by simp [dirty]⟩
      | true =>
        have fine : (true && !confirmed && (s.context b.context).model.dirty) = false := by
          revert agreed
          cases confirmed <;> cases (s.context b.context).model.dirty <;> decide
        refine .inr (.inr ⟨rfl, by simpa using agreed, ?_⟩)
        simp only [fine, Bool.false_eq_true, if_false, Bool.not_true]
        split
        · exact .inl rfl
        · next t found =>
          exact .inr ⟨t, _, by simpa using List.find?_some found, rfl⟩

end Manager

namespace Stage

/-- Up to the host's word a call changes nothing. -/
theorem session_of_mayAsk {s : Session} {stage q : Stage} {answer : stage.need.Answer}
    (h : (stage.resume s answer).2 = .inl q)
    (asks : q.mayAsk = true ∨ ∃ w, q = .confirming w) : (stage.resume s answer).1 = s := by
  have before := comesFrom_of_goesOn (goesOn_of_resume h)
  rcases asks with asks | ⟨w, rfl⟩
  · cases q with
    | called op => cases op <;> first | exact absurd before id | cases asks
    | updating update =>
      cases update with
      | closeWidget w confirmed =>
        cases confirmed with
        | true => cases asks
        | false =>
          obtain rfl : stage = _ := before
          simp only [resume]
          split <;> rfl
      | _ => cases asks
    | unbinding w confirmed =>
      obtain rfl : stage = _ := before
      rfl
    | _ => cases asks
  · obtain rfl : stage = _ := before
    simp only [resume] at h ⊢
    rcases Manager.unbind_cases s w false with
      ⟨-, he⟩ | ⟨b, -, ⟨-, -, he⟩ | ⟨-, he⟩ | ⟨-, -, he⟩⟩
    · rw [he]
      rfl
    · rw [he]
      rfl
    · rw [he] at h
      cases h
    · obtain he | ⟨t, s', -, he⟩ := he <;> rw [he] at h <;> cases h

end Stage

/-- **The last look at a context that is closed**: its model has no changes, or the host has
agreed. -/
theorem Manager.clean_or_confirmed {s : Session} {w : WidgetId} {confirmed : Bool} {t : Tracked}
    {rest : List Tracked} {after : AfterClosing}
    (h : (Manager.unbind s w confirmed).2 = .inl (.closing t rest after)) :
    confirmed = true ∨ (s.context t.context).model.dirty = false := by
  rcases Manager.unbind_cases s w confirmed with
    ⟨-, he⟩ | ⟨b, -, ⟨-, -, he⟩ | ⟨-, he⟩ | ⟨-, ok, he⟩⟩
  · rw [he] at h
    cases h
  · rw [he] at h
    cases h
  · rw [he] at h
    cases h
  · obtain he | ⟨u, s', hu, he⟩ := he
    · rw [he] at h
      cases h
    · rw [he] at h
      cases h
      rwa [hu]

/-! ## 2. The course of a call -/

/-- With this event the host is asked. -/
def Event.asks : Event → Bool
  | .stepped _ p answer s =>
    match (p.resume s answer).2 with
    | .inl (.manager (.confirming _)) => true
    | _ => false
  | _ => false

/-- The event is a step of a process. -/
def Event.isStep : Event → Bool
  | .stepped _ _ _ _ => true
  | _ => false

/-- The event changes nothing in the session. -/
def Event.isIdle : Event → Prop
  | .stepped _ p answer s => (p.resume s answer).1 = s
  | _ => True

/-- **A context was checked before it is closed**: when the call took out the last widget, the model
had no changes, or the host had agreed before, in this same call. -/
def CheckedIn (n : Nat) (t : Tracked) (log : List Event) : Prop :=
  ∃ before w confirmed s after,
    log = before ++ .stepped n (.manager (.unbinding w confirmed)) () s :: after ∧
    (Manager.unbind s w confirmed).2 = .inl (.closing t [] (.finish (.closed true))) ∧
    ((s.context t.context).model.dirty = false ∨
      ∃ s', .stepped n (.manager (.confirming w)) true s' ∈ before)

/-- **What the events of one process say about asking the host.** -/
structure Asking (n : Nat) (h : List Event) (o : Option Errand) : Prop where
  once : h.countP Event.asks ≤ 1
  unasked : ∀ t ∈ o, ∀ stage, t.process = .manager stage → stage.mayAsk = true →
    h.countP Event.asks = 0 ∧ ∀ e ∈ h, e.isIdle
  waits : ∀ t ∈ o, ∀ w, t.process = .manager (.confirming w) → ∀ e ∈ h, e.isIdle
  agreed : ∀ t ∈ o, ∀ stage w, t.process = .manager stage → stage.agreedFor? = some w →
    ∃ s, .stepped n (.manager (.confirming w)) true s ∈ h
  checked : ∀ t ∈ o, ∀ u rest,
    t.process = .manager (.closing u rest (.finish (.closed true))) → rest = [] ∧ CheckedIn n u h
  refused : ∀ w s, .stepped n (.manager (.confirming w)) false s ∈ h → o = none ∧ ∀ e ∈ h, e.isIdle

theorem CheckedIn.append {n : Nat} {t : Tracked} {log : List Event} (h : CheckedIn n t log)
    (more : List Event) : CheckedIn n t (log ++ more) := by
  obtain ⟨before, w, confirmed, s, after, rfl, rest⟩ := h
  exact ⟨before, w, confirmed, s, after ++ more, by simp, rest⟩

namespace Asking

variable {n : Nat} {h : List Event}

/-- Whoever has just entered has asked nobody. -/
theorem fresh {p : Process} (fresh : p.isFresh = true) :
    Asking n [] (some { number := n, process := p }) where
  once := Nat.zero_le 1
  unasked _ _ _ _ _ := ⟨rfl, fun _ he => absurd he List.not_mem_nil⟩
  waits _ _ _ _ _ he := absurd he List.not_mem_nil
  agreed t ht stage w hp hw := by
    cases ht
    obtain rfl : p = _ := hp
    cases stage <;> first | cases hw | cases fresh
  checked t ht u rest hp := by
    cases ht
    obtain rfl : p = _ := hp
    cases fresh
  refused _ _ he := absurd he List.not_mem_nil

/-- What happens at the store makes no difference. -/
theorem aside {t u : Errand} (asking : Asking n h (some t)) (same : u.process = t.process)
    {e : Event} (about : e.isStep = false) : Asking n (h ++ [e]) (some u) := by
  have silent : e.asks = false := by cases e <;> first | rfl | cases about
  have idle : e.isIdle := by cases e <;> trivial
  have count : (h ++ [e]).countP Event.asks = h.countP Event.asks := by simp [silent]
  have all (quiet : ∀ d ∈ h, d.isIdle) : ∀ d ∈ h ++ [e], d.isIdle := by
    intro d hd
    rcases List.mem_append.mp hd with hd | hd
    · exact quiet d hd
    · rwa [List.mem_singleton.mp hd]
  refine ⟨count ▸ asking.once, ?_, ?_, ?_, ?_, ?_⟩
  · rintro _ ⟨⟩ stage hp asks
    rw [same] at hp
    obtain ⟨none, quiet⟩ := asking.unasked t rfl stage hp asks
    exact ⟨count.trans none, all quiet⟩
  · rintro _ ⟨⟩ w hp
    exact all (asking.waits t rfl w (same ▸ hp))
  · rintro _ ⟨⟩ stage w hp hw
    obtain ⟨s, hs⟩ := asking.agreed t rfl stage w (same ▸ hp) hw
    exact ⟨s, List.mem_append_left _ hs⟩
  · rintro _ ⟨⟩ v rest hp
    obtain ⟨hr, checked⟩ := asking.checked t rfl v rest (same ▸ hp)
    exact ⟨hr, checked.append _⟩
  · intro w s hs
    rcases List.mem_append.mp hs with hs | hs
    · cases (asking.refused w s hs).1
    · rw [← List.mem_singleton.mp hs] at about
      cases about

theorem next_of_asks {stage : Stage} {answer : stage.need.Answer} {s : Session}
    (asks : (Event.stepped n (.manager stage) answer s).asks = true) :
    ∃ w, (stage.resume s answer).2 = .inl (.confirming w) := by
  simp only [Event.asks] at asks
  split at asks
  · next w hr => exact ⟨w, Process.resume_manager_inl.mp hr⟩
  · cases asks

/-- **One step of a call of the manager.** -/
theorem step_stage {number : Nat} {stage : Stage} {reply : Option stage.need.Answer}
    (asking : Asking n h (some ⟨number, .manager stage, reply⟩)) (answer : stage.need.Answer)
    (s : Session) :
    Asking n (h ++ [.stepped n (.manager stage) answer s])
      (Errand.next? n ((Process.manager stage).resume s answer).2) := by
  have idle {q : Stage} (hr : (stage.resume s answer).2 = .inl q)
      (asks : q.mayAsk = true ∨ ∃ w, q = .confirming w) (quiet : ∀ d ∈ h, d.isIdle) :
      ∀ d ∈ h ++ [.stepped n (.manager stage) answer s], d.isIdle := by
    intro d hd
    rcases List.mem_append.mp hd with hd | hd
    · exact quiet d hd
    · rw [List.mem_singleton.mp hd, Event.isIdle, Ensemble.session_manager]
      exact Stage.session_of_mayAsk hr asks
  refine ⟨?_, ?_, ?_, ?_, ?_, ?_⟩
  · rw [List.countP_append]
    cases asks : (Event.stepped n (.manager stage) answer s).asks with
    | false => simpa [asks] using asking.once
    | true =>
      obtain ⟨w, hr⟩ := next_of_asks asks
      obtain rfl : stage = _ := Stage.comesFrom_of_goesOn (Stage.goesOn_of_resume hr)
      simp [(asking.unasked _ rfl _ rfl rfl).1, asks]
  · intro u hu q hq asks
    have hr := Stage.next_of_mem hu hq
    obtain ⟨none, quiet⟩ := asking.unasked _ rfl stage rfl
      (Stage.mayAsk_of_comesFrom (Stage.comesFrom_of_goesOn (Stage.goesOn_of_resume hr)) asks)
    refine ⟨?_, idle hr (.inl asks) quiet⟩
    have silent : (Event.stepped n (.manager stage) answer s).asks = false := by
      rw [Bool.eq_false_iff]
      intro asks'
      obtain ⟨w, hw⟩ := next_of_asks asks'
      rw [hr] at hw
      cases hw
      cases asks
    simp [List.countP_append, none, silent]
  · intro u hu w hw
    have hr := Stage.next_of_mem hu hw
    obtain rfl : stage = _ := Stage.comesFrom_of_goesOn (Stage.goesOn_of_resume hr)
    exact idle hr (.inr ⟨w, rfl⟩) (asking.unasked _ rfl _ rfl rfl).2
  · intro u hu q w hq hw
    have hr := Stage.next_of_mem hu hq
    have before := Stage.comesFrom_of_goesOn (Stage.goesOn_of_resume hr)
    cases q with
    | updating update =>
      cases update with
      | closeWidget v confirmed =>
        cases confirmed <;> cases hw
        obtain rfl : stage = _ := before
        cases answer with
        | false => cases hr
        | true => exact ⟨s, List.mem_append_right _ List.mem_cons_self⟩
      | _ => cases hw
    | unbinding v confirmed =>
      cases confirmed <;> cases hw
      obtain rfl : stage = _ := before
      obtain ⟨s', hs'⟩ := asking.agreed _ rfl _ w rfl rfl
      exact ⟨s', List.mem_append_left _ hs'⟩
    | _ => cases hw
  · intro u hu t rest ht
    have hr := Stage.next_of_mem hu ht
    rcases Stage.comesFrom_of_goesOn (Stage.goesOn_of_resume hr) with
      ⟨w, confirmed, rfl, rfl⟩ | ⟨v, closing, rfl⟩
    · refine ⟨rfl, h, w, confirmed, s, [], rfl, hr, ?_⟩
      rcases Manager.clean_or_confirmed hr with rfl | clean
      · exact .inr (asking.agreed _ rfl _ w rfl rfl)
      · exact .inl clean
    · -- a call that closes a last widget closes one context only
      obtain ⟨rfl, -⟩ := asking.checked _ rfl v closing rfl
      cases hr
  · intro w s' hs
    rcases List.mem_append.mp hs with hs | hs
    · cases (asking.refused w s' hs).1
    · have same := List.mem_singleton.mp hs
      simp only [Event.stepped.injEq, Process.manager.injEq] at same
      obtain ⟨-, rfl, refuses, rfl⟩ := same
      cases refuses
      refine ⟨rfl, fun d hd => ?_⟩
      rcases List.mem_append.mp hd with hd | hd
      · exact asking.waits _ rfl w rfl d hd
      · rw [List.mem_singleton.mp hd]
        rfl

/-- **One step of a process.** -/
theorem step {t : Errand} (asking : Asking n h (some t)) (answer : t.process.need.Answer)
    (s : Session) :
    Asking n (h ++ [.stepped n t.process answer s])
      (Errand.next? n (t.process.resume s answer).2) := by
  obtain ⟨number, p, reply⟩ := t
  by_cases manager : ∃ stage, p = .manager stage
  · obtain ⟨stage, rfl⟩ := manager
    exact asking.step_stage answer s
  · have other {u : Errand} (hu : u ∈ Errand.next? n (p.resume s answer).2) (q : Stage) :
        u.process ≠ .manager q := by
      intro hq
      exact manager (Process.manager_of_resume ((Errand.of_mem_next? hu).2.1.trans (by rw [hq])))
    have silent : (Event.stepped n p answer s).asks = false := by
      simp only [Event.asks]
      split
      · next hr => exact absurd (Process.manager_of_resume hr) manager
      · rfl
    refine ⟨by simpa [List.countP_append, silent] using asking.once, ?_, ?_, ?_, ?_, ?_⟩
    · exact fun u hu q hq => absurd hq (other hu q)
    · exact fun u hu w hw => absurd hw (other hu _)
    · exact fun u hu q w hq => absurd hq (other hu q)
    · exact fun u hu t rest ht => absurd ht (other hu _)
    · intro w s' hs
      rcases List.mem_append.mp hs with hs | hs
      · cases (asking.refused w s' hs).1
      · have same := List.mem_singleton.mp hs
        simp only [Event.stepped.injEq] at same
        exact absurd ⟨_, same.2.1.symm⟩ manager

/-- **In every course.** -/
theorem of_course {o : Option Errand} (course : Course n h o) : Asking n h o := by
  induction course with
  | enters fresh => exact .fresh fresh
  | carries before done ih => refine ih.aside ?_ ?_ <;> rfl
  | answers reply before ih => refine ih.aside ?_ ?_ <;> rfl
  | goes before ready s ih => exact ih.step _ s

end Asking

end Folio
