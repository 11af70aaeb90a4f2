/-
# A document is revealed once, if calls take turns

As long as nothing else makes or takes away what shows a document, each call that reveals it returns
a widget that shows it; and once one is bound, no other call sets out to open (`Traffic.Reveals`).
So there is one widget for all of them if no call sets out while another one is on its way
(`Traffic.keepsTurns`), and more if one does (`Traffic.reveals_once`).

Nothing in the manager sees to that: two calls that look before either of them has bound its widget
both make one (`Traffic.reveals_twice`).
-/
import Folio.Proofs.Manager.Revealing

namespace Folio

/-! ## 1. Calls that reveal, in traffic -/

/-- **A call has begun to reveal a document**, and means this factory. -/
def Event.reveals (path : String) (f : WidgetFactory) (m : ModelFactory) : Event → Bool
  | .stepped _ (.manager (.called (.reveal p name _))) _ s =>
    p == path && decide (Manager.factoriesFor s p name = some (f, m))
  | _ => false

/-- **With its first step**, the call has looked up what the name means. -/
theorem Event.first_of_reveals {path : String} {f : WidgetFactory} {m : ModelFactory} {n : Nat}
    {p : Process} {answer : p.need.Answer} {s : Session}
    (reveals : Event.reveals path f m (.stepped n p answer s) = true)
    (live : s.manager.disposed = false) :
    ∃ name hint, Manager.factoriesFor s path name = some (f, m) ∧ p.resume s answer =
      (s, .inl (.manager (.finding path f m (some ⟨path, name, hint⟩)))) := by
  unfold Event.reveals at reveals
  split at reveals
  · next named k p name hint got s same =>
    cases same
    obtain ⟨rfl, means⟩ : p = path ∧ Manager.factoriesFor s p name = some (f, m) := by
      simpa using reveals
    refine ⟨name, hint, means, ?_⟩
    simp only [Process.resume, Stage.resume, live, Bool.false_eq_true, if_false, Manager.begin,
      means]
    rfl
  · cases reveals

/-- Whoever goes on has returned nothing yet. -/
theorem Course.returned_nil {n : Nat} {h : List Event} {o : Option Errand} (course : Course n h o) :
    ∀ t ∈ o, h.filterMap Event.returned? = [] := by
  induction course with
  | enters fresh => exact fun _ _ => rfl
  | carries before done ih =>
    intro _ _
    rw [List.filterMap_append, ih _ rfl]
    rfl
  | answers reply before ih =>
    intro _ _
    rw [List.filterMap_append, ih _ rfl]
    rfl
  | goes before ready s ih =>
    intro u hu
    rw [List.filterMap_append, ih _ rfl, List.nil_append, List.filterMap_cons, Event.returned?,
      (Errand.of_mem_next? hu).2.1]
    rfl

/-- **A call has made a widget** of a factory for a document that it opens. -/
def Event.creates (path : String) (f : WidgetFactory) : Event → Bool
  | .stepped _ (.manager stage) answer s =>
    stage.opensWith path f && Manager.Step.leadsTo Stage.isToBind (stage.resume s answer)
  | _ => false

/-- The process is a call of the manager at such a stage. -/
def Process.isAt (at_ : Stage → Bool) : Process → Bool
  | .manager stage => at_ stage
  | _ => false

/-- The host registers something, or disposes a widget by itself. -/
def Deed.unsettles : Deed → Bool
  | .setRegistry _ => true
  | .disposeWidget _ => true
  | _ => false

namespace Traffic

variable {path : String} {f : WidgetFactory} {m : ModelFactory} {x₀ x : Traffic}

/-- The process of a number is a call that reveals the document. -/
def hasRevealed (x : Traffic) (path : String) (f : WidgetFactory) (m : ModelFactory) (n : Nat) :
    Bool := (own n x.log).any (Event.reveals path f m)

/-- How many of these calls are at such a stage. -/
def revealing (x : Traffic) (path : String) (f : WidgetFactory) (m : ModelFactory)
    (at_ : Stage → Bool) : Nat :=
  x.errands.countP fun t => x.hasRevealed path f m t.number && t.process.isAt at_

/-- How many widgets of the factory were made by calls that open the document. -/
def created (x : Traffic) (path : String) (f : WidgetFactory) : Nat :=
  x.log.countP (Event.creates path f)

/-- What the process of a number has returned. -/
def replies (x : Traffic) (n : Nat) : List ManagerReply := (own n x.log).filterMap Event.returned?

/-- The move is a step of a call that reveals the document. -/
def revealsBy (x : Traffic) (path : String) (f : WidgetFactory) (m : ModelFactory) : Move → Bool
  | .go i _ => x.errands[i]?.any fun t => x.hasRevealed path f m t.number
  | _ => false

/-- **The move leaves what shows the document**, or is a step of a call that reveals it.  So nothing
closes or renames the document or fails to load it, nothing disposes or makes a widget of the
factory for it, the registry stays, and the manager is not disposed. -/
def leavesShown (path : String) (f : WidgetFactory) (m : ModelFactory) (x : Traffic) (mv : Move) :
    Bool :=
  leavesOpen path m.name x mv && !(x.step mv).session.manager.disposed &&
    (match mv with | .deed d => !d.unsettles | _ => true) &&
    (x.revealsBy path f m mv ||
      decide ((x.step mv).session.shownBy path m.name f = x.session.shownBy path m.name f) &&
        (x.step mv).created path f == x.created path f)

/-- **A call sets out to open the document only when no other one is on its way** to bind a widget
that it makes. -/
def keepsTurns (path : String) (f : WidgetFactory) (m : ModelFactory) (x : Traffic) (mv : Move) :
    Bool :=
  decide ((x.step mv).revealing path f m Stage.isToMake ≤ x.revealing path f m Stage.isToMake) ||
    (x.revealing path f m Stage.isToMake == 0 && x.revealing path f m Stage.isToBind == 0)

/-! ### What is counted -/

theorem hasRevealed_step {y : Traffic} {e : Option Event} (log : y.log = x.log ++ e.toList)
    (n : Nat) : y.hasRevealed path f m n =
      (x.hasRevealed path f m n || (own n e.toList).any (Event.reveals path f m)) := by
  rw [hasRevealed, log, own_append, List.any_append, hasRevealed]

/-- Only a step of the process itself makes it one of these calls. -/
theorem hasRevealed_of_other {y : Traffic} {e : Option Event} (log : y.log = x.log ++ e.toList)
    {n : Nat} (other : ∀ p answer s, e ≠ some (.stepped n p answer s)) :
    y.hasRevealed path f m n = x.hasRevealed path f m n := by
  have none : (own n e.toList).any (Event.reveals path f m) = false := by
    refine List.any_eq_false.mpr fun event he => ?_
    obtain ⟨there, about⟩ := List.mem_filter.mp he
    rw [Option.mem_toList] at there
    cases event with
    | stepped k p answer s =>
      obtain rfl : k = n := by simpa [Event.number?] using about
      exact absurd there (other p answer s)
    | _ => exact Bool.false_ne_true
  rw [hasRevealed_step log, none, Bool.or_false]

/-- A process that is yet to enter is none of these calls. -/
theorem hasRevealed_of_unused (coherent : x.IsCoherent) {n : Nat} (unused : x.next ≤ n) :
    x.hasRevealed path f m n = false := by
  rw [hasRevealed, Coherent.unused coherent n unused]
  rfl

theorem not_isAt_entering {next : Nat} {works : List Background} {t : Errand}
    (ht : t ∈ entering next works) (at_ : Stage → Bool) : t.process.isAt at_ = false := by
  obtain ⟨j, hj, rfl⟩ := List.mem_mapIdx.mp ht
  generalize works[j] = work
  cases work <;> rfl

/-- The process to which a step leads is at such a stage. -/
def leadsTo (at_ : Stage → Bool) : Process ⊕ Outcome → Bool
  | .inl q => q.isAt at_
  | .inr _ => false

/-- The event of a step is about no other process. -/
theorem stepped_ne {t : Errand} {answer : t.process.need.Answer} {n : Nat}
    (apart : n ≠ t.number) (s : Session) (p : Process) (got : p.need.Answer) (now : Session) :
    some (Event.stepped t.number t.process answer s) ≠ some (.stepped n p got now) :=
  fun same => apart (Event.stepped.inj (Option.some.inj same)).1.symm

theorem hasRevealed_resumed {others : List Errand} {t : Errand} {answer : t.process.need.Answer}
    {n : Nat} (apart : n ≠ t.number) :
    (x.resumed others t answer).hasRevealed path f m n = x.hasRevealed path f m n :=
  hasRevealed_of_other (e := some _) rfl (stepped_ne apart _)

/-- **The calls at a stage after a step** are those before, but for the one that took the step. -/
theorem revealing_resumed (path : String) (f : WidgetFactory) (m : ModelFactory)
    (coherent : x.IsCoherent) {others : List Errand} {t : Errand}
    (all : x.errands.Perm (t :: others)) (answer : t.process.need.Answer) (at_ : Stage → Bool) :
    let y := x.resumed others t answer
    y.revealing path f m at_ + (x.hasRevealed path f m t.number && t.process.isAt at_).toNat =
      x.revealing path f m at_ + (y.hasRevealed path f m t.number &&
        leadsTo at_ (t.process.resume x.session answer).2).toNat := by
  intro y
  have distinct := (List.nodup_cons.mp (Coherent.perm coherent all).nodup).1
  have before : x.revealing path f m at_ = others.countP (fun u =>
      x.hasRevealed path f m u.number && u.process.isAt at_) +
        (x.hasRevealed path f m t.number && t.process.isAt at_).toNat := by
    rw [revealing, all.countP_eq, List.countP_cons]
    cases x.hasRevealed path f m t.number && t.process.isAt at_ <;> rfl
  have same : others.countP (fun u => y.hasRevealed path f m u.number && u.process.isAt at_) =
      others.countP (fun u => x.hasRevealed path f m u.number && u.process.isAt at_) := by
    refine List.countP_congr fun u hu => ?_
    have apart : u.number ≠ t.number := fun same => distinct (List.mem_map.mpr ⟨u, hu, same⟩)
    rw [hasRevealed_resumed apart]
  have led : (Errand.next? t.number (t.process.resume x.session answer).2).toList.countP
      (fun u => y.hasRevealed path f m u.number && u.process.isAt at_) =
        (y.hasRevealed path f m t.number &&
          leadsTo at_ (t.process.resume x.session answer).2).toNat := by
    cases (t.process.resume x.session answer).2 with
    | inl q =>
      show List.countP _ [_] = _
      rw [List.countP_singleton]
      show (if (y.hasRevealed path f m t.number && q.isAt at_) = true then 1 else 0) = _
      cases y.hasRevealed path f m t.number <;> cases h : q.isAt at_ <;> simp [leadsTo, h]
    | inr outcome => simp [Errand.next?, leadsTo]
  have background : (entering x.next (t.process.resume x.session answer).1.started).countP
      (fun u => y.hasRevealed path f m u.number && u.process.isAt at_) = 0 := by
    refine List.countP_eq_zero.mpr fun u hu => ?_
    rw [not_isAt_entering hu, Bool.and_false]
    exact Bool.false_ne_true
  show List.countP _ ((others ++ _) ++ _) + _ = _
  rw [List.countP_append, List.countP_append, same, led, background, before]
  omega

/-- **A process under way has returned nothing yet.** -/
theorem replies_of_underway (coherent : x.IsCoherent) {t : Errand} (ht : t ∈ x.errands) :
    x.replies t.number = [] :=
  (Coherent.underway coherent t ht).returned_nil t rfl

/-! ### What others leave -/

theorem registry_deed (s : Session) {d : Deed} (settled : d.unsettles = false) :
    (d.apply s).registry = s.registry ∧ (d.apply s).widgets = s.widgets := by
  cases d with
  | setRegistry registry => cases settled
  | disposeWidget w => cases settled
  | startCoordinator k =>
    exact ⟨Session.registry_startCoordinator s k, Session.widgets_startCoordinator s k⟩
  | _ => exact ⟨rfl, rfl⟩

/-- **While a call waits to bind a widget**, no other process makes or disposes one. -/
theorem widgets_of_binding {u t : Errand} {others : List Errand} {w : WidgetId} {c : ContextId}
    {config : Settings} {store : MemoryStore} {moves : List Move}
    (same : x = (start (.create config) store).run moves)
    (all : x.errands.Perm (t :: others)) (hu : u ∈ others)
    (binds : u.process = .manager (.binding w c))
    (free : Ensemble.permits (others.map (·.process)) t.process.need = true)
    (answer : t.process.need.Answer) :
    (t.process.resume x.session answer).1.widgets = x.session.widgets := by
  subst same
  obtain ⟨number, process, reply⟩ := t
  cases alters : process.alters with
  | false => exact (Session.LeavesBooks.process _ process answer alters).widgets
  | true =>
    cases process with
    | manager stage =>
      have orderly := (twinBooks_run config store moves).perm (all.map (·.process))
      have nobody := (orderly.alone_of_alters alters free).1
      have owner : Stage.binding w c ∈ Ensemble.owners (others.map (·.process)) :=
        List.mem_filterMap.mpr ⟨u.process, List.mem_map_of_mem hu, by rw [binds]; rfl⟩
      rw [nobody] at owner
      cases owner
    | _ => cases alters

/-! ## 2. One move -/

/-- The tally of a traffic. -/
def tally (x : Traffic) (path : String) (f : WidgetFactory) (m : ModelFactory) : Tally where
  shown := x.session.shownBy path m.name f
  toMake := x.revealing path f m Stage.isToMake
  toBind := x.revealing path f m Stage.isToBind
  created := x.created path f

/-- **What is so of calls that reveal a document**, since the traffic was at a certain point. -/
structure Revealing (path : String) (f : WidgetFactory) (m : ModelFactory) (x₀ x : Traffic) :
    Prop where
  live : x.session.manager.disposed = false
  /-- Each of them that is under way is at one of its places. -/
  places : ∀ t ∈ x.errands, x.hasRevealed path f m t.number = true →
    ∃ stage, t.process = .manager stage ∧ stage.Reveals path f m x.session
  /-- Each of them that has ended since has returned a widget that shows the document. -/
  returned : ∀ n, x₀.hasRevealed path f m n = false → x.hasRevealed path f m n = true →
    n ∉ x.errands.map (·.number) →
      ∃ b ∈ x.session.shownBy path m.name f, x.replies n = [.widget (some b.widget)]

/-- What the process of a number has returned is known by its own steps. -/
theorem replies_of_other {y : Traffic} {e : Option Event} (log : y.log = x.log ++ e.toList)
    {n : Nat} (other : ∀ p answer s, e ≠ some (.stepped n p answer s)) :
    y.replies n = x.replies n := by
  have none : (own n e.toList).filterMap Event.returned? = [] := by
    refine List.filterMap_eq_nil_iff.mpr fun event he => ?_
    obtain ⟨there, about⟩ := List.mem_filter.mp he
    rw [Option.mem_toList] at there
    cases event with
    | stepped k p answer s =>
      obtain rfl : k = n := by simpa [Event.number?] using about
      exact absurd there (other p answer s)
    | _ => rfl
  rw [replies, log, own_append, List.filterMap_append, none, List.append_nil, replies]

/-- **What a move leaves in which no process takes a step**, and the host settles for what is
registered and for the widgets. -/
theorem stays_of_not_go (x : Traffic) {mv : Move} (notGo : ∀ i oracle, mv ≠ .go i oracle)
    (settles : ∀ d, mv = .deed d → d.unsettles = false) :
    ∃ (e : Option Event) (new : List (Nat × Process)), (x.step mv).log = x.log ++ e.toList ∧
      (∀ n p answer s, e ≠ some (.stepped n p answer s)) ∧
      (x.step mv).errands.map (fun t => (t.number, t.process)) =
        x.errands.map (fun t => (t.number, t.process)) ++ new ∧
      (∀ p ∈ new, x.next ≤ p.1) ∧ (x.step mv).session.registry = x.session.registry ∧
      (x.step mv).session.widgets = x.session.widgets := by
  obtain ⟨e, does⟩ := x.step_does mv
  have log := does.log
  generalize x.step mv = y at does log ⊢
  have quiet (n : Nat) (p : Process) (answer : p.need.Answer) (s : Session) :
      e ≠ some (.stepped n p answer s) := by
    rintro rfl
    cases does
    exact notGo _ _ rfl
  have none : ∀ p ∈ ([] : List (Nat × Process)), x.next ≤ p.1 := fun _ hp =>
    absurd hp List.not_mem_nil
  cases does with
  | nothing | others => exact ⟨_, [], log, quiet, (List.append_nil _).symm, none, rfl, rfl⟩
  | deed d =>
    obtain ⟨registry, widgets⟩ := registry_deed x.session (settles d rfl)
    refine ⟨_, _, log, quiet, List.map_append, fun p hp => ?_, registry, widgets⟩
    obtain ⟨t, ht, rfl⟩ := List.mem_map.mp hp
    obtain ⟨j, hj, rfl⟩ := List.mem_mapIdx.mp ht
    exact Nat.le_add_right _ _
  | @enter p call =>
    refine ⟨_, _, log, quiet, List.map_append, fun q hq => ?_, rfl, rfl⟩
    obtain rfl := List.mem_singleton.mp hq
    exact Nat.le_refl _
  | carries i split | answers i oracle split =>
    refine ⟨_, [], log, quiet, ?_, none, rfl, rfl⟩
    simp only [split, List.map_append, List.map_cons, List.append_nil]
  | goes i oracle => exact absurd rfl (notGo i oracle)

/-- **A move in which no process takes a step** leaves the calls where they are. -/
theorem Revealing.aside (inv : Revealing path f m x₀ x) (coherent : x.IsCoherent) {y : Traffic}
    {e : Option Event} (log : y.log = x.log ++ e.toList)
    (quiet : ∀ n p answer s, e ≠ some (.stepped n p answer s)) {new : List (Nat × Process)}
    (pairs : y.errands.map (fun t => (t.number, t.process)) =
      x.errands.map (fun t => (t.number, t.process)) ++ new)
    (fresh : ∀ p ∈ new, x.next ≤ p.1) (registry : y.session.registry = x.session.registry)
    (widgets : y.session.widgets = x.session.widgets)
    (stays : ∀ u, x.session.openFor? path m.name = some u →
      y.session.openFor? path m.name = some u)
    (shown : y.session.shownBy path m.name f = x.session.shownBy path m.name f)
    (live : y.session.manager.disposed = false) :
    Revealing path f m x₀ y ∧ ∀ at_, y.revealing path f m at_ = x.revealing path f m at_ := by
  have revealed (n : Nat) : y.hasRevealed path f m n = x.hasRevealed path f m n :=
    hasRevealed_of_other log (quiet n)
  have unused {p : Nat × Process} (hp : p ∈ new) : x.hasRevealed path f m p.1 = false :=
    hasRevealed_of_unused coherent (fresh p hp)
  refine ⟨⟨live, fun t ht begun => ?_, fun n before now gone => ?_⟩, fun at_ => ?_⟩
  · rw [revealed] at begun
    have pair : (t.number, t.process) ∈ x.errands.map (fun t => (t.number, t.process)) ++ new :=
      pairs ▸ List.mem_map_of_mem ht
    rcases List.mem_append.mp pair with old | entered
    · obtain ⟨u, hu, same⟩ := List.mem_map.mp old
      obtain ⟨number, process⟩ := Prod.mk.inj same
      obtain ⟨stage, at_, reveals⟩ := inv.places u hu (number ▸ begun)
      refine ⟨stage, process ▸ at_, reveals.mono registry stays fun w c _ => ?_⟩
      cases w with
      | issued k => exact congrArg (·[k]?) widgets
      | foreign => rfl
    · rw [unused entered] at begun
      cases begun
  · rw [revealed] at now
    rw [shown, replies_of_other log (quiet n)]
    refine inv.returned n before now fun there => gone ?_
    obtain ⟨t, ht, rfl⟩ := List.mem_map.mp there
    have pair : (t.number, t.process) ∈ y.errands.map (fun t => (t.number, t.process)) :=
      pairs ▸ List.mem_append_left _ (List.mem_map_of_mem ht)
    obtain ⟨u, hu, same⟩ := List.mem_map.mp pair
    exact List.mem_map.mpr ⟨u, hu, (Prod.mk.inj same).1⟩
  · have counted (z : Traffic) : z.revealing path f m at_ =
        (z.errands.map (fun t => (t.number, t.process))).countP fun p =>
          z.hasRevealed path f m p.1 && p.2.isAt at_ := by
      rw [revealing, List.countP_map]
      rfl
    have none : new.countP (fun p => x.hasRevealed path f m p.1 && p.2.isAt at_) = 0 := by
      refine List.countP_eq_zero.mpr fun p hp => ?_
      rw [unused hp, Bool.false_and]
      exact Bool.false_ne_true
    rw [counted, counted, pairs]
    simp only [revealed]
    rw [List.countP_append, none, Nat.add_zero]

section Resumed

variable {others : List Errand} {t : Errand} {answer : t.process.need.Answer} {n : Nat}

theorem replies_resumed (apart : n ≠ t.number) :
    (x.resumed others t answer).replies n = x.replies n :=
  replies_of_other (e := some _) rfl (stepped_ne apart _)

/-- **What a process returns** when it ends is all that it returns. -/
theorem replies_of_ends (coherent : x.IsCoherent) (there : t ∈ x.errands) {reply : ManagerReply}
    (ends : (t.process.resume x.session answer).2 = .inr (.manager (.ok reply))) :
    (x.resumed others t answer).replies t.number = [reply] := by
  have nothing := replies_of_underway coherent there
  have event : own t.number [Event.stepped t.number t.process answer x.session] =
      [.stepped t.number t.process answer x.session] := own_singleton rfl
  have log : (x.resumed others t answer).log =
      x.log ++ [.stepped t.number t.process answer x.session] := rfl
  rw [replies] at nothing
  rw [replies, log, own_append, List.filterMap_append, nothing, List.nil_append, event,
    List.filterMap_cons, Event.returned?, ends]
  rfl

/-- A process that is no longer under way after its step has ended with it. -/
theorem ends_of_gone (gone : t.number ∉ (x.resumed others t answer).errands.map (·.number)) :
    ∃ outcome, (t.process.resume x.session answer).2 = .inr outcome := by
  cases ends : (t.process.resume x.session answer).2 with
  | inl q =>
    have led : (⟨t.number, q, none⟩ : Errand) ∈ (x.resumed others t answer).errands := by
      refine List.mem_append_left _ (List.mem_append_right _ ?_)
      rw [ends]
      exact List.mem_cons_self
    exact absurd (List.mem_map.mpr ⟨_, led, rfl⟩) gone
  | inr outcome => exact ⟨outcome, rfl⟩

/-- Any other that is not under way then was not under way before. -/
theorem gone_of_gone (all : x.errands.Perm (t :: others)) (apart : n ≠ t.number)
    (gone : n ∉ (x.resumed others t answer).errands.map (·.number)) :
    n ∉ x.errands.map (·.number) := by
  intro there
  obtain ⟨u, hu, rfl⟩ := List.mem_map.mp there
  rcases List.mem_cons.mp (all.mem_iff.mp hu) with rfl | hu
  · exact apart rfl
  · have stays : u ∈ (x.resumed others t answer).errands :=
      List.mem_append_left _ (List.mem_append_left _ hu)
    exact gone (List.mem_map_of_mem stays)

/-- **A process takes its step** beside the calls: they stay where they are. -/
theorem Revealing.resumed (inv : Revealing path f m x₀ x) (coherent : x.IsCoherent)
    (all : x.errands.Perm (t :: others))
    (unbound : ∀ u ∈ others, ∀ w c, u.process = .manager (.binding w c) →
      (t.process.resume x.session answer).1.widgets = x.session.widgets)
    (stays : ∀ u, x.session.openFor? path m.name = some u →
      (x.resumed others t answer).session.openFor? path m.name = some u)
    (grows : x.session.shownBy path m.name f ⊆
      (x.resumed others t answer).session.shownBy path m.name f)
    (live : (x.resumed others t answer).session.manager.disposed = false)
    (next : (x.resumed others t answer).hasRevealed path f m t.number = true → ∀ q,
      (t.process.resume x.session answer).2 = .inl q →
        ∃ stage, q = .manager stage ∧ stage.Reveals path f m (x.resumed others t answer).session)
    (last : (x.resumed others t answer).hasRevealed path f m t.number = true → ∀ outcome,
      (t.process.resume x.session answer).2 = .inr outcome →
        ∃ b ∈ (x.resumed others t answer).session.shownBy path m.name f,
          outcome = .manager (.ok (.widget (some b.widget)))) :
    Revealing path f m x₀ (x.resumed others t answer) := by
  have front := Coherent.perm coherent all
  refine ⟨live, fun u hu begun => ?_, fun n before now gone => ?_⟩
  · rcases List.mem_append.mp hu with hu | entered
    · rcases List.mem_append.mp hu with there | led
      · have apart : u.number ≠ t.number := fun same =>
          (List.nodup_cons.mp front.nodup).1 (List.mem_map.mpr ⟨u, there, same⟩)
        rw [hasRevealed_resumed apart] at begun
        obtain ⟨stage, at_, reveals⟩ :=
          inv.places u (all.mem_iff.mpr (List.mem_cons_of_mem t there)) begun
        refine ⟨stage, at_, reveals.mono (Process.registry_resume _ _ _) stays fun w c binds => ?_⟩
        have widgets := unbound u there w c (by rw [at_, binds])
        cases w with
        | issued k => exact congrArg (·[k]?) widgets
        | foreign => rfl
      · obtain ⟨number, goesOn, -⟩ := Errand.of_mem_next? (Option.mem_toList.mp led)
        exact next (number ▸ begun) _ goesOn
    · -- what has just entered has revealed nothing
      obtain ⟨j, hj, rfl⟩ := List.mem_mapIdx.mp entered
      have below := front.below t List.mem_cons_self
      have apart : x.next + j ≠ t.number := by omega
      rw [hasRevealed_resumed apart,
        hasRevealed_of_unused coherent (Nat.le_add_right _ _)] at begun
      cases begun
  · by_cases same : n = t.number
    · subst same
      obtain ⟨outcome, ends⟩ := ends_of_gone gone
      obtain ⟨b, hb, rfl⟩ := last now outcome ends
      exact ⟨b, hb, replies_of_ends coherent (all.mem_iff.mpr List.mem_cons_self) ends⟩
    · rw [hasRevealed_resumed same] at now
      obtain ⟨b, hb, reply⟩ := inv.returned n before now (gone_of_gone all same gone)
      exact ⟨b, grows hb, (replies_resumed same).trans reply⟩

end Resumed

/-- A step of a call of the manager is the step of its stage. -/
theorem resume_manager (s : Session) (stage : Stage) (answer : stage.need.Answer) :
    (Process.manager stage).resume s answer =
      ((stage.resume s answer).1, (stage.resume s answer).2.map Process.manager .manager) := by
  simp only [Process.resume]
  split <;> (next hr => rw [hr]; rfl)

/-- **The tally after a step of one of the calls.** -/
theorem tally_resumed (coherent : x.IsCoherent) {others : List Errand} {number : Nat}
    {stage : Stage} {reply : Option stage.need.Answer}
    (all : x.errands.Perm (⟨number, .manager stage, reply⟩ :: others))
    (begun : x.hasRevealed path f m number = true) (answer : stage.need.Answer) :
    let step : Manager.Step := stage.resume x.session answer
    ∃ toMake toBind,
      toMake + stage.isToMake.toNat =
        (x.tally path f m).toMake + (step.leadsTo Stage.isToMake).toNat ∧
      toBind + stage.isToBind.toNat =
        (x.tally path f m).toBind + (step.leadsTo Stage.isToBind).toNat ∧
      (x.resumed others ⟨number, .manager stage, reply⟩ answer).tally path f m =
        ⟨step.1.shownBy path m.name f, toMake, toBind,
          x.created path f + (stage.opensWith path f && step.leadsTo Stage.isToBind).toNat⟩ := by
  intro step
  have log : (x.resumed others ⟨number, .manager stage, reply⟩ answer).log =
      x.log ++ [.stepped number (.manager stage) answer x.session] := rfl
  have still : (x.resumed others ⟨number, .manager stage, reply⟩ answer).hasRevealed path f m
      number = true := by
    rw [hasRevealed_step (e := some _) log, begun, Bool.true_or]
  have counted (at_ : Stage → Bool) :
      (x.resumed others ⟨number, .manager stage, reply⟩ answer).revealing path f m at_ +
          (at_ stage).toNat =
        x.revealing path f m at_ + (step.leadsTo at_).toNat := by
    have led : leadsTo at_ ((Process.manager stage).resume x.session answer).2 =
        step.leadsTo at_ := by
      rw [resume_manager, Manager.Step.leadsTo]
      cases step.2 <;> rfl
    have counted := revealing_resumed path f m coherent all answer at_
    simp only [still, begun, led, Bool.true_and] at counted
    exact counted
  refine ⟨_, _, counted _, counted _, ?_⟩
  have session : (x.resumed others ⟨number, .manager stage, reply⟩ answer).session.shownBy path
      m.name f = step.1.shownBy path m.name f := by
    show ((Process.manager stage).resume x.session answer).1.shownBy path m.name f = _
    rw [resume_manager]
  have made : (x.resumed others ⟨number, .manager stage, reply⟩ answer).created path f =
      x.created path f + (stage.opensWith path f && step.leadsTo Stage.isToBind).toNat := by
    rw [created, log, List.countP_append, List.countP_singleton]
    show _ + (if (stage.opensWith path f && step.leadsTo Stage.isToBind) = true then 1 else 0) = _
    cases stage.opensWith path f && step.leadsTo Stage.isToBind <;> rfl
  rw [tally, session, made]

section Step

variable {config : Settings} {store : MemoryStore} {moves : List Move}

/-- **One of the calls takes its step.** -/
theorem Revealing.goes (inv : Revealing path f m x₀ x)
    (same : x = (start (.create config) store).run moves)
    (named : Text.sameAscii f.widgetName f.name = true) {others : List Errand} {t : Errand}
    (all : x.errands.Perm (t :: others)) (begun : x.hasRevealed path f m t.number = true)
    {answer : t.process.need.Answer}
    (unbound : ∀ u ∈ others, ∀ w c, u.process = .manager (.binding w c) →
      (t.process.resume x.session answer).1.widgets = x.session.widgets)
    (stays : ∀ u, x.session.openFor? path m.name = some u →
      (x.resumed others t answer).session.openFor? path m.name = some u)
    (live : (x.resumed others t answer).session.manager.disposed = false) :
    Revealing path f m x₀ (x.resumed others t answer) ∧
      Tally.Step (x.tally path f m) ((x.resumed others t answer).tally path f m) := by
  have there : t ∈ x.errands := all.mem_iff.mpr List.mem_cons_self
  obtain ⟨number, process, reply⟩ := t
  obtain ⟨stage, rfl, reveals⟩ := inv.places _ there begun
  have coherent : x.IsCoherent := same ▸ coherent_run (.create config) store moves
  have tidy : x.Tidy := same ▸ tidy_run config store moves
  have apart (first : Tracked) (rest : List Tracked) (after : AfterClosing)
      (closes : stage = .closing first rest after) : x.session.Made first ∧
        ∀ u ∈ x.session.manager.tracked, u.context ≠ first.context :=
    tidy.apart _ there first rest after (congrArg Process.manager closes)
  have step := reveals.step inv.live named (same ▸ listed_run config store moves)
    (same ▸ bound_run config store moves) tidy.made apart answer
  obtain ⟨toMake, toBind, make, bind, tally⟩ := tally_resumed coherent all begun answer
  have resumed := resume_manager x.session stage answer
  -- the places do not depend on the background work that has been started
  have session : (x.resumed others ⟨number, .manager stage, reply⟩ answer).session =
      { (stage.resume x.session answer).1 with started := [] } :=
    congrArg (fun step : Process.Step => { step.1 with started := [] }) resumed
  have shown : (x.resumed others ⟨number, .manager stage, reply⟩ answer).session.shownBy path
      m.name f = (stage.resume x.session answer).1.shownBy path m.name f := by
    rw [session]
    rfl
  refine ⟨?_, tally ▸ step.tally rfl make bind⟩
  refine inv.resumed coherent all unbound stays (shown ▸ step.grows) live (fun _ q led => ?_)
    fun _ outcome ended => ?_
  · have led := (congrArg Prod.snd resumed).symm.trans led
    cases goesOn : (stage.resume x.session answer).2 with
    | inl next =>
      rw [goesOn] at led
      refine ⟨next, (Sum.inl.inj led).symm, session ▸ ?_⟩
      exact (step.leads goesOn).mono rfl (fun _ here => here) fun w _ _ => by cases w <;> rfl
    | inr result =>
      rw [goesOn] at led
      cases led
  · have ended := (congrArg Prod.snd resumed).symm.trans ended
    cases ends : (stage.resume x.session answer).2 with
    | inl next =>
      rw [ends] at ended
      cases ended
    | inr result =>
      rw [ends] at ended
      obtain ⟨b, hb, rfl⟩ := step.ends ends
      exact ⟨b, shown ▸ hb, (Sum.inr.inj ended).symm⟩

/-- **A process that is none of the calls takes its step**, and may be one from then on. -/
theorem Revealing.passes (inv : Revealing path f m x₀ x) (coherent : x.IsCoherent)
    {others : List Errand} {t : Errand} (all : x.errands.Perm (t :: others))
    (unbegun : x.hasRevealed path f m t.number = false) {answer : t.process.need.Answer}
    (unbound : ∀ u ∈ others, ∀ w c, u.process = .manager (.binding w c) →
      (t.process.resume x.session answer).1.widgets = x.session.widgets)
    (stays : ∀ u, x.session.openFor? path m.name = some u →
      (x.resumed others t answer).session.openFor? path m.name = some u)
    (shown : (x.resumed others t answer).session.shownBy path m.name f =
      x.session.shownBy path m.name f)
    (live : (x.resumed others t answer).session.manager.disposed = false) :
    Revealing path f m x₀ (x.resumed others t answer) ∧
      ∀ at_, (∀ hint, at_ (.finding path f m hint) = false) →
        (x.resumed others t answer).revealing path f m at_ = x.revealing path f m at_ := by
  have log : (x.resumed others t answer).log =
      x.log ++ (some (.stepped t.number t.process answer x.session)).toList := rfl
  -- its first step as one of the calls is to look up what the name means
  have first (begun : (x.resumed others t answer).hasRevealed path f m t.number = true) :
      ∃ name hint, Manager.factoriesFor x.session path name = some (f, m) ∧
        t.process.resume x.session answer =
          (x.session, .inl (.manager (.finding path f m (some ⟨path, name, hint⟩)))) := by
    rw [hasRevealed_step log, unbegun, Bool.false_or, Option.toList_some,
      own_singleton rfl, List.any_cons, List.any_nil, Bool.or_false] at begun
    exact Event.first_of_reveals begun inv.live
  refine ⟨?_, fun at_ notFinding => ?_⟩
  · refine inv.resumed coherent all unbound stays (shown ▸ List.Subset.refl _) live
      (fun begun q led => ?_) fun begun outcome ended => ?_
    · obtain ⟨name, hint, means, step⟩ := first begun
      rw [step] at led
      cases led
      refine ⟨_, rfl, .finding hint ?_⟩
      rwa [Manager.factoriesFor, show (x.resumed others t answer).session.registry =
        x.session.registry from Process.registry_resume x.session t.process answer]
    · obtain ⟨name, hint, means, step⟩ := first begun
      rw [step] at ended
      cases ended
  · have counted := revealing_resumed path f m coherent all answer at_
    have none : ((x.resumed others t answer).hasRevealed path f m t.number &&
        leadsTo at_ (t.process.resume x.session answer).2) = false := by
      cases begun : (x.resumed others t answer).hasRevealed path f m t.number with
      | false => rfl
      | true =>
        obtain ⟨name, hint, means, step⟩ := first begun
        rw [step]
        exact notFinding _
    simp only [none, unbegun, Bool.false_and, Bool.toNat_false, Nat.add_zero] at counted
    exact counted

/-- **Every move** that leaves what shows the document, or is a step of one of the calls. -/
theorem Revealing.step (inv : Revealing path f m x₀ x)
    (same : x = (start (.create config) store).run moves)
    (named : Text.sameAscii f.widgetName f.name = true) {mv : Move}
    (leaves : leavesShown path f m x mv = true) : Revealing path f m x₀ (x.step mv) ∧
      Tally.Step (x.tally path f m) ((x.step mv).tally path f m) := by
  have coherent : x.IsCoherent := same ▸ coherent_run (.create config) store moves
  have tidy : x.Tidy := same ▸ tidy_run config store moves
  have unmade : x.reads x.session.coordinators.length path = 0 ∧
      x.unread x.session.coordinators.length = 0 := by
    subst same
    exact unmade_run config store moves path (Nat.le_refl _)
  simp only [leavesShown, Bool.and_eq_true, Bool.or_eq_true, Bool.not_eq_true',
    decide_eq_true_eq, beq_iff_eq] at leaves
  obtain ⟨⟨⟨opens, live⟩, settled⟩, shown⟩ := leaves
  have stays := ((OpensOnce.refl coherent).step tidy unmade opens).stays
  have unchanged (y : Traffic) (showing : y.session.shownBy path m.name f =
      x.session.shownBy path m.name f) (created : y.created path f = x.created path f)
      (revealing : ∀ at_, (∀ hint, at_ (.finding path f m hint) = false) →
        y.revealing path f m at_ = x.revealing path f m at_) :
      Tally.Step (x.tally path f m) (y.tally path f m) := by
    rw [tally, tally, showing, created, revealing _ fun _ => rfl, revealing _ fun _ => rfl]
    exact .stays
  by_cases going : ∃ i oracle, mv = .go i oracle
  · obtain ⟨i, oracle, rfl⟩ := going
    rcases x.go_cases i oracle with still | ⟨before, after, t, answer, found, split, free, -, goes⟩
    · rw [Traffic.step, still]
      exact ⟨inv, .stays⟩
    · have all := perm_of_split split
      have unbound (u : Errand) (hu : u ∈ before ++ after) (w : WidgetId) (c : ContextId)
          (binds : u.process = .manager (.binding w c)) :
          (t.process.resume x.session answer).1.widgets = x.session.widgets :=
        widgets_of_binding same all hu binds free answer
      rw [Traffic.step, goes] at live shown stays ⊢
      cases begun : x.hasRevealed path f m t.number with
      | true => exact inv.goes same named all begun unbound stays live
      | false =>
        have other : x.revealsBy path f m (.go i oracle) = false := by
          rw [revealsBy, found, Option.any_some, begun]
        obtain ⟨showing, created⟩ := shown.resolve_left (by rw [other]; exact Bool.false_ne_true)
        obtain ⟨passes, revealing⟩ := inv.passes coherent all begun unbound stays showing live
        exact ⟨passes, unchanged _ showing created revealing⟩
  · have other : x.revealsBy path f m mv = false := by
      cases mv with
      | go i oracle => exact absurd ⟨i, oracle, rfl⟩ going
      | _ => rfl
    have settles (d : Deed) (deed : mv = .deed d) : d.unsettles = false := by
      rw [deed] at settled
      exact (Bool.not_eq_true' _).mp settled
    obtain ⟨showing, created⟩ := shown.resolve_left (by rw [other]; exact Bool.false_ne_true)
    obtain ⟨e, new, log, quiet, pairs, fresh, registry, widgets⟩ :=
      x.stays_of_not_go (fun i oracle goes => going ⟨i, oracle, goes⟩) settles
    obtain ⟨aside, revealing⟩ :=
      inv.aside coherent log quiet pairs fresh registry widgets stays showing live
    exact ⟨aside, unchanged _ showing created fun at_ _ => revealing at_⟩

end Step

/-! ## 3. Runs -/

/-- **Where the traffic begins**, none of the calls has begun. -/
theorem Revealing.refl (live : x₀.session.manager.disposed = false)
    (idle : ∀ t ∈ x₀.errands, x₀.hasRevealed path f m t.number = false) :
    Revealing path f m x₀ x₀ where
  live := live
  places t ht begun := by rw [idle t ht] at begun; cases begun
  returned n before now := by rw [before] at now; cases now

/-- None of the calls is under way where none has begun. -/
theorem revealing_of_idle (idle : ∀ t ∈ x₀.errands, x₀.hasRevealed path f m t.number = false)
    (at_ : Stage → Bool) : x₀.revealing path f m at_ = 0 := by
  refine List.countP_eq_zero.mpr fun t ht => ?_
  rw [idle t ht, Bool.false_and]
  exact Bool.false_ne_true

/-- **A run**: the calls are where they should be, as many widgets show the document or wait to be
bound as were made, and one call at most is on its way if they take turns, and only then. -/
theorem revealing_run (config : Settings) (store : MemoryStore) {before moves : List Move}
    (named : Text.sameAscii f.widgetName f.name = true)
    (live : ((start (.create config) store).run before).session.manager.disposed = false)
    (idle : ∀ t ∈ ((start (.create config) store).run before).errands,
      ((start (.create config) store).run before).hasRevealed path f m t.number = false)
    (unshown : ((start (.create config) store).run before).session.shownBy path m.name f = [])
    (leaves : ((start (.create config) store).run before).throughout (leavesShown path f m) moves =
      true) :
    let x₀ := (start (.create config) store).run before
    let x := (start (.create config) store).run (before ++ moves)
    Revealing path f m x₀ x ∧
      x.created path f = x₀.created path f + (x.tally path f m).toBind +
        (x.tally path f m).shown.length ∧
      (x₀.throughout (keepsTurns path f m) moves = true ↔ (x.tally path f m).total ≤ 1) := by
  intro x₀ x
  induction moves using List.reverseRecOn with
  | nil =>
    have same : x = x₀ := congrArg (start (.create config) store).run (List.append_nil before)
    have zero : x₀.tally path f m = ⟨[], 0, 0, x₀.created path f⟩ := by
      rw [tally, revealing_of_idle idle, revealing_of_idle idle, unshown]
    rw [same, zero]
    exact ⟨.refl live idle, rfl, iff_of_true rfl (Nat.zero_le _)⟩
  | append_singleton moves mv ih =>
    rw [throughout_concat, Bool.and_eq_true, ← run_append] at leaves
    obtain ⟨inv, created, single⟩ := ih leaves.1
    have same : x = ((start (.create config) store).run (before ++ moves)).step mv := by
      rw [← run_concat, List.append_assoc]
    obtain ⟨stepped, step⟩ := inv.step rfl named leaves.2
    rw [← same] at stepped step
    refine ⟨stepped, ?_, ?_⟩
    · have balance := step.balance
      have counts (y : Traffic) : (y.tally path f m).created = y.created path f := rfl
      rw [counts, counts] at balance
      omega
    · rw [throughout_concat, Bool.and_eq_true, ← run_append, keepsTurns, ← same, Bool.or_eq_true,
        Bool.and_eq_true, decide_eq_true_eq, beq_iff_eq, beq_iff_eq]
      refine ⟨fun turns => (step.single_iff (single.mp turns.1)).mp turns.2, fun now => ?_⟩
      have earlier := step.total_le.trans now
      exact ⟨single.mpr earlier, (step.single_iff earlier).mpr now⟩

/-! ## 4. Revealing -/

/-- A call that reveals the document has begun since the traffic was at a certain point, and has
ended. -/
def HasEnded (path : String) (f : WidgetFactory) (m : ModelFactory) (x₀ x : Traffic) (n : Nat) :
    Prop :=
  x₀.hasRevealed path f m n = false ∧ x.hasRevealed path f m n = true ∧
    n ∉ x.errands.map (·.number)

/-- **What calls make that reveal a document**, since the traffic was at a certain point. -/
structure Reveals (path : String) (f : WidgetFactory) (m : ModelFactory) (x₀ x : Traffic) :
    Prop where
  /-- A call under way has returned nothing, and waits for its turn or a lock, and nothing else. -/
  waits : ∀ t ∈ x.errands, x.hasRevealed path f m t.number = true → x.replies t.number = [] ∧
    (t.process.need = .turn ∨ ∃ name access, t.process.need = .lock name access)
  /-- A call that has ended has returned a widget that shows the document. -/
  returned : ∀ n, HasEnded path f m x₀ x n →
    ∃ b ∈ x.session.shownBy path m.name f, x.replies n = [.widget (some b.widget)]
  /-- As many widgets were made as show the document or wait to be bound. -/
  created : x.created path f = x₀.created path f + x.revealing path f m Stage.isToBind +
    (x.session.shownBy path m.name f).length
  /-- Once a widget shows the document, no call sets out to make one. -/
  late : x.session.shownBy path m.name f ≠ [] → ∀ mv, leavesShown path f m x mv = true →
    (x.step mv).revealing path f m Stage.isToMake ≤ x.revealing path f m Stage.isToMake

/-- **A document is revealed once, if calls take turns.**  From a point of any run on at which no
widget of the factory shows the document and none of the calls has begun, as long as nothing else
makes or takes away what shows it: however many calls reveal it, and in whatever order they and
everything else take their steps, each of them returns a widget that shows the document.  If no call
sets out to open the document while another one is on its way, one widget is made, and every call
returns it.  If one does, more are made. -/
theorem reveals_once (config : Settings) (store : MemoryStore) {before moves : List Move}
    (path : String) (f : WidgetFactory) (m : ModelFactory)
    (named : Text.sameAscii f.widgetName f.name = true)
    (live : ((start (.create config) store).run before).session.manager.disposed = false)
    (idle : ∀ t ∈ ((start (.create config) store).run before).errands,
      ((start (.create config) store).run before).hasRevealed path f m t.number = false)
    (unshown : ((start (.create config) store).run before).session.shownBy path m.name f = [])
    (leaves : ((start (.create config) store).run before).throughout (leavesShown path f m) moves =
      true) :
    let x₀ := (start (.create config) store).run before
    let x := (start (.create config) store).run (before ++ moves)
    Reveals path f m x₀ x ∧
      (x₀.throughout (keepsTurns path f m) moves = true → ∀ n, HasEnded path f m x₀ x n →
        ∃ b, x.session.shownBy path m.name f = [b] ∧ x.created path f = x₀.created path f + 1 ∧
          ∀ k, HasEnded path f m x₀ x k → x.replies k = [.widget (some b.widget)]) ∧
      ((∀ t ∈ x.errands, x.hasRevealed path f m t.number = false) →
        x₀.throughout (keepsTurns path f m) moves = false →
          x₀.created path f + 1 < x.created path f) := by
  intro x₀ x
  obtain ⟨inv, created, single⟩ : Revealing path f m x₀ x ∧
      x.created path f = x₀.created path f + (x.tally path f m).toBind +
        (x.tally path f m).shown.length ∧
      (x₀.throughout (keepsTurns path f m) moves = true ↔ (x.tally path f m).total ≤ 1) :=
    revealing_run config store named live idle unshown leaves
  have returned (n : Nat) (ended : HasEnded path f m x₀ x n) :
      ∃ b ∈ x.session.shownBy path m.name f, x.replies n = [.widget (some b.widget)] :=
    inv.returned n ended.1 ended.2.1 ended.2.2
  refine ⟨⟨fun t ht begun => ⟨?_, ?_⟩, returned, created, fun shown mv stays => ?_⟩,
    fun turns n ended => ?_, fun nobody turns => ?_⟩
  · exact replies_of_underway (coherent_run (.create config) store _) ht
  · obtain ⟨stage, at_, reveals⟩ := inv.places t ht begun
    rw [at_]
    cases reveals with
    | called => exact .inl rfl
    | _ => exact .inr ⟨_, _, rfl⟩
  · exact (inv.step rfl named stays).2.late shown
  · -- there is no room for a second widget
    obtain ⟨b, hb, -⟩ := returned n ended
    have one := single.mp turns
    have some : 0 < (x.session.shownBy path m.name f).length := List.length_pos_of_mem hb
    have alone : (x.session.shownBy path m.name f).length = 1 ∧ (x.tally path f m).toBind = 0 := by
      have shown : (x.tally path f m).shown.length = (x.session.shownBy path m.name f).length := rfl
      unfold Tally.total at one
      omega
    obtain ⟨c, only⟩ := List.length_eq_one_iff.mp alone.1
    refine ⟨c, only, ?_, fun k gone => ?_⟩
    · rw [created, alone.2]
      exact congrArg _ alone.1
    · obtain ⟨d, hd, reply⟩ := returned k gone
      rw [only, List.mem_singleton] at hd
      rw [reply, hd]
  · have more : ¬ (x.tally path f m).total ≤ 1 := fun one =>
      Bool.false_ne_true (turns.symm.trans (single.mpr one))
    have noneToMake : (x.tally path f m).toMake = 0 := revealing_of_idle nobody _
    have noneToBind : (x.tally path f m).toBind = 0 := revealing_of_idle nobody _
    unfold Tally.total at more
    omega

/-- The text editor. -/
def textEditor : WidgetFactory := ⟨"editor", [], [], "text", none⟩

/-- A document is open in another widget. -/
def opensReader : List Move :=
  [.deed (.setRegistry twoViews), .call (.open "a" "reader" none)] ++ goes 0 3

/-- Two calls reveal the document, the second of which cannot look before the first has bound its
widget. -/
def revealsInTurn : List Move :=
  [.call (.reveal "a" "editor" none), .call (.reveal "a" "editor" none)] ++ goes 1 1 ++ goes 2 3 ++
    goes 1 3 ++ goes 2 1 ++ goes 1 2

theorem reveals_once_revealsInTurn :
    let x₀ := (start (.create {}) oneFile).run opensReader
    let x := (start (.create {}) oneFile).run (opensReader ++ revealsInTurn)
    x₀.throughout (leavesShown "a" textEditor .text) revealsInTurn = true ∧
      x₀.throughout (keepsTurns "a" textEditor .text) revealsInTurn = true ∧
      Reveals "a" textEditor .text x₀ x ∧ HasEnded "a" textEditor .text x₀ x 2 ∧
      HasEnded "a" textEditor .text x₀ x 3 ∧
      (∃ b, x.session.shownBy "a" "text" textEditor = [b] ∧
        x.created "a" textEditor = x₀.created "a" textEditor + 1 ∧
          ∀ k, HasEnded "a" textEditor .text x₀ x k → x.replies k = [.widget (some b.widget)]) ∧
      x.session.manager.bindings = [⟨.issued 0, 0⟩, ⟨.issued 1, 0⟩] := by
  intro x₀ x
  have leaves : x₀.throughout (leavesShown "a" textEditor .text) revealsInTurn = true := by
    decide +kernel
  have turns : x₀.throughout (keepsTurns "a" textEditor .text) revealsInTurn = true := by
    decide +kernel
  have first : HasEnded "a" textEditor .text x₀ x 2 := by unfold HasEnded; decide +kernel
  have second : HasEnded "a" textEditor .text x₀ x 3 := by unfold HasEnded; decide +kernel
  obtain ⟨reveals, once, -⟩ := reveals_once {} oneFile "a" textEditor .text (by decide +kernel)
    (by decide +kernel) (by decide +kernel) (by decide +kernel) leaves
  exact ⟨leaves, turns, reveals, first, second, once turns 2 first, by decide +kernel⟩

/-- Two calls reveal a document that is open nowhere, and both look before either opens it. -/
def revealsAtOnce : List Move :=
  [.call (.reveal "a" "editor" none), .call (.reveal "a" "editor" none)] ++ goes 0 1 ++ goes 1 1 ++
    goes 0 1 ++ goes 1 1 ++ goes 0 1 ++ goes 1 2 ++ goes 0 1 ++ goes 1 2

/-- **Two calls make two widgets**: nothing closes or renames the document or fails to load it, but
each of the calls has looked before the other one has opened it. -/
theorem reveals_twice :
    let x₀ := (start (.create {}) oneFile).run [.deed (.setRegistry twoViews)]
    let x := (start (.create {}) oneFile).run (.deed (.setRegistry twoViews) :: revealsAtOnce)
    x₀.throughout (leavesShown "a" textEditor .text) revealsAtOnce = true ∧
      x₀.session.shownBy "a" "text" textEditor = [] ∧ x₀.errands.isEmpty = true ∧
      HasEnded "a" textEditor .text x₀ x 0 ∧ HasEnded "a" textEditor .text x₀ x 1 ∧
      x.created "a" textEditor = x₀.created "a" textEditor + 2 ∧
      x.replies 0 = [.widget (some (.issued 0))] ∧ x.replies 1 = [.widget (some (.issued 1))] ∧
      x.session.shownBy "a" "text" textEditor = [⟨.issued 0, 0⟩, ⟨.issued 1, 0⟩] := by
  unfold HasEnded
  decide +kernel

end Traffic

end Folio
