/-
# Disposal

When the manager is disposed, everything that it has made by then is closed for good: no context and
no widget is in use, every context it ever made is dead, and every widget it ever made is disposed
(`Ensemble.closed_for_good`).  This holds whatever the host does meanwhile; in particular it may
dispose widgets by itself.

What is not closed is what is yet to come.  A call that waits to open or to create a document has
passed the gate already, and goes on in a manager that is disposed: the document is opened, and is
in use (`Ensemble.opens_after_disposal`).  Where no such call waits, the manager stays empty for
ever.
-/
import Folio.Proofs.Session.Edits
import Folio.Proofs.Manager.Protocol
import Folio.Proofs.Manager.Twin

namespace Folio

namespace Session

variable {s t : Session}

/-! ## 1. Widgets that are disposed -/

/-- The widget was made, and is disposed. -/
def Gone (s : Session) (w : WidgetId) : Prop := ∃ x, s.widget? w = some x ∧ x.disposed = true

theorem Gone.of_widgets {w : WidgetId} (gone : s.Gone w) (same : t.widgets = s.widgets) :
    t.Gone w := by
  obtain ⟨x, found, disposed⟩ := gone
  refine ⟨x, ?_, disposed⟩
  cases w with
  | issued n => rwa [widget?, same]
  | foreign => cases found

theorem Gone.within {w : WidgetId} {widgets : List Widget}
    (within : DisposedWithin widgets s.widgets) (gone : (s.withWidgets widgets).Gone w) :
    s.Gone w := by
  obtain ⟨x, found, disposed⟩ := gone
  cases w with
  | issued n => exact within.disposed n x found disposed
  | foreign => cases found

theorem Gone.disposeWidget {w : WidgetId} (gone : s.Gone w) (v : WidgetId) :
    (s.disposeWidget v).Gone w := by
  obtain ⟨x, found, disposed⟩ := gone
  by_cases same : w = v
  · subst same
    exact ⟨_, widget?_disposeWidget found, rfl⟩
  · exact ⟨x, (widget?_disposeWidget_of_ne same).trans found, disposed⟩

/-- **A widget that is disposed stays so**, whatever edit is made. -/
theorem Edit.gone {w : WidgetId} (h : s.Edit t) (gone : s.Gone w) : t.Gone w := by
  cases h with
  | newWidget factory c hint =>
    obtain ⟨x, found, disposed⟩ := gone
    refine ⟨x, ?_, disposed⟩
    cases w with
    | issued n =>
      have made : n < s.widgets.length := (List.getElem?_eq_some_iff.mp found).1
      exact (List.getElem?_append_left made).trans found
    | foreign => cases found
  | retireWidget v => exact (gone.disposeWidget v).of_widgets rfl
  | startCoordinator k => exact gone.of_widgets (s.widgets_startCoordinator k)
  | _ => exact gone.of_widgets rfl

end Session

/-! ## 2. What leaves the manager and its widgets alone -/

/-- A process that is no call of the manager leaves alone what the manager keeps. -/
theorem Process.manager_resume (s : Session) (p : Process) (answer : p.need.Answer)
    (other : ∀ stage, p ≠ .manager stage) : (p.resume s answer).1.manager = s.manager := by
  have makes := p.makes s answer other
  generalize (p.resume s answer).1 = t at makes ⊢
  cases makes with
  | starts k call reply => exact Session.manager_startCoordinator _ k
  | _ => rfl

/-- **A widget that is disposed stays so**, however a process goes on. -/
theorem Process.gone_resume {s : Session} {w : WidgetId} (gone : s.Gone w) (p : Process)
    (answer : p.need.Answer) : (p.resume s answer).1.Gone w := by
  refine Process.keeps (P := fun t => t.Gone w) (fun edit gone => edit.gone gone) ?_ gone answer
  intro t makes
  cases makes with
  | starts k call reply => exact gone.of_widgets (Session.widgets_startCoordinator _ k)
  | _ => exact gone.of_widgets rfl

/-- And whatever the host does. -/
theorem Deed.gone_apply {s : Session} {w : WidgetId} (gone : s.Gone w) (d : Deed) :
    (d.apply s).Gone w := by
  cases d with
  | disposeWidget v => exact gone.disposeWidget v
  | startCoordinator k => exact gone.of_widgets (Session.widgets_startCoordinator _ k)
  | _ => exact gone.of_widgets rfl

/-! ## 3. What is still to come -/

/-- **The call waits to open or to create a document**: it goes on to do so when it gets the
contexts. -/
def Stage.awaitsToOpen : Stage → Bool
  | .updating (.open _ _ _ _) => true
  | .updating (.create _ _ _ _) => true
  | _ => false

/-- **The call brings a document**: it waits to open or to create one, or is about to do so when it
has closed others, or has done so and waits to bind the widget. -/
def Stage.brings : Stage → Bool
  | .closing _ _ (.open _ _ _ _) => true
  | .closing _ _ (.create _ _ _ _) => true
  | .binding _ _ => true
  | stage => stage.awaitsToOpen

/-- The process is such a call. -/
def Process.awaitsToOpen : Process → Bool
  | .manager stage => stage.awaitsToOpen
  | _ => false

/-- The process brings a document. -/
def Process.brings : Process → Bool
  | .manager stage => stage.brings
  | _ => false

/-- The manager is disposed, and nothing is in use. -/
structure Session.Shut (s : Session) : Prop where
  disposed : s.manager.disposed = true
  tracked : s.manager.tracked = []
  bindings : s.manager.bindings = []

/-- Which contexts are in hand makes no difference. -/
theorem Stage.brings_closing (t u : Tracked) (rest rest' : List Tracked) (after : AfterClosing) :
    (Stage.closing t rest after).brings = (Stage.closing u rest' after).brings := by
  cases after <;> rfl

/-- **A step that keeps the manager shut**: it makes no context, tells of no new widget, and what it
goes on as does not bring a document. -/
structure KeepsShut {α β : Type} (brings : α → Bool) (s : Session) (step : Session × (α ⊕ β)) :
    Prop where
  shut : step.1.Shut
  contexts : step.1.contexts.length = s.contexts.length
  adopted : ∀ w c hint, .adopted w c hint ∈ step.1.lifecycle → .adopted w c hint ∈ s.lifecycle
  next : ∀ q, step.2 = .inl q → brings q = false

namespace KeepsShut

variable {s t : Session}

/-- The session stays as it is, and the call goes on. -/
theorem await (shut : s.Shut) {stage : Stage} (h : stage.brings = false) :
    KeepsShut Stage.brings s (Manager.await s stage) :=
  ⟨shut, rfl, fun _ _ _ => id, by rintro q ⟨⟩; exact h⟩

/-- The session stays as it is, and the call ends. -/
theorem ending (shut : s.Shut) (result : ManagerResult) :
    KeepsShut Stage.brings s (s, .inr result) :=
  ⟨shut, rfl, fun _ _ _ => id, fun _ next => absurd next Sum.inr_ne_inl⟩

theorem afterClosing (shut : s.Shut) (after : AfterClosing)
    (h : ∀ t rest, (Stage.closing t rest after).brings = false) :
    KeepsShut Stage.brings s (Manager.afterClosing s after) := by
  cases after with
  | «open» path widget model hint => cases h ⟨0, 0⟩ []
  | create path widget model hint => cases h ⟨0, 0⟩ []
  | follow source target =>
    rw [Manager.afterClosing, Manager.followAll, shut.tracked]
    exact ending shut _
  | delete path => exact await shut rfl
  | clear last => exact await shut rfl
  | finish r => exact ending shut _

theorem retireEach (shut : s.Shut) (closing : List Tracked) (after : AfterClosing)
    (h : ∀ t rest, (Stage.closing t rest after).brings = false) :
    KeepsShut Stage.brings s (Manager.retireEach s closing after) := by
  cases closing with
  | nil => exact afterClosing shut after h
  | cons t rest => exact await shut (h t rest)

theorem retireWhere (shut : s.Shut) (test : Tracked → Bool) (after : AfterClosing)
    (h : ∀ t rest, (Stage.closing t rest after).brings = false) :
    KeepsShut Stage.brings s (Manager.retireWhere s test after) := by
  rw [Manager.retireWhere_eq, shut.tracked]
  have same : s.setTracked [] = s := by
    rw [Session.setTracked, ← shut.tracked]
  rw [List.filter_nil, List.filter_nil, same]
  exact retireEach shut [] after h

/-- A context is closed that was in hand. -/
theorem close (shut : s.Shut) (t : Tracked) (rest : List Tracked) {after : AfterClosing}
    (h : ∀ t rest, (Stage.closing t rest after).brings = false) :
    KeepsShut Stage.brings s (Manager.retireEach (s.retireContext t) rest after) := by
  have manager := Session.manager_retireContext s t
  have still : (s.retireContext t).Shut :=
    ⟨by rw [manager]; exact shut.disposed, by rw [manager]; exact shut.tracked,
      by rw [manager, shut.bindings]; rfl⟩
  have told : (s.retireContext t).lifecycle = s.lifecycle := by
    rw [Session.retireContext_eq, Session.withdraw, shut.bindings]
    rfl
  have next := retireEach still rest after h
  exact ⟨next.shut, next.contexts.trans (Session.contexts_length_retireContext s t),
    fun w c hint adopted => told ▸ next.adopted w c hint adopted, next.next⟩

theorem notFound (shut : s.Shut) (otherwise : Option Wanted) :
    KeepsShut Stage.brings s (Manager.notFound s otherwise) := by
  cases otherwise with
  | none => exact ending shut _
  | some w => exact await shut rfl

/-- **A call that brings nothing keeps the manager shut.** -/
theorem stage (shut : s.Shut) (stage : Stage) (answer : stage.need.Answer)
    (h : stage.brings = false) : KeepsShut Stage.brings s (stage.resume s answer) := by
  cases stage with
  | called op =>
    simp only [Stage.resume, shut.disposed, if_true]
    cases op <;> exact ending shut _
  | updating change =>
    cases change with
    | «open» path widget model hint => cases h
    | create path widget model hint => cases h
    | closeWidget widget confirmed => exact await shut rfl
    | closeFile path delete => exact retireWhere shut _ _ fun _ _ => by cases delete <;> rfl
    | closeAll last => exact retireWhere shut _ _ fun _ _ => rfl
    | renameFile source target =>
      simp only [Stage.resume, Manager.update, Manager.beginMove, shut.tracked, List.any_nil,
        Bool.false_eq_true, if_false]
      exact await shut rfl
  | reading query =>
    cases query with
    | openContexts => exact ending shut _
    | autosaveFor c => exact ending shut _
    | setAutosave enabled =>
      rw [Stage.resume, Manager.read, shut.tracked]
      exact ending shut _
    | setInterval interval =>
      rw [Stage.resume, Manager.read, shut.tracked]
      exact ending shut _
  | finding path widget model otherwise =>
    simp only [Stage.resume, shut.tracked, List.find?_nil]
    exact notFound shut otherwise
  | searching c widget otherwise =>
    simp only [Stage.resume, shut.bindings, List.find?_nil]
    exact notFound shut otherwise
  | readingBindings query => cases query <;> exact ending shut _
  | closing t rest after =>
    exact close shut t rest fun u rest' => (Stage.brings_closing u t rest' rest after).trans h
  | binding w c => cases h
  | unbinding widget confirmed =>
    simp only [Stage.resume, Manager.unbind, shut.bindings, List.find?_nil]
    exact ending shut _
  | confirming widget =>
    simp only [Stage.resume]
    split
    · exact await shut rfl
    · exact ending shut _
  | clearing last =>
    have told : (Stage.resume s (.clearing last) ()).1.lifecycle = s.lifecycle := by
      cases last <;> rfl
    refine ⟨⟨?_, ?_, ?_⟩, by cases last <;> rfl, fun w c hint => told ▸ id,
      fun _ next => absurd next Sum.inr_ne_inl⟩
    · cases last
      · exact shut.disposed
      · rfl
    · cases last <;> exact shut.tracked
    · cases last <;> rfl
  | moving source target models =>
    cases answer with
    | error e => exact ending shut _
    | ok m => exact retireWhere shut _ _ fun _ _ => rfl
  | deleting path => cases answer <;> exact ending shut _

/-- **A process that brings nothing keeps the manager shut.** -/
theorem process (shut : s.Shut) (p : Process) (answer : p.need.Answer) (h : p.brings = false) :
    KeepsShut Process.brings s (p.resume s answer) := by
  cases p with
  | manager st =>
    have keeps := stage shut st answer h
    have session := Ensemble.session_manager s st answer
    refine ⟨session ▸ keeps.shut, session ▸ keeps.contexts, session ▸ keeps.adopted,
      fun q next => ?_⟩
    obtain ⟨after, rfl⟩ := Process.exists_stage_of_resume next
    exact keeps.next after (Process.resume_manager_inl.mp next)
  | _ =>
    have leaves := Session.LeavesBooks.process s _ answer rfl
    have manager := Process.manager_resume s _ answer fun _ => nofun
    refine ⟨⟨by rw [manager]; exact shut.disposed, by rw [manager]; exact shut.tracked,
      by rw [manager]; exact shut.bindings⟩, leaves.contexts_length,
      fun w c hint => leaves.lifecycle ▸ id, fun q next => ?_⟩
    cases q with
    | manager stage =>
      obtain ⟨_, is⟩ := Process.manager_of_resume next
      cases is
    | _ => rfl

end KeepsShut

namespace Ensemble

/-- **The manager is shut**, and no call brings a document. -/
structure Closed (e : Ensemble) : Prop where
  shut : e.session.Shut
  brings : ∀ p ∈ e.processes, p.brings = false

/-- Background work brings nothing. -/
theorem brings_ofBackground (work : Background) : (Process.ofBackground work).brings = false := by
  cases work <;> rfl

/-- **An ensemble stays closed**, without new contexts and widgets. -/
structure StaysClosed (e f : Ensemble) : Prop where
  closed : f.Closed
  contexts : f.session.contexts.length = e.session.contexts.length
  adopted : ∀ w c hint, .adopted w c hint ∈ f.session.lifecycle →
    .adopted w c hint ∈ e.session.lifecycle

/-- Taking over background work keeps an ensemble closed. -/
theorem closed_absorb {s : Session} {processes : List Process} (shut : s.Shut)
    (brings : ∀ p ∈ processes, p.brings = false) : (absorb s processes).Closed where
  shut := ⟨shut.disposed, shut.tracked, shut.bindings⟩
  brings p hp := by
    rcases List.mem_append.mp hp with hp | hp
    · exact brings p hp
    · obtain ⟨work, -, rfl⟩ := List.mem_map.mp hp
      exact brings_ofBackground work

/-- **However a process goes on**, what is closed stays closed. -/
theorem Closed.go {e : Ensemble} (closed : e.Closed) (i : Nat) (oracle : Oracle) :
    e.StaysClosed (e.go i oracle) := by
  rcases go_cases e i oracle with same | ⟨p, others, perm, -, same⟩
  · rw [same]
    exact ⟨closed, rfl, fun _ _ _ => id⟩
  · have keeps := KeepsShut.process closed.shut p (oracle p.need)
      (closed.brings p (perm.mem_iff.mp List.mem_cons_self))
    rw [same]
    refine ⟨closed_absorb keeps.shut fun q hq => ?_, keeps.contexts, keeps.adopted⟩
    rcases List.mem_append.mp hq with hq | hq
    · exact closed.brings q (perm.mem_iff.mp (List.mem_cons_of_mem p hq))
    · cases next : (p.resume e.session (oracle p.need)).2 with
      | inl r =>
        rw [next] at hq
        rw [List.mem_singleton.mp hq]
        exact keeps.next r next
      | inr outcome =>
        rw [next] at hq
        cases hq

theorem Closed.step {e : Ensemble} (closed : e.Closed) (m : Move) : (e.step m).Closed := by
  cases m with
  | deed d =>
    have shut : (d.apply e.session).Shut := by
      have manager := Deed.manager_apply e.session d
      exact ⟨by rw [manager]; exact closed.shut.disposed,
        by rw [manager]; exact closed.shut.tracked, by rw [manager]; exact closed.shut.bindings⟩
    exact closed_absorb shut closed.brings
  | enter p =>
    simp only [Ensemble.step]
    split
    · next call =>
      refine ⟨closed.shut, fun q hq => ?_⟩
      rcases List.mem_append.mp hq with hq | hq
      · exact closed.brings q hq
      · rw [List.mem_singleton.mp hq]
        cases p with
        | manager stage => cases stage <;> first | rfl | cases call
        | _ => rfl
    · exact closed
  | go i oracle => exact (closed.go i oracle).closed

/-- **What is closed stays closed for ever.** -/
theorem Closed.run {e : Ensemble} (closed : e.Closed) (moves : List Move) : (e.run moves).Closed :=
  run_keeps (fun _ m (_ : True) closed => closed.step m) moves e (fun _ _ => trivial) closed

/-! ## 4. Every run -/

/-- Nobody keeps a call from the bindings. -/
theorem permits_bindings (others : List Process) (access : Access) :
    permits others (.lock .bindings access) = true := by
  refine List.all_eq_true.mpr fun p _ => List.all_eq_true.mpr fun held mem => ?_
  have other : held.1 ≠ .bindings := by
    intro same
    cases p with
    | manager stage => exact stage.bindings_not_mem_holds held.2 (same ▸ mem)
    | _ => cases mem
  simp [other]

/-- **The last step of a call that disposes the manager**: nothing is in use any more, what is
accounted for is dead, and the widgets that were made are disposed. -/
theorem disposes {e : Ensemble} {known : List Tracked}
    (orderly : Orderly (fun _ => True) (Session.TwinBooks known) e) {i : Nat} (oracle : Oracle)
    (last : e.processes[i]? = some (.manager (.clearing true))) :
    ∃ others, owners others = [] ∧
      e.go i oracle = absorb (Stage.resume e.session (.clearing true) ()).1 others ∧
      (e.go i oracle).session.Shut ∧ (∀ t ∈ known, (e.go i oracle).session.Dead t) ∧
      ∀ w c hint, .adopted w c hint ∈ (e.go i oracle).session.lifecycle →
        (e.go i oracle).session.Gone w := by
  obtain ⟨hi, here⟩ := List.getElem?_eq_some_iff.mp last
  have perm : (Process.manager (.clearing true) :: e.processes.eraseIdx i).Perm e.processes := by
    rw [← here]
    exact List.getElem_cons_eraseIdx_perm hi
  have goes : e.go i oracle =
      absorb (Stage.resume e.session (.clearing true) ()).1 (e.processes.eraseIdx i) := by
    simp only [Ensemble.go, last, permits_bindings, if_true]
    exact congrArg (absorb _) (List.append_nil _)
  have front : Orderly (fun _ => True) (Session.TwinBooks known)
      ⟨e.session, .manager (.clearing true) :: e.processes.eraseIdx i⟩ := orderly.perm perm.symm
  obtain ⟨nobody, _, ⟨widgets, within, rfl⟩, books, accounted⟩ :=
    front.alone_of_alters rfl (permits_bindings _ _)
  have kept : (e.session.withWidgets widgets).Kept [] [] := books.kept
  have tracked : e.session.manager.tracked = [] := books.cleared _ rfl rfl
  have bindings : e.session.manager.bindings = [] := by
    refine List.eq_nil_iff_forall_not_mem.mpr fun b hb => ?_
    have bound := kept.roster.bound b (List.mem_append_left [] hb)
    simp only [List.append_nil] at bound
    rw [show (e.session.withWidgets widgets).manager.tracked = [] from tracked] at bound
    cases bound
  refine ⟨_, nobody, goes, ?_, fun t ht => ?_, fun w c hint adopted => ?_⟩
  · rw [goes]
    exact ⟨rfl, tracked, rfl⟩
  · rw [goes]
    rcases accounted t ht with inUse | dead
    · rw [show (e.session.withWidgets widgets).manager.tracked = [] from tracked] at inUse
      cases inUse
    · have here : e.session.Dead t := ⟨dead.made, dead.coordinatorMade, dead.owner, dead.disposed,
        dead.inactive⟩
      exact here.advances (.of_eq rfl rfl)
  · rw [goes] at adopted ⊢
    have told : (e.session.withWidgets widgets).history w ≠ [] :=
      Session.history_ne_nil (e := .adopted w c hint) adopted rfl
    have notShown : w ∉ ((e.session.withWidgets widgets).shown []).map (·.widget) := by
      rw [Session.shown, List.append_nil,
        show (e.session.withWidgets widgets).manager.bindings = [] from bindings]
      exact List.not_mem_nil
    have retired := (kept.ledger.others w notShown).resolve_left told
    have gone : e.session.Gone w := Session.Gone.within within retired.widget
    exact gone.of_widgets rfl

/-- Where nobody owns the contexts, only a call that waits for them can bring a document. -/
theorem brings_of_owners {processes : List Process} (nobody : owners processes = [])
    (nobodyWaits : ∀ p ∈ processes, p.awaitsToOpen = false) :
    ∀ p ∈ processes, p.brings = false := by
  intro p hp
  have notOwner : p.owned? = none := List.filterMap_eq_nil_iff.mp nobody p hp
  have waitsNot := nobodyWaits p hp
  cases p with
  | manager stage =>
    cases stage with
    | closing t rest after => cases notOwner
    | binding w c => cases notOwner
    | _ => exact waitsNot
  | _ => rfl

/-- **A widget that is disposed stays so**, whatever happens. -/
theorem gone_run {e : Ensemble} {w : WidgetId} (gone : e.session.Gone w) (moves : List Move) :
    (e.run moves).session.Gone w := by
  refine run_keeps (P := fun e => e.session.Gone w) (fun e m (_ : True) gone => ?_) moves e
    (fun _ _ => trivial) gone
  cases m with
  | deed d => exact (Deed.gone_apply gone d).of_widgets rfl
  | enter p =>
    simp only [Ensemble.step]
    split <;> exact gone
  | go i oracle =>
    simp only [Ensemble.step]
    rcases go_cases e i oracle with same | ⟨p, others, -, -, same⟩
    · rwa [same]
    · rw [same]
      exact (Process.gone_resume gone p _).of_widgets rfl

/-- **Disposal is complete for all that was made.**  Let a call that disposes the manager take its
last step, in whatever run and whatever else is in progress.  Then the manager is disposed and
nothing is in use; every context that the manager made, with the coordinator that it made for it,
is dead for ever; and every widget that it made is disposed for ever.

If no call waits for its turn to open or to create a document, it is complete for all that follows
as well: nothing comes into use, and no process makes a context or a widget. -/
theorem closed_for_good (config : Settings) (before : List Move) (i : Nat) (oracle : Oracle)
    (last : ((start config).run before).processes[i]? = some (.manager (.clearing true))) :
    (((start config).run before).go i oracle).session.Shut ∧
    (∀ first j answers rest, before = first ++ .go j answers :: rest →
      ∀ c, ((start config).run first).session.contexts.length ≤ c →
        c < (((start config).run first).go j answers).session.contexts.length →
        ∃ k, ⟨c, k⟩ ∈ (((start config).run first).go j answers).session.manager.tracked ∧
          ∀ later, ((((start config).run before).go i oracle).run later).session.Dead ⟨c, k⟩) ∧
    (∀ w c hint, .adopted w c hint ∈ (((start config).run before).go i oracle).session.lifecycle →
      ∀ later, ((((start config).run before).go i oracle).run later).session.Gone w) ∧
    ((∀ p ∈ (((start config).run before).go i oracle).processes, p.awaitsToOpen = false) →
      ∀ later, ((((start config).run before).go i oracle).run later).session.Shut ∧
        ∀ j answers, ((((start config).run before).go i oracle).run later).StaysClosed
          (((((start config).run before).go i oracle).run later).go j answers)) := by
  have upheld :=
    (orderly_twinBooks config).run (upheld_twinBooks []) before fun m _ => allowed_all m
  obtain ⟨others, nobody, goes, shut, -, gone⟩ := disposes upheld oracle last
  refine ⟨shut, ?_, fun w c hint adopted later => gone_run (gone w c hint adopted) later,
    fun nobodyWaits later => ?_⟩
  · rintro first j answers rest rfl c made now
    have start :=
      (orderly_twinBooks config).run (upheld_twinBooks []) first fun m _ => allowed_all m
    obtain ⟨k, taken⟩ := takesUp_twinBooks start j answers c made now
    refine ⟨k, taken, fun later => ?_⟩
    -- from here on the context is among those accounted for
    have known : Orderly (fun _ => True) (Session.TwinBooks [⟨c, k⟩])
        (((Ensemble.start config).run first).go j answers) := by
      obtain ⟨fits, alone, u, twin, books, -⟩ := start.go (upheld_twinBooks []) j answers
      refine ⟨fits, alone, u, twin, books, fun t ht => ?_⟩
      rw [List.mem_singleton.mp ht, Session.Accounted, twin.manager]
      exact Or.inl (List.mem_append_left _ taken)
    have whole : (Ensemble.start config).run (first ++ .go j answers :: rest) =
        (((Ensemble.start config).run first).go j answers).run rest := by
      rw [run_append]
      rfl
    have orderly := known.run (upheld_twinBooks [⟨c, k⟩]) rest fun m _ => allowed_all m
    rw [← whole] at orderly
    obtain ⟨-, -, -, -, dead, -⟩ := disposes orderly oracle last
    exact (dead _ (List.mem_singleton_self _)).advances (advances_run later _)
  · have closed : (((start config).run before).go i oracle).Closed := by
      refine ⟨shut, brings_of_owners ?_ nobodyWaits⟩
      rw [goes, absorb, owners_append, owners_background, nobody]
      rfl
    exact ⟨(closed.run later).shut, fun j answers => (closed.run later).go j answers⟩

/-- Two files are open.  The host disposes one of the widgets by itself, and disposes the manager
while it asks to close the other file. -/
def disposesWhileClosing : List Move :=
  [.deed (.setRegistry .sample), .call (.open "a" "editor" none),
    .call (.open "b" "console" none)] ++
    Move.turns 60 ++ [.deed (.disposeWidget (.issued 1)), .call .dispose, .call (.closeFile "a")] ++
    Move.turns 15

/-- The process is a call that disposes the manager, if that is the stage that it owns. -/
theorem eq_clearing {p : Option Process} (h : (p.bind Process.owned?) = some (.clearing true)) :
    p = some (.manager (.clearing true)) := by
  obtain ⟨q, rfl, owned⟩ := Option.bind_eq_some_iff.mp h
  cases q with
  | manager stage =>
    simp only [Process.owned?, Stage.owned?] at owned
    split at owned
    · rw [Option.some.inj owned]
    · cases owned
  | _ => cases owned

/-- The call that disposes the manager is at its last step, and the other one still waits.  Both
contexts are dead then, and both widgets disposed. -/
theorem closed_for_good_disposesWhileClosing :
    let e := (start {}).run disposesWhileClosing
    let d := e.go 3 .obliging
    e.processes[3]? = some (Process.manager (.clearing true)) ∧
      e.session.contexts.length = 2 ∧ d.processes.length = 3 ∧
      (∀ p ∈ d.processes, p.awaitsToOpen = false) ∧ ∀ later, (d.run later).session.Shut := by
  intro e d
  have last : e.processes[3]? = some (Process.manager (.clearing true)) :=
    eq_clearing (by decide +kernel)
  have nobodyWaits : ∀ p ∈ d.processes, p.awaitsToOpen = false := by decide +kernel
  refine ⟨last, by decide +kernel, by decide +kernel, nobodyWaits, fun later => ?_⟩
  exact ((closed_for_good {} disposesWhileClosing 3 .obliging last).2.2.2 nobodyWaits later).1

/-- A call to open a document waits while the manager is disposed. -/
def disposesWhileOpening : List Move :=
  [.deed (.setRegistry .sample), .call .dispose, .call (.open "a" "editor" none),
    .go 0 .obliging, .go 0 .obliging, .go 0 .obliging]

/-- **A document is opened in a manager that is disposed.**  The call to dispose it has taken its
last step, and nothing is in use.  Then the call that waited goes on: it makes a context and a
widget, which are in use, and the context is live. -/
theorem opens_after_disposal :
    let e := (start {}).run disposesWhileOpening
    let d := e.go 1 .obliging
    let f := d.run (.replicate 5 (.go 0 .obliging))
    (e.processes[1]? = some (Process.manager (.clearing true)) ∧ d.session.manager.disposed = true ∧
      d.session.manager.tracked = [] ∧ d.session.contexts.length = 0) ∧
    f.session.manager.disposed = true ∧ f.session.manager.tracked = [⟨0, 0⟩] ∧
      f.session.manager.bindings = [⟨.issued 0, 0⟩] ∧
      (f.session.context 0).isDisposed = false ∧ (f.session.coordinator 0).active = true ∧
      f.session.widgets.map (·.disposed) = [false] := by
  refine ⟨⟨eq_clearing (by decide +kernel), ?_⟩, ?_⟩ <;> decide +kernel

end Ensemble

end Folio
