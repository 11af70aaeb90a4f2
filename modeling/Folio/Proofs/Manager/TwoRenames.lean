/-
# Two ways to move a file

The host can have a file moved in two ways: it asks the context in which the document is open, or it
asks the manager.  Both ask the store for the same, and a reply is to have the same consequences.

`Process.RunsTo` says what becomes of a session when a process goes on to its end and nobody else
does anything; it can end in one way only (`Process.RunsTo.unique`).  A context that moves its file
follows it, and learns what the store says about it; all else stays (`Relocation.runsTo_operation`).
The manager closes what is replaced and has all contexts follow that are at the source
(`Relocation.runsTo_moved`), and refuses to do so if changes would be lost
(`Relocation.runsTo_refused`).

So the two agree if the context is the only one at the source, replaces none, and knows already what
the store says, and only then (`Traffic.renames_agree_iff`).  What a context moves to the path of
another stands beside it, two live contexts for one document and one model factory, and its siblings
stay where no file is any more (`Traffic.renames_differ`).
-/
import Folio.Proofs.Autosave.Dealing
import Folio.Proofs.Manager.Outcomes
import Folio.Proofs.Manager.RenameTarget

namespace Folio

/-! ## 1. A process by itself -/

/-- **A process goes on to its end**, while nobody else does anything, and ends with an outcome. -/
inductive Process.RunsTo (oracle : Oracle) : Session → Process → Session → Outcome → Prop where
  | ends {s t : Session} {p : Process} {outcome : Outcome} (quiet : t.started = [])
      (step : p.resume s (oracle p.need) = (t, .inr outcome)) : RunsTo oracle s p t outcome
  | goesOn {s t u : Session} {p q : Process} {outcome : Outcome} (quiet : t.started = [])
      (step : p.resume s (oracle p.need) = (t, .inl q)) (rest : RunsTo oracle t q u outcome) :
      RunsTo oracle s p u outcome

variable {oracle : Oracle}

/-- **It ends in one way.** -/
theorem Process.RunsTo.unique {s t u : Session} {p : Process} {a b : Outcome}
    (first : RunsTo oracle s p t a) (second : RunsTo oracle s p u b) : t = u ∧ a = b := by
  induction first generalizing u b with
  | ends quiet step =>
    cases second with
    | ends quiet' step' =>
      obtain ⟨same, ends⟩ := Prod.mk.inj (step.symm.trans step')
      exact ⟨same, Sum.inr.inj ends⟩
    | goesOn quiet' step' rest => cases (Prod.mk.inj (step.symm.trans step')).2
  | goesOn quiet step rest ih =>
    cases second with
    | ends quiet' step' => cases (Prod.mk.inj (step.symm.trans step')).2
    | goesOn quiet' step' rest' =>
      obtain ⟨rfl, goesOn⟩ := Prod.mk.inj (step.symm.trans step')
      obtain rfl := Sum.inl.inj goesOn
      exact ih rest'

namespace Relocation

variable {r : Relocation} {s t u : Session} {m : Metadata} {x : Tracked}

/-! ## 2. A context moves its file -/

/-- **The context follows its file**, and learns what the store says about it. -/
theorem runsTo_operation {c : ContextId} (quiet : s.started = [])
    (live : (s.context c).isDisposed = false) (here : (s.context c).path = r.source)
    (accepts : oracle (.store (.rename r.source r.target)) = .ok m) :
    Process.RunsTo oracle s (.operation c (.rename r.target))
      (s.setContext c ((s.context c).afterRename r.target (.ok m)).1)
      (.context (.ok .done)) := by
  have begins : (Process.operation c (.rename r.target)).resume s () =
      (s, .inl (.calling c (.renaming r.source r.target))) := by
    simp only [Process.resume, ContextOp.begin, Context.requireLive, live, ContextOp.call, here]
    rfl
  refine .goesOn quiet begins (.ends quiet ?_)
  show (Process.calling c (.renaming r.source r.target)).resume s
    (oracle (.store (.rename r.source r.target))) = _
  rw [accepts]
  rfl

/-! ## 3. The manager moves a file -/

/-- The call begins: it waits for the contexts. -/
theorem resume_called (inUse : s.manager.disposed = false) :
    (Process.manager (.called (.renameFile r.source r.target))).resume s () =
      (s, .inl (.manager (.updating (.renameFile r.source r.target)))) := by
  simp only [Process.resume, Stage.resume, inUse]
  rfl

/-- The call fails if the manager was disposed. -/
theorem runsTo_disposed (quiet : s.started = []) (gone : s.manager.disposed = true) :
    Process.RunsTo oracle s (.manager (.called (.renameFile r.source r.target))) s
      (.manager (.error .usedAfterDisposal)) := by
  refine .ends quiet ?_
  simp only [Process.resume, Stage.resume, gone]
  rfl

/-- **The look finds changes** if a context that would be replaced has some. -/
theorem any_isDisplacedUnsaved : s.manager.tracked.any
      (Manager.isDisplacedUnsaved s r.target (Manager.modelsAt s r.source)) = true ↔
    ∃ y ∈ s.manager.tracked, r.replaces s y = true ∧ (s.context y.context).isUnsaved = true := by
  simp only [List.any_eq_true, Manager.isDisplacedUnsaved_eq, isDisplaced_modelsAt,
    Bool.and_eq_true]

/-- **The call is refused** if a context that it would replace has changes. -/
theorem runsTo_refused (quiet : s.started = []) (inUse : s.manager.disposed = false)
    (unsaved : ∃ y ∈ s.manager.tracked,
      r.replaces s y = true ∧ (s.context y.context).isUnsaved = true) :
    Process.RunsTo oracle s (.manager (.called (.renameFile r.source r.target))) s
      (.manager (.error (.unsavedTarget r.target))) := by
  refine .goesOn quiet (resume_called inUse) (.ends quiet ?_)
  simp only [Process.resume, Stage.resume, Manager.update, Manager.beginMove,
    if_pos (any_isDisplacedUnsaved.mpr unsaved)]
  rfl

section Moves

variable (listed : s.Listed)

include listed

/-- **The call closes what is left to be closed**, one context after the other, and then the
contexts at the source follow. -/
theorem runsTo_closing (oracle : Oracle) (closed : List Tracked) (y : Tracked) (rest : List Tracked)
    (parts : s.manager.tracked.filter (r.replaces s) = closed ++ y :: rest)
    (cleared : r.Cleared s (s.manager.tracked.filter fun x => !r.replaces s x)
      (closed.map (·.context)) t) (still : ∀ c, r.still c = true) (quiet : t.started = []) :
    ∃ u, r.Cleared s (s.manager.tracked.filter fun x => !r.replaces s x) (r.replaced s) u ∧
      Process.RunsTo oracle t (.manager (.closing y rest (.follow r.source r.target)))
        (Manager.followAll u r.source r.target) (.manager (.ok .renamed)) := by
  have done := cleared.retire_next listed parts (still y.context)
  have after : (t.retireContext y).started = [] := (t.started_retireContext y).trans quiet
  induction rest generalizing closed y t with
  | nil =>
    refine ⟨t.retireContext y, ?_, .ends ?_ rfl⟩
    · rwa [replaced, parts]
    · rw [Manager.followAll_keeps (·.started) (fun _ _ _ => rfl)]
      exact after
  | cons z rest ih =>
    have parts' : s.manager.tracked.filter (r.replaces s) = (closed ++ [y]) ++ z :: rest := by
      simpa using parts
    obtain ⟨u, all, runs⟩ := ih (closed ++ [y]) z parts' done after
      (done.retire_next listed parts' (still z.context))
      ((Session.started_retireContext _ z).trans after)
    exact ⟨u, all, .goesOn after rfl runs⟩

/-- **The call moves the file** if no context that it would replace has changes: it closes those,
and then the contexts at the source follow. -/
theorem runsTo_moved (still : ∀ c, r.still c = true) (quiet : s.started = [])
    (inUse : s.manager.disposed = false)
    (saved : ¬∃ y ∈ s.manager.tracked,
      r.replaces s y = true ∧ (s.context y.context).isUnsaved = true)
    (accepts : oracle (.store (.rename r.source r.target)) = .ok m) :
    ∃ u, r.Cleared s (s.manager.tracked.filter fun x => !r.replaces s x) (r.replaced s) u ∧
      Process.RunsTo oracle s (.manager (.called (.renameFile r.source r.target)))
        (Manager.followAll u r.source r.target) (.manager (.ok .renamed)) := by
  have looks : (Process.manager (.updating (.renameFile r.source r.target))).resume s () =
      (s, .inl (.manager (.moving r.source r.target (Manager.modelsAt s r.source)))) := by
    simp only [Process.resume, Stage.resume, Manager.update, Manager.beginMove,
      if_neg (mt any_isDisplacedUnsaved.mp saved)]
    rfl
  have takes : (Stage.moving r.source r.target (Manager.modelsAt s r.source)).resume s
      (oracle (.store (.rename r.source r.target))) =
        Manager.retireEach (s.setTracked (s.manager.tracked.filter fun x => !r.replaces s x))
          (s.manager.tracked.filter (r.replaces s)) (.follow r.source r.target) := by
    have replaces : Manager.isDisplaced s r.target (Manager.modelsAt s r.source) = r.replaces s :=
      funext isDisplaced_modelsAt
    rw [accepts]
    simp only [Stage.resume, Manager.retireWhere_eq, replaces]
  have covers : r.Covers s := fun _ _ _ => still _
  have begun := (Cleared.start covers).setTracked
    (s.manager.tracked.filter fun x => !r.replaces s x)
  cases closing : s.manager.tracked.filter (r.replaces s) with
  | nil =>
    rw [closing] at takes
    refine ⟨s.setTracked (s.manager.tracked.filter fun x => !r.replaces s x), ?_,
      .goesOn quiet (resume_called inUse) (.goesOn quiet looks (.ends ?_ ?_))⟩
    · rwa [replaced, closing]
    · rw [Manager.followAll_keeps (·.started) (fun _ _ _ => rfl)]
      exact quiet
    · simp only [Process.resume, takes]
      rfl
  | cons y rest =>
    rw [closing] at takes
    obtain ⟨u, all, runs⟩ := runsTo_closing listed oracle [] y rest closing begun still
      quiet
    refine ⟨u, all, .goesOn quiet (resume_called inUse)
      (.goesOn quiet looks (.goesOn ?_ ?_ runs))⟩
    · exact quiet
    · simp only [Process.resume, takes]
      rfl

end Moves

/-! ## 4. When the two agree -/

end Relocation

/-- **Two sessions agree** about what is in use: the same contexts, each the same but for what it
has announced, and the same widgets. -/
structure Session.AgreesWith (t u : Session) : Prop where
  tracked : t.manager.tracked = u.manager.tracked
  context : ∀ x ∈ t.manager.tracked,
    { t.context x.context with events := (u.context x.context).events } = u.context x.context
  bindings : t.manager.bindings = u.manager.bindings
  widget : ∀ b ∈ t.manager.bindings, t.widget? b.widget = u.widget? b.widget

namespace Context

/-- A context that follows a move knows of its file what it knew. -/
theorem remote_followMove (c : Context) (target : String) :
    (c.followMove target).remote = c.remote := by
  unfold followMove
  split <;> rfl

/-- What is known of a context that moves is learnt again. -/
theorem afterRename_known {c : Context} {m : Metadata} (target : String)
    (known : c.remote = some m) :
    { (c.afterRename target (.ok m)).1 with events := (c.followMove target).events } =
      c.followMove target := by
  show { c.followMove target with remote := some m } = c.followMove target
  rw [← known, ← c.remote_followMove target]

end Context

namespace Relocation

variable {r : Relocation} {s t u : Session} {m : Metadata} {x : Tracked}

/-- **A context moves undisputed**, if the store says this about its file: the manager was not
disposed, no other context is at the source, none is replaced, and it is known already what the
store says. -/
structure Undisputed (r : Relocation) (s : Session) (x : Tracked) (m : Metadata) : Prop where
  inUse : s.manager.disposed = false
  alone : ∀ y ∈ s.manager.tracked, s.isAt y r.source = true → y = x
  free : ∀ y ∈ s.manager.tracked, r.replaces s y = false
  known : (s.context x.context).remote = some m

section Agree

variable (listed : s.Listed) (hx : x ∈ s.manager.tracked) (here : s.isAt x r.source = true)
  (still : ∀ c, r.still c = true)
  (cleared : r.Cleared s (s.manager.tracked.filter fun x => !r.replaces s x) (r.replaced s) u)

include listed still cleared

/-- If none is replaced, all contexts in use follow that are at the source. -/
theorem context_of_free (free : ∀ y ∈ s.manager.tracked, r.replaces s y = false) {y : Tracked}
    (hy : y ∈ s.manager.tracked) : (Manager.followAll u r.source r.target).context y.context =
      Session.followed r.source r.target (s.context y.context) := by
  have made := listed.made y hy
  have kept : y ∈ u.manager.tracked := by
    rw [cleared.tracked]
    exact List.mem_filter.mpr ⟨hy, by rw [free y hy]; rfl⟩
  have stays : y.context ∉ r.replaced s := by
    rw [mem_replaced listed hy, free y hy]
    exact Bool.false_ne_true
  rw [Manager.context_followAll (Nat.lt_of_lt_of_le made cleared.length),
    if_pos (List.mem_map_of_mem kept), cleared.context _ made (still _), if_neg stays]

include hx here

/-- **A context that moves undisputed is the only one** for its document afterwards. -/
theorem Undisputed.one (undisputed : r.Undisputed s x m) {y : Tracked}
    (hy : y ∈ s.manager.tracked) (stands : (Manager.followAll u r.source r.target).standsFor y
      r.target (s.context x.context).modelFactory = true) : y = x := by
  by_cases there : s.isAt y r.source = true
  · exact undisputed.alone y hy there
  · -- it has not moved, so it is at the target already and would be replaced
    have stays : Session.followed r.source r.target (s.context y.context) = s.context y.context :=
      if_neg there
    rw [Session.standsFor, context_of_free listed still cleared undisputed.free hy, stays] at stands
    have gives : r.replaces s y = true := replaces_iff.mpr ⟨x, hx, here, stands⟩
    exact absurd (gives.symm.trans (undisputed.free y hy)) (by decide)

/-- **The two agree** if the context moves undisputed. -/
theorem Undisputed.agreesWith (undisputed : r.Undisputed s x m) :
    (s.setContext x.context ((s.context x.context).afterRename r.target (.ok m)).1).AgreesWith
      (Manager.followAll u r.source r.target) := by
  have none : r.replaced s = [] := by
    rw [replaced, List.filter_eq_nil_iff.mpr fun y hy => by simp [undisputed.free y hy]]
    rfl
  have kept : u.manager.bindings = s.manager.bindings := by
    rw [cleared.bindings, none]
    simp
  refine ⟨?_, fun y hy => ?_, ?_, fun b hb => ?_⟩
  · rw [Manager.manager_followAll, cleared.tracked]
    exact (List.filter_eq_self.mpr fun y hy => by simp [undisputed.free y hy]).symm
  · rw [context_of_free listed still cleared undisputed.free hy]
    by_cases same : y = x
    · subst same
      have moves : Session.followed r.source r.target (s.context y.context) =
          (s.context y.context).followMove r.target := if_pos here
      rw [Session.context_setContext _ (listed.made y hy), moves]
      exact Context.afterRename_known r.target undisputed.known
    · have other : y.context ≠ x.context := fun h =>
        same (List.inj_on_of_nodup_map listed.nodup hy hx h)
      have stays : Session.followed r.source r.target (s.context y.context) =
          s.context y.context := if_neg fun there => same (undisputed.alone y hy there)
      rw [Session.context_setContext_of_ne _ other, stays]
  · rw [Manager.manager_followAll, kept]
    rfl
  · rw [Manager.widget?_followAll, cleared.widget b hb (still _), none, if_neg List.not_mem_nil]
    cases b.widget <;> rfl

/-- **They agree only then.** -/
theorem undisputed_of_agreesWith (inUse : s.manager.disposed = false) (agrees :
      (s.setContext x.context ((s.context x.context).afterRename r.target (.ok m)).1).AgreesWith
        (Manager.followAll u r.source r.target)) : r.Undisputed s x m := by
  have free : ∀ y ∈ s.manager.tracked, r.replaces s y = false := by
    have same : s.manager.tracked = s.manager.tracked.filter fun y => !r.replaces s y := by
      have := agrees.tracked
      rwa [Manager.manager_followAll, cleared.tracked] at this
    intro y hy
    simpa using List.filter_eq_self.mp same.symm y hy
  refine ⟨inUse, fun y hy there => ?_, free, ?_⟩
  · by_contra differs
    have other : y.context ≠ x.context := fun h =>
      differs (List.inj_on_of_nodup_map listed.nodup hy hx h)
    -- its sibling has left it at the source, and the manager has led it to the target
    have path := congrArg Context.path (agrees.context y hy)
    rw [Session.context_setContext_of_ne _ other, context_of_free listed still cleared free hy,
      Session.path_followed_of_isAt there] at path
    have same : r.source = r.target :=
      (beq_iff_eq.mp (Bool.and_eq_true_iff.mp there).2).symm.trans path
    -- so the context itself is at the target, and is replaced
    have stands : s.standsFor x r.target (s.context x.context).modelFactory = true :=
      Bool.and_eq_true_iff.mpr ⟨same ▸ here, Text.sameAscii_refl _⟩
    have gives : r.replaces s x = true := replaces_iff.mpr ⟨x, hx, here, stands⟩
    exact absurd (gives.symm.trans (free x hx)) (by decide)
  · have moves : Session.followed r.source r.target (s.context x.context) =
        (s.context x.context).followMove r.target := if_pos here
    have remote := congrArg Context.remote (agrees.context x hx)
    rw [Session.context_setContext _ (listed.made x hx),
      context_of_free listed still cleared free hx, moves, Context.remote_followMove] at remote
    exact remote.symm

end Agree

end Relocation

namespace Traffic

/-- **When the two ways to move a file agree.**  In every run, take a context in use that is ready
and at the source, and a target to which the store moves the file.  Asked by the context, it is
moved, whatever else is open.  Asked by the manager, it is moved with all contexts at the source,
and what they replace is closed, unless the manager was disposed or something that would be replaced
has changes.  The two sessions agree if and only if the context moves undisputed, and then there is
no second one for its document. -/
theorem renames_agree_iff (config : Settings) (store : MemoryStore) (moves : List Move)
    {oracle : Oracle} {source target : String} {m : Metadata} {x : Tracked}
    (hx : x ∈ ((start (.create config) store).run moves).session.manager.tracked)
    (ready : (((start (.create config) store).run moves).session.context x.context).isReady = true)
    (here : (((start (.create config) store).run moves).session.context x.context).path = source)
    (accepts : oracle (.store (.rename source target)) = .ok m) :
    let s := ((start (.create config) store).run moves).session
    let r : Relocation := ⟨source, target, fun _ => true⟩
    ∃ t u result,
      Process.RunsTo oracle s (.operation x.context (.rename target)) t (.context (.ok .done)) ∧
      Process.RunsTo oracle s (.manager (.called (.renameFile source target))) u (.manager result) ∧
      (result = .error .usedAfterDisposal ↔ s.manager.disposed = true) ∧
      (result = .error (.unsavedTarget target) ↔ s.manager.disposed = false ∧
        ∃ y ∈ s.manager.tracked, r.replaces s y = true ∧ (s.context y.context).isUnsaved = true) ∧
      (source ≠ target → result = .ok .renamed → r.Moved s u) ∧
      (result = .ok .renamed ∧ t.AgreesWith u ↔ r.Undisputed s x m) ∧
      (r.Undisputed s x m → ∀ y ∈ u.manager.tracked,
        u.standsFor y target (s.context x.context).modelFactory = true → y = x) := by
  intro s r
  have listed : s.Listed := listed_run config store moves
  have quiet : s.started = [] := (sound_run config store moves).started
  have live : (s.context x.context).isDisposed = false := by
    rw [Context.isDisposed, show (s.context x.context).state = .ready from beq_iff_eq.mp ready]
    rfl
  have there : s.isAt x r.source = true :=
    Bool.and_eq_true_iff.mpr ⟨by rw [live]; rfl, beq_iff_eq.mpr here⟩
  have covers : r.Covers s := fun _ _ _ => rfl
  have byContext := Relocation.runsTo_operation (r := r) quiet live here accepts
  cases inUse : s.manager.disposed with
  | true =>
    refine ⟨_, s, _, byContext, Relocation.runsTo_disposed (r := r) quiet inUse, by simp, by simp,
      by simp, ⟨by simp, fun undisputed => ?_⟩, fun undisputed => ?_⟩ <;>
    cases inUse.symm.trans undisputed.inUse
  | false =>
    by_cases unsaved : ∃ y ∈ s.manager.tracked,
      r.replaces s y = true ∧ (s.context y.context).isUnsaved = true
    · have disputed (undisputed : r.Undisputed s x m) : False := by
        obtain ⟨y, hy, gives, -⟩ := unsaved
        exact absurd (gives.symm.trans (undisputed.free y hy)) (by decide)
      exact ⟨_, s, _, byContext, Relocation.runsTo_refused (r := r) quiet inUse unsaved, by simp,
        ⟨fun _ => ⟨rfl, unsaved⟩, fun _ => rfl⟩, by simp, ⟨by simp, fun h => (disputed h).elim⟩,
        fun h => (disputed h).elim⟩
    · obtain ⟨v, cleared, byManager⟩ := Relocation.runsTo_moved (r := r) listed (fun _ => rfl) quiet
        inUse unsaved accepts
      refine ⟨_, _, _, byContext, byManager, by simp, by simpa using unsaved,
        fun other _ => cleared.moved listed other covers,
        ⟨fun h => ?_, fun undisputed => ⟨rfl, ?_⟩⟩, fun undisputed y hy stands => ?_⟩
      · exact Relocation.undisputed_of_agreesWith listed hx there (fun _ => rfl) cleared inUse h.2
      · exact undisputed.agreesWith listed hx there (fun _ => rfl) cleared
      · have used : y ∈ s.manager.tracked := by
          rw [Manager.manager_followAll, cleared.tracked] at hy
          exact List.mem_of_mem_filter hy
        exact undisputed.one listed hx there (fun _ => rfl) cleared used stands

/-- A document is opened, and then others are. -/
def opensFirst (others : List Move) : List Move :=
  .deed (.setRegistry .sample) :: opensAlone "a" "editor" ++ others

/-- A context that is alone moves as if the manager moved it, where the store says of the file what
it has said before. -/
theorem renames_agree_iff_alone :
    let x := (start quietSession {}).run (opensFirst [])
    ⟨0, 0⟩ ∈ x.session.manager.tracked ∧
      (x.session.context 0).isReady = true ∧ (x.session.context 0).path = "a" ∧
      Oracle.obliging (.store (.rename "a" "b")) = .ok ⟨0, 0⟩ ∧
      ∃ t u,
        Process.RunsTo .obliging x.session (.operation 0 (.rename "b")) t (.context (.ok .done)) ∧
        Process.RunsTo .obliging x.session (.manager (.called (.renameFile "a" "b"))) u
          (.manager (.ok .renamed)) ∧ t.AgreesWith u := by
  intro x
  have used : (⟨0, 0⟩ : Tracked) ∈ x.session.manager.tracked := by decide +kernel
  have ready : (x.session.context 0).isReady = true := by decide +kernel
  have here : (x.session.context 0).path = "a" := by decide +kernel
  have accepts : Oracle.obliging (.store (.rename "a" "b")) = .ok ⟨0, 0⟩ := rfl
  obtain ⟨t, u, result, byContext, byManager, -, -, -, agree, -⟩ :=
    renames_agree_iff { autosave := { enabled := false } } {} (opensFirst []) (x := ⟨0, 0⟩) used
      ready here accepts
  have undisputed : (⟨"a", "b", fun _ => true⟩ : Relocation).Undisputed x.session ⟨0, 0⟩ ⟨0, 0⟩ :=
    ⟨by decide +kernel, by decide +kernel, by decide +kernel, by decide +kernel⟩
  obtain ⟨rfl, agrees⟩ := agree.mpr undisputed
  exact ⟨used, ready, here, accepts, t, u, byContext, byManager, agrees⟩

/-- The first context is asked to move its file to a path. -/
def movesByContext (target : String) : List Move :=
  .enter (.operation 0 (.rename target)) :: goes 0 1 ++ .answer 0 .obliging :: goes 0 1

/-- The manager is asked to move a file, and closes at most one context for it. -/
def movesByManager (source target : String) : List Move :=
  .call (.renameFile source target) :: goes 0 2 ++ .answer 0 .obliging :: goes 0 2

/-- **The two ways to move a file differ.**  What a context moves to the path of another stands
beside it, two live contexts for one document and one model factory, each with its widget, where the
manager closes the other; it is moved there even if changes at the target have to be saved, where
the manager refuses to move it; and a context of another model factory stays where the file has
been, where the manager takes it along. -/
theorem renames_differ :
    let x := (start quietSession {}).run (opensFirst (opensAlone "b" "editor"))
    let byContext := (x.run (movesByContext "b")).session
    let byManager := (x.run (movesByManager "a" "b")).session
    let edited := x.run [writes 1 "mine"]
    let y := (start quietSession {}).run (opensFirst (opensAlone "a" "console"))
    (x.session.contexts.map fun c => (c.path, c.modelFactory, c.isReady)) =
        [("a", "text", true), ("b", "text", true)] ∧
      (byContext.contexts.map fun c => (c.path, c.isDisposed)) = [("b", false), ("b", false)] ∧
      byContext.manager.tracked.map (·.context) = [0, 1] ∧
      byContext.manager.bindings = [⟨.issued 0, 0⟩, ⟨.issued 1, 1⟩] ∧
      (byManager.contexts.map fun c => (c.path, c.isDisposed)) = [("b", false), ("b", true)] ∧
      byManager.manager.tracked.map (·.context) = [0] ∧
      byManager.manager.bindings = [⟨.issued 0, 0⟩] ∧
      ((edited.run (movesByContext "b")).session.contexts.map fun c => (c.path, c.isUnsaved)) =
        [("b", false), ("b", true)] ∧
      ((edited.run (movesByManager "a" "b")).session.contexts.map fun c => (c.path, c.isUnsaved)) =
        [("a", false), ("b", true)] ∧
      (y.session.contexts.map fun c => (c.path, c.modelFactory, c.isReady)) =
        [("a", "text", true), ("a", "script", true)] ∧
      (y.run (movesByContext "b")).session.contexts.map (·.path) = ["b", "a"] ∧
      (y.run (movesByManager "a" "b")).session.contexts.map (·.path) = ["b", "b"] := by
  decide +kernel

end Traffic

end Folio
