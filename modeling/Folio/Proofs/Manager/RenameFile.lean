/-
# Moving a file, from end to end

A call that moves a file moves it as a whole or changes nothing (`Traffic.rename_outcome`).  When it
returns without an error, the live contexts that were at the source are at the target and otherwise
as they were; the live contexts of the same model factories that were there are closed with their
widgets; and nothing else has changed.  When it returns with an error, nothing has changed at all,
and if changes at the target were the reason, the store was not asked.

This holds from any moment at which the call waits for the contexts, whatever happens until it
returns, as long as nobody else touches the contexts at the two paths.  Only until the call has the
contexts it has to be said that no other call changes what is in use; from then on none can.

What is closed are live contexts.  One that the host has closed by itself stays in use until the
manager is asked to close it, and so a call that moves a file to its path leaves it there with its
widgets (`Traffic.leaves_disposed_at_target`).
-/
import Folio.Proofs.Manager.Relocation

namespace Folio

/-! ## 1. Before the store is asked -/

namespace Stage

/-- The call is to move the file, and waits for the contexts or has not begun. -/
def awaitsMove (source target : String) : Stage → Prop
  | .called op => op = .renameFile source target
  | .updating update => update = .renameFile source target
  | _ => False

variable {source target : String} {p q : Stage}

/-- **It was at no other stage before.** -/
theorem awaitsMove_of_goesOn (next : p.goesOn q) (awaits : q.awaitsMove source target) :
    p.awaitsMove source target := by
  cases q with
  | called op =>
    obtain rfl : op = _ := awaits
    obtain ⟨_, _, _, same⟩ := open_of_goesOn_called next
    cases same
  | updating update =>
    obtain rfl : update = _ := awaits
    rcases of_goesOn_updating next with ⟨op, rfl, enters⟩ | ⟨w, -, same⟩
    · cases op <;> simp [entry, awaitsMove] at enters ⊢
      exact ⟨enters.1.symm, enters.2.symm⟩
    · cases same
  | _ => exact absurd awaits id

theorem isStore_of_awaitsMove (awaits : p.awaitsMove source target) : p.need.isStore = false := by
  cases p with
  | called op => rfl
  | updating update => rfl
  | _ => exact absurd awaits id

end Stage

/-- The process of the event has asked the store for something. -/
def Event.callsStore : Event → Bool
  | .stepped _ p _ _ => p.need.isStore
  | .carried _ need _ => need.isStore
  | .answered _ need _ => need.isStore
  | .changed _ _ => false

/-- **A call that waits for the contexts has not asked the store.** -/
theorem Course.not_callsStore {n : Nat} {h : List Event} {o : Option Errand} (course : Course n h o)
    {source target : String} : ∀ t ∈ o, ∀ stage, t.process = .manager stage →
      stage.awaitsMove source target → ∀ e ∈ h, e.callsStore = false := by
  induction course with
  | enters fresh => exact fun _ _ _ _ _ e he => absurd he List.not_mem_nil
  | @carries h t store store' reply before done ih =>
    rintro _ ⟨⟩ stage at_stage awaits
    refine List.forall_mem_append.mpr
      ⟨ih t rfl stage at_stage awaits, List.forall_mem_singleton.mpr ?_⟩
    rw [Event.callsStore, at_stage]
    exact Stage.isStore_of_awaitsMove awaits
  | @answers h t reply before ih =>
    rintro _ ⟨⟩ stage at_stage awaits
    refine List.forall_mem_append.mpr
      ⟨ih t rfl stage at_stage awaits, List.forall_mem_singleton.mpr ?_⟩
    rw [Event.callsStore, at_stage]
    exact Stage.isStore_of_awaitsMove awaits
  | @goes h t oracle answer before ready s ih =>
    intro u hu q hq awaits
    obtain ⟨number, process, reply⟩ := t
    obtain ⟨stage, rfl⟩ :=
      Process.manager_of_resume ((Errand.of_mem_next? hu).2.1.trans (by rw [hq]))
    have earlier := Stage.awaitsMove_of_goesOn
      (Stage.goesOn_of_resume (Stage.next_of_mem hu hq)) awaits
    exact List.forall_mem_append.mpr ⟨ih _ rfl stage rfl earlier,
      List.forall_mem_singleton.mpr (Stage.isStore_of_awaitsMove earlier)⟩

/-- What a call returns by this step, if it is a call and does. -/
def Process.returns? (s : Session) (p : Process) (answer : p.need.Answer) : Option ManagerResult :=
  match (p.resume s answer).2 with
  | .inr (.manager result) => some result
  | _ => none

theorem Process.of_returns? {s : Session} {p : Process} {answer : p.need.Answer}
    {result : ManagerResult} (h : p.returns? s answer = some result) :
    (p.resume s answer).2 = .inr (.manager result) := by
  unfold returns? at h
  split at h
  · next same => rw [same, Option.some.inj h]
  · cases h

/-- **Only a call that waits for the contexts is refused** because of changes at the target. -/
theorem Relocation.Stands.awaitsMove {r : Relocation} {s t : Session} {kept : List Tracked}
    {closed : List ContextId} {stage : Stage} (stands : r.Stands s kept closed stage)
    {answer : stage.need.Answer} {path : String}
    (refused : (stage.resume t answer).2 = .inr (.error (.unsavedTarget path))) :
    stage.awaitsMove r.source r.target := by
  have notClosing {s : Session} {closing : List Tracked} :
      (Manager.retireEach s closing (.follow r.source r.target)).2 ≠
        .inr (.error (.unsavedTarget path)) := by
    cases closing <;> exact nofun
  cases stands with
  | called => rfl
  | updating => rfl
  | moving =>
    cases answer with
    | error cause => cases refused
    | ok m =>
      simp only [Stage.resume, Manager.retireWhere_eq] at refused
      exact (notClosing refused).elim
  | closing parts => exact (notClosing refused).elim

namespace Traffic

variable {r : Relocation} {n : Nat}

/-! ## 2. Runs -/

/-- The process of the number has the contexts exclusively. -/
def owns (x : Traffic) (n : Nat) : Bool :=
  x.errands.any fun t => t.number == n && t.process.owned?.isSome

/-- **The move is one of the call, or others leave be** what stands still; and while the call waits
for the contexts, no other call changes what is in use. -/
def sparesCall (r : Relocation) (n : Nat) (x : Traffic) : Move → Bool
  | .deed d => d.spares r x.session
  | .go i _ => x.errands[i]?.all fun t =>
      t.number == n ||
        (t.process.spares r x.session && (!t.process.alters || x.owns n))
  | _ => true

/-- **Only the call goes on that has the contexts**; all others are bystanders. -/
theorem alters_of_owns {fits : Process → Prop} {Inv : Session → Option Stage → Prop} {x : Traffic}
    (orderly : Ensemble.Orderly fits Inv x.ensemble) {before after : List Errand} {t : Errand}
    (split : x.errands = before ++ t :: after)
    (free : Ensemble.permits ((before ++ after).map (·.process)) t.process.need = true)
    (owns : x.owns n = true) (other : t.number ≠ n) : t.process.alters = false := by
  rw [Bool.eq_false_iff]
  intro alters
  obtain ⟨u, hu, owner⟩ := List.any_eq_true.mp owns
  simp only [Bool.and_eq_true, beq_iff_eq] at owner
  have among : u ∈ before ++ after := by
    rcases List.mem_cons.mp ((perm_of_split split).mem_iff.mp hu) with rfl | among
    · exact absurd owner.1 other
    · exact among
  have front := orderly_split orderly split
  obtain ⟨number, process, reply⟩ := t
  cases process with
  | manager stage =>
    obtain ⟨nobody, -⟩ := front.alone_of_alters alters free
    have none_owned := List.filterMap_eq_nil_iff.mp nobody u.process (List.mem_map_of_mem among)
    rw [none_owned] at owner
    cases owner.2
  | _ => cases alters

/-- **A call is under way** that moves a file since a session, and has made of it what is to be made
by then. -/
structure Performs (x : Traffic) (r : Relocation) (n : Nat) (s : Session) : Prop where
  known : n < x.next
  stands : ∀ t ∈ x.errands, t.number = n → ∃ stage kept closed,
    t.process = .manager stage ∧ r.Stands s kept closed stage ∧ r.Cleared s kept closed x.session

theorem le_of_mem_entering {next : Nat} {works : List Background} {u : Errand}
    (hu : u ∈ entering next works) : next ≤ u.number := by
  obtain ⟨j, hj, rfl⟩ := List.mem_mapIdx.mp hu
  exact Nat.le_add_right next j

namespace Performs

variable {s : Session} {x y : Traffic}

/-- **A move beside the call**: what stands still is left alone, and the call is where it was. -/
theorem aside (h : x.Performs r n s) (listed : s.Listed) (next : x.next ≤ y.next)
    (leaves : r.LeavesStill x.session y.session)
    (there : ∀ u ∈ y.errands, u.number = n →
      ∃ t ∈ x.errands, t.number = n ∧ t.process = u.process) : y.Performs r n s where
  known := Nat.lt_of_lt_of_le h.known next
  stands u hu number := by
    obtain ⟨t, ht, same, process⟩ := there u hu number
    obtain ⟨stage, kept, closed, at_stage, stands, cleared⟩ := h.stands t ht same
    exact ⟨stage, kept, closed, process.symm.trans at_stage, stands, cleared.leaves listed leaves⟩

/-- Background work that enters is no part of the call. -/
theorem there_of_absorb (h : x.Performs r n s) {session : Session} {errands : List Errand}
    (there : ∀ u ∈ errands, u.number = n → ∃ t ∈ x.errands, t.number = n ∧ t.process = u.process) :
    ∀ u ∈ (x.absorb session errands).errands, u.number = n →
      ∃ t ∈ x.errands, t.number = n ∧ t.process = u.process := by
  intro u hu number
  rcases List.mem_append.mp hu with old | new
  · exact there u old number
  · have later := le_of_mem_entering new
    exact absurd h.known (by omega)

/-- The step of another process that leaves be what stands still. -/
theorem passes (h : x.Performs r n s) (listed : s.Listed) {before after : List Errand} {t : Errand}
    {answer : t.process.need.Answer} (split : x.errands = before ++ t :: after)
    (other : t.number ≠ n)
    (leaves : r.LeavesStill x.session (t.process.resume x.session answer).1) :
    (x.resumed (before ++ after) t answer).Performs r n s := by
  refine h.aside listed (Nat.le_add_right _ _)
    (leaves.followed_by ⟨.of_eq rfl rfl rfl rfl rfl rfl, rfl⟩) fun u hu number => ?_
  rcases List.mem_append.mp hu with hu | new
  · rcases List.mem_append.mp hu with old | led
    · have here := (perm_of_split split).mem_iff.mpr (List.mem_cons_of_mem t old)
      exact ⟨u, here, number, rfl⟩
    · exact absurd ((Errand.of_mem_next? (Option.mem_toList.mp led)).1.symm.trans number) other
  · have later := le_of_mem_entering new
    exact absurd h.known (Nat.not_lt.mpr (number ▸ later))

/-- **A step of the call itself.** -/
theorem goes (h : x.Performs r n s) (listed : s.Listed) (covers : r.Covers s)
    (other : r.source ≠ r.target) (coherent : x.IsCoherent) {others : List Errand} {t : Errand}
    {answer : t.process.need.Answer} (all : x.errands.Perm (t :: others)) (number : t.number = n) :
    (x.resumed others t answer).Performs r n s where
  known := Nat.lt_of_lt_of_le h.known (Nat.le_add_right _ _)
  stands u hu same := by
    have led := coherent.led all hu (same.trans number.symm)
    obtain ⟨stage, kept, closed, at_stage, stands, cleared⟩ :=
      h.stands t (all.mem_iff.mpr List.mem_cons_self) number
    obtain ⟨m, process, reply⟩ := t
    obtain rfl : process = _ := at_stage
    obtain ⟨q, hq⟩ := Process.exists_stage_of_resume led
    rw [hq] at led
    have goes := stands.goes listed covers other cleared answer
    have session : (x.resumed others ⟨m, .manager stage, reply⟩ answer).session =
        { (stage.resume x.session answer).1 with started := [] } := by
      rw [← Ensemble.session_manager]
      rfl
    have next := Process.resume_manager_inl.mp led
    rw [session]
    generalize stage.resume x.session answer = step at goes next ⊢
    cases goes with
    | on stands cleared =>
      cases next
      exact ⟨_, _, _, hq, stands, cleared.leaves listed (.of_eq rfl rfl rfl rfl)⟩
    | ends outcome => cases next

/-- **Every move** that is one of the call or leaves be what stands still. -/
theorem step (h : x.Performs r n s) (listed : s.Listed) (covers : r.Covers s)
    (other : r.source ≠ r.target) (coherent : x.IsCoherent)
    {fits : Process → Prop} {Inv : Session → Option Stage → Prop}
    (orderly : Ensemble.Orderly fits Inv x.ensemble) {m : Move}
    (spares : sparesCall r n x m = true) : (x.step m).Performs r n s := by
  have replied {before after : List Errand} {t : Errand} {reply : Option t.process.need.Answer}
      (split : x.errands = before ++ t :: after) :
      ∀ u ∈ before ++ ⟨t.number, t.process, reply⟩ :: after, u.number = n →
        ∃ t ∈ x.errands, t.number = n ∧ t.process = u.process := by
    intro u hu number
    obtain ⟨v, hv, same, process⟩ := mem_replied hu
    exact ⟨v, split ▸ hv, same.trans number, process⟩
  cases m with
  | deed d =>
    refine h.aside listed (Nat.le_add_right _ _)
      ((Relocation.LeavesStill.deed x.session d spares).followed_by
        ⟨.of_eq rfl rfl rfl rfl rfl rfl, rfl⟩) ?_
    exact h.there_of_absorb fun u hu number => ⟨u, hu, number, rfl⟩
  | enter p =>
    simp only [Traffic.step]
    split
    · refine h.aside listed (Nat.le_succ _) (.refl _) fun u hu number => ?_
      rcases List.mem_append.mp hu with old | new
      · exact ⟨u, old, number, rfl⟩
      · rw [List.mem_singleton.mp new] at number
        exact absurd h.known (Nat.not_lt.mpr (Nat.le_of_eq number))
    · exact h
  | others store =>
    exact h.aside listed (Nat.le_refl _) (.refl _) fun u hu number => ⟨u, hu, number, rfl⟩
  | carryOut i =>
    rcases x.carryOut_cases i with same | ⟨before, after, t, store, reply, -, split, -, -, same⟩
    · rwa [Traffic.step, same]
    · rw [Traffic.step, same]
      exact h.aside listed (Nat.le_refl _) (.refl _) (replied split)
  | answer i oracle =>
    obtain ⟨e, does⟩ := x.step_does (.answer i oracle)
    generalize x.step (.answer i oracle) = y at does ⊢
    cases does with
    | nothing => exact h
    | answers _ _ split => exact h.aside listed (Nat.le_refl _) (.refl _) (replied split)
  | go i oracle =>
    rcases x.go_cases i oracle with same | ⟨before, after, t, answer, found, split, free, -, same⟩
    · rwa [Traffic.step, same]
    · rw [Traffic.step, same]
      by_cases number : t.number = n
      · exact h.goes listed covers other coherent (perm_of_split split) number
      · have ok : t.process.spares r x.session = true ∧
            (t.process.alters = false ∨ x.owns n = true) := by
          simpa [sparesCall, found, number] using spares
        refine h.passes listed split number (.process x.session t.process answer ok.1 ?_)
        exact ok.2.elim id fun owns => alters_of_owns orderly split free owns number

end Performs

/-- **A call to move the file waits** for the contexts, or has not begun. -/
def AwaitsMove (x : Traffic) (r : Relocation) (n : Nat) : Prop :=
  ∃ t ∈ x.errands, t.number = n ∧
    ∃ stage, t.process = .manager stage ∧ stage.awaitsMove r.source r.target

/-- When it is called, it waits. -/
theorem awaitsMove_of_call (r : Relocation) (x : Traffic) (moves : List Move) :
    (x.run (moves ++ [.call (.renameFile r.source r.target)])).AwaitsMove r (x.run moves).next := by
  rw [run_concat]
  exact ⟨_, List.mem_append_right _ (List.mem_singleton_self _), rfl, _, rfl, rfl⟩

section Run

variable {config : Settings} {store : MemoryStore} {before during : List Move}

theorem performs_of_awaits (covers : r.Covers ((start (.create config) store).run before).session)
    (awaits : ((start (.create config) store).run before).AwaitsMove r n) :
    ((start (.create config) store).run before).Performs r n
      ((start (.create config) store).run before).session := by
  obtain ⟨t, ht, number, stage, at_stage, awaits⟩ := awaits
  have coherent := coherent_run (.create config) store before
  refine ⟨number ▸ coherent.below t ht, fun u hu same => ?_⟩
  obtain rfl : u = t := List.inj_on_of_nodup_map coherent.nodup hu ht (same.trans number.symm)
  cases stage with
  | called op =>
    obtain rfl : op = _ := awaits
    exact ⟨_, _, _, at_stage, .called, .start covers⟩
  | updating update =>
    obtain rfl : update = _ := awaits
    exact ⟨_, _, _, at_stage, .updating, .start covers⟩
  | _ => exact absurd awaits id

/-- **In every run**, from where the call waits. -/
theorem performs_run (other : r.source ≠ r.target)
    (covers : r.Covers ((start (.create config) store).run before).session)
    (awaits : ((start (.create config) store).run before).AwaitsMove r n)
    (spares : ((start (.create config) store).run before).throughout (sparesCall r n) during =
      true) :
    ((start (.create config) store).run (before ++ during)).Performs r n
      ((start (.create config) store).run before).session := by
  induction during using List.reverseRecOn with
  | nil =>
    rw [List.append_nil]
    exact performs_of_awaits covers awaits
  | append_singleton moves m ih =>
    rw [throughout_concat, Bool.and_eq_true, ← run_append] at spares
    rw [← List.append_assoc, run_concat]
    exact (ih spares.1).step (listed_run config store before) covers other
      (coherent_run _ store _) (twinBooks_run config store _) spares.2

/-- **A call that moves a file moves it as a whole or changes nothing**, from any moment at which it
waits for the contexts, whatever others do meanwhile that leaves be what stands still, and whatever
the store replies.  If it is refused because of changes at the target, it has not asked the
store. -/
theorem rename_outcome (config : Settings) (store : MemoryStore) (before during : List Move)
    (other : r.source ≠ r.target)
    (awaits : ((start (.create config) store).run before).AwaitsMove r n)
    (covers : r.Covers ((start (.create config) store).run before).session)
    (spares : ((start (.create config) store).run before).throughout (sparesCall r n) during =
      true)
    {t : Errand} (ht : t ∈ ((start (.create config) store).run (before ++ during)).errands)
    (number : t.number = n) (answer : t.process.need.Answer) {result : ManagerResult}
    (returns : t.process.returns?
      ((start (.create config) store).run (before ++ during)).session answer = some result) :
    r.Outcome ((start (.create config) store).run before).session
        (t.process.resume ((start (.create config) store).run (before ++ during)).session answer).1
        result ∧
      (result = .error (.unsavedTarget r.target) → t.process.need.isStore = false ∧
        ∀ e ∈ own n ((start (.create config) store).run (before ++ during)).log,
          e.callsStore = false) := by
  obtain ⟨stage, kept, closed, at_stage, stands, cleared⟩ :=
    (performs_run other covers awaits spares).stands t ht number
  have listed := listed_run config store before
  have coherent := coherent_run (.create config) store (before ++ during)
  have course := coherent.underway t ht
  rw [number] at course
  obtain ⟨m, process, reply⟩ := t
  obtain rfl : process = _ := at_stage
  have ended := Process.resume_manager_inr.mp (Process.of_returns? returns)
  refine ⟨?_, ?_⟩
  · have goes := stands.goes listed covers other cleared answer
    rw [Ensemble.session_manager]
    generalize stage.resume _ answer = step at goes ended ⊢
    cases goes with
    | on stands cleared => cases ended
    | ends outcome =>
      cases ended
      exact outcome
  · rintro rfl
    have waits := stands.awaitsMove ended
    exact ⟨Stage.isStore_of_awaitsMove waits, course.not_callsStore _ rfl stage rfl waits⟩

end Run

/-- A document is opened where nothing runs, and loaded. -/
def opensAlone (path factory : String) : List Move :=
  .call (.open path factory none) :: goes 0 4 ++ .answer 0 .obliging :: goes 0 1

/-- One document is opened at the source of a move and two are at its target, one of which is of the
same model factory. -/
def opensAtBoth : List Move :=
  .deed (.setRegistry .sample) :: opensAlone "a" "editor" ++ opensAlone "b" "editor" ++
    opensAlone "b" "console"

/-- The call goes on until one context is left to be closed. -/
def movesFile : List Move := goes 0 2 ++ .answer 0 .obliging :: goes 0 1

/-- The first context moves, the second is closed with its widget, and the third stays. -/
theorem rename_outcome_opensAtBoth :
    let r : Relocation := ⟨"a", "b", fun _ => true⟩
    let x := (start quietSession {}).run (opensAtBoth ++ [.call (.renameFile "a" "b")])
    let y := (start quietSession {}).run (opensAtBoth ++ [.call (.renameFile "a" "b")] ++ movesFile)
    x.AwaitsMove r 6 ∧ r.Covers x.session ∧ x.throughout (sparesCall r 6) movesFile = true ∧
      ∃ t ∈ y.errands, t.number = 6 ∧
        t.process.returns? y.session (Oracle.obliging _) = some (.ok .renamed) ∧
        let last := (t.process.resume y.session (Oracle.obliging _)).1
        (last.contexts.map fun c => (c.path, c.isDisposed)) =
          [("b", false), ("b", true), ("b", false)] ∧
        last.manager.tracked.map (·.context) = [0, 2] ∧
        last.widgets.map (·.disposed) = [false, true, false] ∧
        r.Moved x.session last := by
  intro r x y
  have next : ((start quietSession {}).run opensAtBoth).next = 6 := by decide +kernel
  have awaits := awaitsMove_of_call r (start quietSession {}) opensAtBoth
  rw [next] at awaits
  have covers : r.Covers x.session := fun _ _ _ => rfl
  have spares : x.throughout (sparesCall r 6) movesFile = true := by decide +kernel
  obtain ⟨t, ht, number, returns, contexts, tracked, widgets⟩ : ∃ t ∈ y.errands, t.number = 6 ∧
      t.process.returns? y.session (Oracle.obliging _) = some (.ok .renamed) ∧
      let last := (t.process.resume y.session (Oracle.obliging _)).1
      (last.contexts.map fun c => (c.path, c.isDisposed)) =
        [("b", false), ("b", true), ("b", false)] ∧
      last.manager.tracked.map (·.context) = [0, 2] ∧
      last.widgets.map (·.disposed) = [false, true, false] := by decide +kernel
  have ends := rename_outcome { autosave := { enabled := false } } {} _ movesFile
    (by decide) awaits covers spares ht number (Oracle.obliging _) returns
  refine ⟨awaits, covers, spares, t, ht, number, returns, contexts, tracked, widgets, ?_⟩
  obtain ⟨⟨moved⟩, -⟩ := ends
  assumption

/-- **A closed context at the target stays**, and so does its widget: the host has closed it by
itself, and a context of the same model factory comes to its path. -/
theorem leaves_disposed_at_target :
    let x := (start quietSession {}).run (.deed (.setRegistry .sample) :: opensAlone "a" "editor" ++
      opensAlone "b" "editor" ++ [.deed (.disposeContext 1)])
    let y := x.run (.call (.renameFile "a" "b") :: movesFile)
    x.errands.length = 0 ∧ x.session.manager.tracked.map (·.context) = [0, 1] ∧
      (x.session.contexts.map fun c => (c.path, c.modelFactory, c.isDisposed)) =
        [("a", "text", false), ("b", "text", true)] ∧
      y.errands.length = 0 ∧
      (y.log.filterMap Event.returned?).getLast? = some .renamed ∧
      (y.session.context 0).path = "b" ∧ (y.session.context 0).isDisposed = false ∧
      y.session.manager.tracked.map (·.context) = [0, 1] ∧
      y.session.manager.bindings = [⟨.issued 0, 0⟩, ⟨.issued 1, 1⟩] ∧
      y.session.widgets.map (·.disposed) = [false, false] := by
  decide +kernel

end Traffic

end Folio
