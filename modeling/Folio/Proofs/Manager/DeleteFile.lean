/-
# A delete that fails

A call that deletes a file closes what is open for it, and asks the store when that is done.  So the
documents are closed, whatever the store replies (`Traffic.failed_delete_closes`).  When the call
fails, what it has found in use at the path has left for good: the contexts are dead, out of use and
shown by no widget, and their widgets are disposed.  It has changed no model and no flag, and it has
left alone every other context, also one that was opened for the path in the meantime.

Only on a disposed manager the call fails before it has done anything.
-/
import Folio.Proofs.Manager.Departure
import Folio.Proofs.Manager.RenameFile

namespace Folio

/-- To close a context leaves its model. -/
theorem Context.model_dispose (c : Context) : c.dispose.model = c.model := by
  unfold dispose
  split <;> rfl

namespace Session

/-! ## 1. What is closed, and what is left alone -/

/-- **What is open for a path**: the contexts in use that are at it. -/
def openAt (s : Session) (path : String) : List Tracked :=
  s.manager.tracked.filter fun t => (s.context t.context).path == path

/-- **All but these contexts are spared**, with their places in use and their widgets; and so is
every model. -/
structure SparesBut (s : Session) (closed : List ContextId) (t : Session) : Prop where
  model : ∀ c, (t.context c).model = (s.context c).model
  context : ∀ c ∉ closed, t.context c = s.context c
  tracked : ∀ u ∈ s.manager.tracked, u.context ∉ closed → u ∈ t.manager.tracked
  shown : ∀ b ∈ s.manager.bindings, b.context ∉ closed →
    b ∈ t.manager.bindings ∧ t.widget? b.widget = s.widget? b.widget

namespace SparesBut

variable {s : Session} {closed : List ContextId}

theorem refl (s : Session) (closed : List ContextId) : s.SparesBut closed s :=
  ⟨fun _ => rfl, fun _ _ => rfl, fun _ hu _ => hu, fun _ hb _ => ⟨hb, rfl⟩⟩

/-- Contexts are taken out of use. -/
theorem setTracked {keep : List Tracked}
    (kept : ∀ u ∈ s.manager.tracked, u.context ∉ closed → u ∈ keep) :
    s.SparesBut closed (s.setTracked keep) :=
  ⟨fun _ => rfl, fun _ _ => rfl, kept, fun b hb _ => ⟨hb, by cases b.widget <;> rfl⟩⟩

/-- **A context is closed** that is one of these. -/
theorem retireContext (listed : s.Listed) {x : Tracked} (made : x.context < s.contexts.length)
    (hx : x.context ∈ closed) : s.SparesBut closed (s.retireContext x) where
  model c := by
    by_cases this : c = x.context
    · rw [this, context_retireContext made, Context.model_dispose]
    · rw [context_retireContext_of_ne this]
  context c hc := context_retireContext_of_ne fun this => hc (this ▸ hx)
  tracked u hu _ := by rwa [manager_retireContext]
  shown b hb hc := by
    have other : b.context ≠ x.context := fun this => hc (this ▸ hx)
    refine ⟨?_, ?_⟩
    · rw [manager_retireContext]
      exact List.mem_filter.mpr ⟨hb, bne_iff_ne.mpr other⟩
    · rw [widget?_retireContext, if_neg]
      intro there
      obtain ⟨d, hd, same⟩ := List.mem_map.mp there
      obtain ⟨hd, this⟩ := List.mem_filter.mp hd
      -- a widget is in use once, so it shows no other context
      obtain rfl := List.inj_on_of_nodup_map listed.once hd hb same
      exact other (beq_iff_eq.mp this)

end SparesBut

/-- **How much of what was open for a path is closed**, since a session: all but what is left to
close, which is shown as it was. -/
structure ClosedBut (s : Session) (path : String) (left : List Tracked) (t : Session) : Prop where
  among : left ⊆ s.openAt path
  shown : ∀ u ∈ left, ∀ b ∈ s.manager.bindings, b.context = u.context → b ∈ t.manager.bindings
  closed : ∀ u ∈ s.openAt path, u ∉ left → t.Left u ∧
    ∀ b ∈ s.manager.bindings, b.context = u.context → t.Gone b.widget

namespace ClosedBut

variable {s t u : Session} {path : String} {left : List Tracked}

/-- What has left and what is disposed stays so, and the widgets of the others stay in use. -/
theorem mono (h : s.ClosedBut path left t) (lefts : ∀ v, t.Left v → u.Left v)
    (gone : ∀ w, t.Gone w → u.Gone w)
    (shown : ∀ v ∈ left, ∀ b ∈ t.manager.bindings, b.context = v.context → b ∈ u.manager.bindings) :
    s.ClosedBut path left u where
  among := h.among
  shown v hv b hb shows := shown v hv b (h.shown v hv b hb shows) shows
  closed v hv done :=
    let ⟨left, widgets⟩ := h.closed v hv done
    ⟨lefts v left, fun b hb shows => gone _ (widgets b hb shows)⟩

/-- **The next context is closed.** -/
theorem close {first : Tracked} {rest : List Tracked} (h : s.ClosedBut path (first :: rest) t)
    (roster : t.Roster (first :: rest) t.manager.bindings) (listed : t.Listed) :
    s.ClosedBut path rest (t.retireContext first) := by
  obtain ⟨-, leaving, apart⟩ := List.nodup_append.mp (List.map_append ▸ roster.nodup)
  have others : ∀ v ∈ rest, v.context ≠ first.context := fun v hv same =>
    (List.nodup_cons.mp leaving).1 (List.mem_map.mpr ⟨v, hv, same⟩)
  have unused : ∀ v ∈ t.manager.tracked, v.context ≠ first.context := fun v hv =>
    apart v.context (List.mem_map_of_mem hv) first.context List.mem_cons_self
  refine ⟨fun v hv => h.among (List.mem_cons_of_mem _ hv), fun v hv b hb shows => ?_,
    fun v hv done => ?_⟩
  · rw [manager_retireContext]
    refine List.mem_filter.mpr ⟨h.shown v (List.mem_cons_of_mem _ hv) b hb shows, ?_⟩
    rw [shows]
    exact bne_iff_ne.mpr (others v hv)
  · by_cases this : v = first
    · subst this
      have made := roster.made v (List.mem_append_right _ List.mem_cons_self)
      refine ⟨left_retireContext made unused, fun b hb shows => ?_⟩
      have bound := h.shown v List.mem_cons_self b hb shows
      exact gone_retireContext (listed.found b bound) bound shows
    · have before : v ∉ first :: rest := by
        rw [List.mem_cons, not_or]
        exact ⟨this, done⟩
      obtain ⟨left, widgets⟩ := h.closed v hv before
      exact ⟨left.retireContext first, fun b hb shows => (widgets b hb shows).retireContext first⟩

end ClosedBut

end Session

/-! ## 2. The stages of the call -/

namespace Stage

/-- The call is to delete the file, and waits for the contexts or has not begun. -/
def awaitsDelete (path : String) : Stage → Prop
  | .called op => op = .deleteFile path
  | .updating update => update = .closeFile path true
  | _ => False

/-- **The call has the contexts**, and closes these; then it asks the store. -/
inductive Deletes (path : String) : Stage → List Tracked → Prop
  | closing (first : Tracked) (rest : List Tracked) :
      Deletes path (.closing first rest (.delete path)) (first :: rest)
  | deleting : Deletes path (.deleting path) []

variable {path : String} {p q : Stage} {left : List Tracked}

/-- **Before it waits for the contexts**, the call has only been called. -/
theorem of_goesOn_awaitsDelete (next : p.goesOn q) (awaits : q.awaitsDelete path) :
    p = .called (.deleteFile path) ∧ q = .updating (.closeFile path true) := by
  cases q with
  | called op =>
    obtain rfl : op = _ := awaits
    obtain ⟨_, _, _, same⟩ := open_of_goesOn_called next
    cases same
  | updating update =>
    obtain rfl : update = _ := awaits
    rcases of_goesOn_updating next with ⟨op, rfl, enters⟩ | ⟨w, -, same⟩
    · cases op <;> simp [entry] at enters ⊢
      exact enters.symm
    · cases same
  | _ => exact absurd awaits id

/-- **It has got the contexts before**, or this is when it gets them. -/
theorem of_goesOn_deletes (next : p.goesOn q) (deletes : q.Deletes path left) :
    p = .updating (.closeFile path true) ∨ ∃ more, p.Deletes path more := by
  cases p with
  | called op => cases deletes <;> cases op <;> simp [goesOn, entry] at next
  | updating update =>
    cases update with
    | closeFile place delete =>
      cases delete with
      | true =>
        cases deletes <;> cases next <;> exact .inl rfl
      | false => cases deletes <;> cases next
    | _ => cases deletes <;> simp [goesOn, closesFor] at next
  | closing first rest after =>
    cases deletes <;> cases next <;> exact .inr ⟨_, .closing first rest⟩
  | finding place widget model otherwise => cases deletes <;> simp [goesOn, opens] at next
  | searching c widget otherwise => cases deletes <;> simp [goesOn, opens] at next
  | unbinding w confirmed => cases deletes <;> simp [goesOn] at next
  | confirming w => cases deletes <;> cases next
  | moving source target models => cases deletes <;> cases next
  | _ => exact absurd next id

end Stage

/-- Contexts are closed, one after the other, and then the file is to be deleted. -/
theorem Manager.retireEach_delete (s : Session) (closing : List Tracked) (path : String) :
    ∃ q, retireEach s closing (.delete path) = (s, .inl q) ∧ q.Deletes path closing := by
  cases closing with
  | nil => exact ⟨_, rfl, .deleting⟩
  | cons first rest => exact ⟨_, rfl, .closing first rest⟩

/-- **What a step of the call does**, once it has got the contexts: it spares all but what was open,
and goes on, if it does, with one context less to close. -/
structure Manager.ClosesOn (path : String) (s t : Session) (step : Step) : Prop where
  spares : t.SparesBut ((s.openAt path).map (·.context)) step.1
  next : ∀ q, step.2 = .inl q → ∃ left, q.Deletes path left ∧ s.ClosedBut path left step.1

namespace Session

variable {s t : Session} {path : String}

/-- **When it gets the contexts**, it takes out of use what is open. -/
theorem closesOn_update (s : Session) (path : String) :
    Manager.ClosesOn path s s (Manager.update s (.closeFile path true)) := by
  have kept : ∀ u ∈ s.manager.tracked, u.context ∉ (s.openAt path).map (·.context) →
      u ∈ s.manager.tracked.filter fun u => !((s.context u.context).path == path) := by
    refine fun u hu elsewhere => List.mem_filter.mpr ⟨hu, ?_⟩
    by_contra here
    refine elsewhere (List.mem_map_of_mem (List.mem_filter.mpr ⟨hu, ?_⟩))
    simpa using here
  simp only [Manager.update, if_true, Manager.retireWhere_eq]
  obtain ⟨q, same, deletes⟩ := Manager.retireEach_delete (s.setTracked (s.manager.tracked.filter
    fun u => !((s.context u.context).path == path))) (s.openAt path) path
  rw [show s.manager.tracked.filter (fun u => (s.context u.context).path == path) = s.openAt path
    from rfl, same]
  refine ⟨.setTracked kept, fun q' next => ?_⟩
  cases next
  exact ⟨_, deletes, List.Subset.refl _, fun _ _ b hb _ => hb, fun _ hu done => absurd hu done⟩

/-- **From then on** it closes one context after the other, and asks the store. -/
theorem ClosedBut.closesOn {stage : Stage} {left : List Tracked} (h : s.ClosedBut path left t)
    (deletes : stage.Deletes path left)
    (roster : stage.owns = true → t.Roster stage.leaving (t.shown stage.arriving))
    (listed : t.Listed) (answer : stage.need.Answer) :
    Manager.ClosesOn path s t (stage.resume t answer) := by
  cases deletes with
  | closing first rest =>
    obtain ⟨q, same, deletes⟩ := Manager.retireEach_delete (t.retireContext first) rest path
    have roster : t.Roster (first :: rest) (t.manager.bindings ++ []) := roster rfl
    rw [List.append_nil] at roster
    have made := roster.made first (List.mem_append_right _ List.mem_cons_self)
    rw [Stage.resume, same]
    refine ⟨.retireContext listed made.context
      (List.mem_map_of_mem (h.among List.mem_cons_self)), fun q' next => ?_⟩
    cases next
    exact ⟨rest, deletes, h.close roster listed⟩
  | deleting => cases answer <;> exact ⟨.refl t _, fun _ next => absurd next Sum.inr_ne_inl⟩

end Session

namespace Course

variable {n : Nat} {h : List Event} {o : Option Errand} {path : String}

/-- **A call that waits for the contexts has done nothing** but to be called, and one that has not
begun not even that. -/
theorem called_of_awaitsDelete (course : Course n h o) : ∀ t ∈ o, ∀ stage,
    t.process = .manager stage → stage.awaitsDelete path → ∀ q given s,
      .stepped n q given s ∈ h →
        q = .manager (.called (.deleteFile path)) ∧ stage = .updating (.closeFile path true) := by
  induction course with
  | enters fresh => exact fun _ _ _ _ _ _ _ _ there => absurd there List.not_mem_nil
  | carries before done ih =>
    rintro _ ⟨⟩ stage conducts awaits q given s there
    exact ih _ rfl stage conducts awaits q given s (by simpa using there)
  | answers reply before ih =>
    rintro _ ⟨⟩ stage conducts awaits q given s there
    exact ih _ rfl stage conducts awaits q given s (by simpa using there)
  | @goes h t oracle answer before ready s ih =>
    intro u hu stage conducts awaits q given s' there
    obtain ⟨number, process, reply⟩ := t
    obtain ⟨first, rfl⟩ :=
      Process.manager_of_resume ((Errand.of_mem_next? hu).2.1.trans (by rw [conducts]))
    have next := Stage.goesOn_of_resume (Stage.next_of_mem hu conducts)
    obtain ⟨rfl, rfl⟩ := Stage.of_goesOn_awaitsDelete next awaits
    refine ⟨?_, rfl⟩
    rcases List.mem_append.mp there with earlier | last
    · exact (ih _ rfl _ rfl rfl q given s' earlier).1
    · exact (Event.stepped.inj (List.mem_singleton.mp last)).2.1

/-- **A call that closes for a delete has got the contexts**, in this same call. -/
theorem updated_of_deletes (course : Course n h o) : ∀ t ∈ o, ∀ stage left,
    t.process = .manager stage → stage.Deletes path left →
      ∃ s, .stepped n (.manager (.updating (.closeFile path true))) () s ∈ h := by
  induction course with
  | enters fresh =>
    rintro _ ⟨⟩ stage left rfl deletes
    cases deletes <;> cases fresh
  | carries before done ih =>
    rintro _ ⟨⟩ stage left conducts deletes
    obtain ⟨s, there⟩ := ih _ rfl stage left conducts deletes
    exact ⟨s, List.mem_append_left _ there⟩
  | answers reply before ih =>
    rintro _ ⟨⟩ stage left conducts deletes
    obtain ⟨s, there⟩ := ih _ rfl stage left conducts deletes
    exact ⟨s, List.mem_append_left _ there⟩
  | @goes h t oracle answer before ready s ih =>
    intro u hu stage left conducts deletes
    obtain ⟨number, process, reply⟩ := t
    obtain ⟨first, rfl⟩ :=
      Process.manager_of_resume ((Errand.of_mem_next? hu).2.1.trans (by rw [conducts]))
    have next := Stage.goesOn_of_resume (Stage.next_of_mem hu conducts)
    rcases Stage.of_goesOn_deletes next deletes with rfl | ⟨more, earlier⟩
    · exact ⟨s, List.mem_append_right _ List.mem_cons_self⟩
    · obtain ⟨s', there⟩ := ih _ rfl first more rfl earlier
      exact ⟨s', List.mem_append_left _ there⟩

end Course

namespace Traffic

/-! ## 3. Runs -/

/-- **A move passes the process of a number by**: it is where it was, it has taken no step, and if
it has the contexts, the widgets in use are as they were. -/
structure PassesBy (n : Nat) (x y : Traffic) : Prop where
  next : x.next ≤ y.next
  there : ∀ u ∈ y.errands, u.number = n → ∃ t ∈ x.errands, t.number = n ∧ t.process = u.process
  log : ∀ q given s, .stepped n q given s ∈ y.log → .stepped n q given s ∈ x.log
  bindings : x.owns n = true → y.session.manager.bindings = x.session.manager.bindings

/-- **A move passes a process by, or is a step of it.** -/
theorem passes_or_goes {x : Traffic} {n : Nat} (known : n < x.next) {fits : Process → Prop}
    {Inv : Session → Option Stage → Prop} (orderly : Ensemble.Orderly fits Inv x.ensemble)
    (m : Move) : PassesBy n x (x.step m) ∨ ∃ before after t answer,
      x.errands = before ++ t :: after ∧ t.number = n ∧
        x.step m = x.resumed (before ++ after) t answer := by
  obtain ⟨e, does⟩ := x.step_does m
  have log := does.log
  generalize x.step m = y at does log ⊢
  -- what enters has a number that was not given before
  have entered {next : Nat} {works : List Background} {u : Errand} (hu : u ∈ entering next works)
      (later : x.next ≤ next) : u.number ≠ n := by
    have from_next := le_of_mem_entering hu
    omega
  have quiet (noStep : ∀ q given s, e ≠ some (.stepped n q given s)) (q : Process)
      (given : q.need.Answer) (s : Session) (there : .stepped n q given s ∈ y.log) :
      .stepped n q given s ∈ x.log := by
    rw [log] at there
    exact (List.mem_append.mp there).resolve_right fun last =>
      noStep q given s (Option.mem_toList.mp last)
  cases does with
  | nothing | others =>
    exact .inl ⟨Nat.le_refl _, fun u hu same => ⟨u, hu, same, rfl⟩, quiet fun _ _ _ => nofun,
      fun _ => rfl⟩
  | deed d =>
    refine .inl ⟨Nat.le_add_right _ _, fun u hu same => ?_, quiet fun _ _ _ => nofun, fun _ => ?_⟩
    · rcases List.mem_append.mp hu with old | new
      · exact ⟨u, old, same, rfl⟩
      · exact absurd same (entered new (Nat.le_refl _))
    · exact congrArg Manager.bindings (Deed.manager_apply x.session d)
  | enter call =>
    refine .inl ⟨Nat.le_succ _, fun u hu same => ?_, quiet fun _ _ _ => nofun, fun _ => rfl⟩
    rcases List.mem_append.mp hu with old | new
    · exact ⟨u, old, same, rfl⟩
    · rw [List.mem_singleton.mp new] at same
      exact absurd same (Nat.ne_of_gt known)
  | carries i split | answers i oracle split =>
    refine .inl ⟨Nat.le_refl _, fun u hu same => ?_, quiet fun _ _ _ => nofun, fun _ => rfl⟩
    obtain ⟨t, there, number, process⟩ := mem_replied hu
    exact ⟨t, split ▸ there, number.trans same, process⟩
  | @goes i oracle before after t answer split free =>
    by_cases own : t.number = n
    · exact .inr ⟨before, after, t, answer, split, own, rfl⟩
    · refine .inl ⟨Nat.le_add_right _ _, fun u hu same => ?_, quiet ?_, fun owns => ?_⟩
      · rcases List.mem_append.mp hu with hu | new
        · rcases List.mem_append.mp hu with old | led
          · have here := (perm_of_split split).mem_iff.mpr (List.mem_cons_of_mem t old)
            exact ⟨u, here, same, rfl⟩
          · exact absurd ((Errand.of_mem_next? (Option.mem_toList.mp led)).1.symm.trans same) own
        · exact absurd same (entered new (Nat.le_refl _))
      · exact fun q given s same => own (Event.stepped.inj (Option.some.inj same)).1
      · have bystander := alters_of_owns orderly split free owns own
        exact (Session.LeavesBooks.process x.session t.process answer bystander).bindings

/-- **A call that deletes a file is under way**, since it got the contexts: so much is closed of
what was open, and all else the call has spared. -/
structure Deletes (x : Traffic) (n : Nat) (path : String) (s : Session) : Prop where
  known : n < x.next
  stands : ∀ t ∈ x.errands, t.number = n → ∃ stage left, t.process = .manager stage ∧
    stage.Deletes path left ∧ s.ClosedBut path left x.session
  spares : ∀ q given u, .stepped n q given u ∈ x.log →
    u.SparesBut ((s.openAt path).map (·.context)) (q.resume u given).1

namespace Deletes

variable {config : Settings} {store : MemoryStore} {moves : List Move} {n : Nat} {path : String}
  {s : Session}

/-- **A move that passes the call by**: what has left does not come back, and the widgets of what is
left to close stay in use, since the call has the contexts. -/
theorem passes (h : ((start (.create config) store).run moves).Deletes n path s) {m : Move}
    (passes : PassesBy n ((start (.create config) store).run moves)
      (((start (.create config) store).run moves).step m)) :
    (((start (.create config) store).run moves).step m).Deletes n path s where
  known := Nat.lt_of_lt_of_le h.known passes.next
  stands u hu number := by
    obtain ⟨t, ht, same, process⟩ := passes.there u hu number
    obtain ⟨stage, left, conducts, deletes, closed⟩ := h.stands t ht same
    refine ⟨stage, left, process.symm.trans conducts, deletes,
      closed.mono (fun v there => left_step config store moves there m)
        (fun w there => gone_step _ there m) fun v hv b hb _ => ?_⟩
    cases deletes with
    | closing first rest =>
      have owns : ((start (.create config) store).run moves).owns n = true := by
        refine List.any_eq_true.mpr ⟨t, ht, ?_⟩
        rw [same, conducts, beq_self_eq_true]
        rfl
      rwa [passes.bindings owns]
    | deleting => exact absurd hv List.not_mem_nil
  spares q given u there := h.spares q given u (passes.log q given u there)

/-- The log after a step of a process. -/
theorem spares_resumed {x : Traffic} {closed : List ContextId} {others : List Errand} {t : Errand}
    {answer : t.process.need.Answer}
    (before : ∀ q given u, .stepped n q given u ∈ x.log → u.SparesBut closed (q.resume u given).1)
    (now : x.session.SparesBut closed (t.process.resume x.session answer).1) :
    ∀ q given u, .stepped n q given u ∈ (x.resumed others t answer).log →
      u.SparesBut closed (q.resume u given).1 := by
  intro q given u there
  rcases List.mem_append.mp there with earlier | last
  · exact before q given u earlier
  · cases List.mem_singleton.mp last
    exact now

/-- **A step of the call itself**, from a session in which it closes on. -/
theorem of_closesOn {before after : List Errand} {t : Errand} {stage : Stage}
    (split : ((start (.create config) store).run moves).errands = before ++ t :: after)
    (conducts : t.process = .manager stage) (answer : t.process.need.Answer)
    (closes : ∀ answer, Manager.ClosesOn path s ((start (.create config) store).run moves).session
      (stage.resume ((start (.create config) store).run moves).session answer))
    (earlier : ∀ q given u,
      .stepped t.number q given u ∈ ((start (.create config) store).run moves).log →
        u.SparesBut ((s.openAt path).map (·.context)) (q.resume u given).1) :
    (((start (.create config) store).run moves).resumed (before ++ after) t answer).Deletes t.number
      path s := by
  have coherent := coherent_run (.create config) store moves
  have below := coherent.below t (split ▸ List.mem_append_right _ List.mem_cons_self)
  obtain ⟨n, process, reply⟩ := t
  obtain rfl : process = _ := conducts
  have closes := closes answer
  refine ⟨Nat.lt_of_lt_of_le below (Nat.le_add_right _ _), fun u hu same => ?_,
    spares_resumed earlier ?_⟩
  · have led := coherent.led (perm_of_split split) hu same
    obtain ⟨q, hq⟩ := Process.exists_stage_of_resume led
    rw [hq] at led
    obtain ⟨left, deletes, closed⟩ := closes.next q (Process.resume_manager_inl.mp led)
    refine ⟨q, left, hq, deletes, ?_⟩
    rw [← Ensemble.session_manager] at closed
    exact closed.mono (fun v there => there.of_manager (.of_eq rfl rfl) rfl)
      (fun w there => there.of_widgets rfl) fun _ _ b hb _ => hb
  · rw [Ensemble.session_manager]
    exact closes.spares

/-- **Every move** keeps it so. -/
theorem step (h : ((start (.create config) store).run moves).Deletes n path s) (m : Move) :
    (((start (.create config) store).run moves).step m).Deletes n path s := by
  rcases passes_or_goes h.known (twinBooks_run config store moves) m with
    aside | ⟨before, after, t, answer, split, rfl, same⟩
  · exact h.passes aside
  · have there : t ∈ ((start (.create config) store).run moves).errands :=
      split ▸ List.mem_append_right _ List.mem_cons_self
    obtain ⟨stage, left, conducts, deletes, closed⟩ := h.stands t there rfl
    rw [same]
    exact of_closesOn split conducts answer (closed.closesOn deletes
      (roster_of_owner config store moves there conducts) (listed_run config store moves)) h.spares

/-- **And so does every run.** -/
theorem run (h : ((start (.create config) store).run moves).Deletes n path s) (during : List Move) :
    ((start (.create config) store).run (moves ++ during)).Deletes n path s := by
  induction during using List.reverseRecOn with
  | nil => rwa [List.append_nil]
  | append_singleton during m ih =>
    rw [← List.append_assoc, run_concat]
    exact ih.step m

end Deletes

/-- **When the call gets the contexts**, it has done nothing before, and closes from then on. -/
theorem deletes_of_updating {config : Settings} {store : MemoryStore} {moves : List Move}
    {path : String} {before after : List Errand} {t : Errand}
    (split : ((start (.create config) store).run moves).errands = before ++ t :: after)
    (conducts : t.process = .manager (.updating (.closeFile path true)))
    (answer : t.process.need.Answer) :
    (((start (.create config) store).run moves).resumed (before ++ after) t answer).Deletes t.number
      path ((start (.create config) store).run moves).session := by
  have course := (coherent_run (.create config) store moves).underway t
    (split ▸ List.mem_append_right _ List.mem_cons_self)
  refine Deletes.of_closesOn split conducts answer (fun _ => Session.closesOn_update _ path)
    fun q given u there => ?_
  obtain ⟨rfl, -⟩ :=
    course.called_of_awaitsDelete _ rfl _ conducts rfl q given u (stepped_mem_own there)
  have same : ((Process.manager (.called (.deleteFile path))).resume u given).1 = u := by
    rw [Ensemble.session_manager, Stage.resume]
    split <;> rfl
  rw [same]
  exact .refl u _

/-! ## 4. A call that fails -/

section Logged

variable {config : Settings} {store : MemoryStore} {moves : List Move} {n : Nat} {path : String}
  {s : Session} {a b : List Event}

/-- **Since the logged step with which it gets the contexts**, the call closes them. -/
theorem deletes_of_updated (log : ((start (.create config) store).run moves).log =
      a ++ .stepped n (.manager (.updating (.closeFile path true))) () s :: b) :
    ((start (.create config) store).run moves).Deletes n path s := by
  obtain ⟨first, m, second, before, after, reply, -, rfl, -, rfl, split, -, -, same⟩ :=
    goes_of_log rfl log
  have since := deletes_of_updating split rfl ()
  rw [← same, ← run_concat] at since
  simpa using since.run second

/-- **A call that closes for a delete** has got the contexts, and has closed them but for what is
left; all else its steps have spared. -/
theorem deletes_of_log {stage : Stage} {left : List Tracked} {answer : stage.need.Answer}
    (log : ((start (.create config) store).run moves).log =
      a ++ .stepped n (.manager stage) answer s :: b) (deletes : stage.Deletes path left) :
    ∃ s₀, .stepped n (.manager (.updating (.closeFile path true))) () s₀ ∈ a ∧
      s₀.ClosedBut path left s ∧ ∀ q given u, .stepped n q given u ∈ a →
        u.SparesBut ((s₀.openAt path).map (·.context)) (q.resume u given).1 := by
  obtain ⟨reply, oracle, course, -⟩ := course_of_log log
  obtain ⟨s₀, there⟩ := course.updated_of_deletes _ rfl stage left rfl deletes
  have there := List.mem_of_mem_filter there
  obtain ⟨first, m, second, before, after, reply, -, rfl, rfl, rfl, split, -, -, -⟩ :=
    goes_of_log rfl log
  obtain ⟨c, d, updated⟩ := List.append_of_mem there
  have since := deletes_of_updated updated
  obtain ⟨q, more, same, deletes', closed⟩ :=
    since.stands _ (split ▸ List.mem_append_right _ List.mem_cons_self) rfl
  obtain rfl : q = stage := (Process.manager.inj same).symm
  obtain rfl : more = left := by cases deletes <;> cases deletes' <;> rfl
  exact ⟨s₀, there, closed, since.spares⟩

/-- **A delete that fails has closed what it found.**  In every run, with whatever store and
whatever else happens meanwhile, a call that deletes a file and returns an error changes nothing
with its last step.  If the manager is disposed, it has done nothing before either.  Otherwise the
error is the store's, and the call has closed all that was open for the path when it got the
contexts: these are dead and out of use, and their widgets are disposed and out of use too.  No step
of the call has changed a model or its flags, and each has spared all other contexts and their
widgets. -/
theorem failed_delete_closes (config : Settings) (store : MemoryStore) (moves : List Move)
    {p : Process} {answer : p.need.Answer} {e : ManagerError}
    (log : ((start (.create config) store).run moves).log = a ++ .stepped n p answer s :: b)
    (began : Began n (.deleteFile path) (a ++ [.stepped n p answer s]))
    (fails : p.returns? s answer = some (.error e)) :
    (p.resume s answer).1 = s ∧
      ((e = .usedAfterDisposal ∧ s.manager.disposed = true ∧
          ∀ q given u, .stepped n q given u ∉ a) ∨
        ∃ cause s₀, e = .store cause ∧
          .stepped n (.manager (.updating (.closeFile path true))) () s₀ ∈ a ∧
          (∀ x ∈ s₀.openAt path, s.Left x ∧
            ∀ b ∈ s₀.manager.bindings, b.context = x.context → s.Gone b.widget) ∧
          ∀ q given u, .stepped n q given u ∈ a →
            u.SparesBut ((s₀.openAt path).map (·.context)) (q.resume u given).1) := by
  obtain ⟨stage, rfl, kind⟩ : ∃ stage, p = .manager stage ∧ stage.deletesFile path := by
    obtain ⟨u, there⟩ := began
    rcases List.mem_append.mp there with before | last
    · exact among_of_log Stage.deletesFile_of_goesOn rfl log ⟨u, before⟩
    · exact ⟨_, (Event.stepped.inj (List.mem_singleton.mp last)).2.1.symm, rfl⟩
  have result := Process.resume_manager_inr.mp (Process.of_returns? fails)
  rw [Ensemble.session_manager]
  cases stage with
  | called op =>
    obtain rfl : op = _ := kind
    obtain ⟨reply, oracle, course, -⟩ := course_of_log log
    simp only [Stage.resume] at result ⊢
    split at result
    · next disposed =>
      cases result
      refine ⟨by rw [if_pos disposed]; rfl, .inl ⟨rfl, disposed, fun q given u there => ?_⟩⟩
      cases (course.called_of_awaitsDelete _ rfl _ rfl rfl q given u (stepped_mem_own there)).2
    · cases result
  | updating update =>
    obtain rfl : update = _ := kind
    simp only [Stage.resume, Manager.update, Manager.retireWhere_eq] at result
    exact absurd result Manager.ne_inr_of_retireEach_delete
  | closing u rest after =>
    obtain rfl : after = _ := kind
    exact absurd result Manager.ne_inr_of_retireEach_delete
  | deleting q =>
    obtain rfl : q = _ := kind
    obtain ⟨s₀, there, closed, spares⟩ := deletes_of_log log .deleting
    cases answer with
    | error cause =>
      cases result
      exact ⟨rfl, .inr ⟨cause, s₀, rfl, there,
        fun x hx => closed.closed x hx List.not_mem_nil, spares⟩⟩
    | ok u => cases result
  | _ => exact absurd kind id

end Logged

end Traffic

/-- The error with which a call of the manager returns by this event. -/
def Event.failed? : Event → Option ManagerError
  | .stepped _ p answer s =>
    match p.returns? s answer with
    | some (.error e) => some e
    | _ => none
  | _ => none

namespace Traffic

/-- The text is opened and edited. -/
def opensAndEdits : List Move :=
  [.deed (.setRegistry .sample), .call (.open "a" "editor" none)] ++ goes 0 4 ++ [.carryOut 0] ++
    goes 0 1 ++ [.deed (.setModel 0 ⟨.text "mine", true, false⟩)]

/-- The file is to be deleted, but the store is away by the time that it is asked. -/
def deletesOffline : List Move :=
  .call (.deleteFile "a") :: goes 0 3 ++ [.others { oneFile with available := false }, .carryOut 0]

/-- The call fails with the reply of the store, and the document that it has found is closed. -/
theorem failed_delete_closes_deletesOffline :
    let x := (start quietSession oneFile).run (opensAndEdits ++ deletesOffline)
    let p := Process.manager (.deleting "a")
    let offline := StoreError.unavailable "memory store offline"
    ((start quietSession oneFile).run (opensAndEdits ++ deletesOffline ++ [.go 0 .obliging])).log =
        x.log ++ .stepped 2 p (.error offline) x.session :: [] ∧
      Began 2 (.deleteFile "a") (x.log ++ [.stepped 2 p (.error offline) x.session]) ∧
      p.returns? x.session (.error offline) = some (.error (.store offline)) ∧
      (p.resume x.session (.error offline)).1 = x.session ∧
      ∃ s₀, .stepped 2 (.manager (.updating (.closeFile "a" true))) () s₀ ∈ x.log ∧
        ∀ u ∈ s₀.openAt "a", x.session.Left u := by
  intro x p offline
  have log : ((start quietSession oneFile).run
      (opensAndEdits ++ deletesOffline ++ [.go 0 .obliging])).log =
        x.log ++ .stepped 2 p (.error offline) x.session :: [] := rfl
  have began : Began 2 (.deleteFile "a") (x.log ++ [.stepped 2 p (.error offline) x.session]) :=
    ⟨((start quietSession oneFile).run opensAndEdits).session,
      List.mem_append_left _ (List.mem_of_getElem? (i := 6) rfl)⟩
  have fails : p.returns? x.session (.error offline) = some (.error (.store offline)) := rfl
  obtain ⟨last, ⟨other, -⟩ | ⟨cause, s₀, -, there, closed, -⟩⟩ :=
    failed_delete_closes { autosave := { enabled := false } } oneFile _ log began fails
  · cases other
  · exact ⟨log, began, fails, last, s₀, there, fun u hu => (closed u hu).1⟩

/-- **A failed delete discards unsaved changes.**  The text is open and edited, and nothing else
runs.  The store cannot be reached, so the call returns an error and the file is still there with
the text that was saved; but the document is closed with its widget, though it has kept its changes.
-/
theorem failed_delete_discards_changes :
    let x := (start quietSession oneFile).run opensAndEdits
    let y := x.run (deletesOffline ++ goes 0 1)
    x.errands.length = 0 ∧ x.session.manager.tracked.map (·.context) = [0] ∧
      (x.session.contexts.map fun c => (c.path, c.isDisposed, c.model)) =
        [("a", false, ⟨.text "mine", true, false⟩)] ∧
      x.session.widgets.map (·.disposed) = [false] ∧
      y.errands.length = 0 ∧
      y.log.filterMap Event.failed? = [.store (.unavailable "memory store offline")] ∧
      y.store.text? "a" = some "one" ∧
      y.session.manager.tracked = [] ∧
      (y.session.contexts.map fun c => (c.path, c.isDisposed, c.model)) =
        [("a", true, ⟨.text "mine", true, false⟩)] ∧
      y.session.widgets.map (·.disposed) = [true] := by
  decide +kernel

end Traffic

end Folio
