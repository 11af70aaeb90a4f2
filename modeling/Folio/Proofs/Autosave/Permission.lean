/-
# What may be saved by itself

An attempt saves only what it may: its coordinator is active, the model has changes and may be
persisted, and nobody is being asked.  It looks at all four when it begins.  When it saves, it has
looked at the file since and perhaps waited for the user, and it looks once more whether the
coordinator is active, and not at the rest.

So the rest holds if nothing has changed it meanwhile, and little can: the model, only the host, or
a save or a reload of the same document that returns; the dialog, only another attempt of the same
coordinator that opens it while this one looks at the file (`Traffic.saves_what_it_may`).  Where
these happen, a document is saved that may not be persisted, or has no changes, or about which the
user is being asked (`Traffic.saves_what_it_may_not`).
-/
import Folio.Proofs.Autosave.Latch
import Folio.Proofs.Session.Contexts

namespace Folio

/-- The model has changes and may be persisted. -/
def Context.maySave (c : Context) : Bool := c.model.dirty && !c.model.readOnly

/-! ## 1. Attempts -/

/-- **An attempt of a coordinator may begin**, as far as its coordinator and its context go. -/
structure Session.Permits (s : Session) (k : CoordinatorId) : Prop where
  active : (s.coordinator k).active = true
  unlatched : (s.coordinator k).arbitrating = false
  maySave : (s.scene k).context.maySave = true
  live : (s.scene k).context.isDisposed = false

/-- A live context was made. -/
theorem Session.made_of_live {s : Session} {c : ContextId}
    (live : (s.context c).isDisposed = false) : c < s.contexts.length := by
  refine Nat.lt_of_not_le fun unmade => ?_
  rw [context, List.getElem?_eq_none unmade] at live
  cases live

namespace Attempt

/-- To begin a save takes an active coordinator and a live context, and changes nothing. -/
theorem of_beginSave {s : Scene} {next : Attempt} (h : (beginSave s).2 = some next) :
    s.coordinator.active = true ∧ s.context.isDisposed = false ∧ (beginSave s).1 = s := by
  unfold beginSave at h ⊢
  split at h
  · next may =>
    obtain ⟨active, live⟩ := Bool.and_eq_true_iff.mp may
    rw [if_pos may]
    exact ⟨active, by simpa using live, rfl⟩
  · cases h

/-- **An attempt that begins has looked at everything.** -/
theorem permits_of_due {s : Session} {k : CoordinatorId} {next : Attempt}
    (h : (Attempt.resume (s.scene k) .due ()).2 = some next) : s.Permits k := by
  simp only [Attempt.resume, Attempt.begin] at h
  split at h
  · cases h
  · next may =>
    split at h
    · next gone =>
      obtain ⟨-, live, -⟩ := of_beginSave h
      rw [gone] at live
      cases live
    · next live =>
      simp only [Bool.or_eq_true, Bool.not_eq_true', not_or, Bool.not_eq_false,
        Bool.not_eq_true] at may
      obtain ⟨⟨⟨active, dirty⟩, writable⟩, unlatched⟩ := may
      refine ⟨active, unlatched, ?_, Bool.eq_false_iff.mpr live⟩
      rw [Context.maySave, dirty, writable]
      rfl

/-- **An attempt that begins to save** has looked whether its coordinator is active, and leaves it
so. -/
theorem live_of_saving {s : Scene} {a : Attempt} {answer : a.need.Answer} {since : Nat}
    {path : String} {request : SaveRequest}
    (h : (Attempt.resume s a answer).2 = some (.saving since path request)) :
    s.context.isDisposed = false ∧ (Attempt.resume s a answer).1.coordinator.active = true := by
  cases a with
  | due =>
    have next := next_due h
    cases next
  | checking place =>
    have saves {scene : Scene} (h : (beginSave scene).2 = some (.saving since path request)) :
        scene.context.isDisposed = false ∧ (beginSave scene).1.coordinator.active = true := by
      obtain ⟨active, live, same⟩ := of_beginSave h
      rw [same]
      exact ⟨live, active⟩
    simp only [Attempt.resume, afterCheck] at h ⊢
    split at h
    · exact saves h
    · split at h
      · next known =>
        rw [if_pos known]
        exact saves h
      · split at h <;> cases h
  | asking prompt =>
    rcases next_asking h with ⟨-, reloads⟩ | ⟨rfl, -⟩
    · cases reloads
    · obtain ⟨active, live, same⟩ := of_beginSave h
      refine ⟨live, ?_⟩
      change (beginSave _).1.coordinator.active = true
      rw [same]
      exact active
  | reverting place => cases h
  | saving earlier place asked => cases h

end Attempt

/-! ## 2. Who changes a model -/

/-- What is waited for brings a document to the store, or back from there. -/
def Need.carriesDocument : Need → Bool
  | .store (.save _ _) => true
  | .store (.get _ true) => true
  | _ => false

theorem ContextCall.model_resume (context : Context) : (call : ContextCall) →
    (reply : call.request.Reply) → (Need.store call.request).carriesDocument = false →
    (ContextCall.resume context call reply).1.model = context.model
  | .fetching _, _, _ => rfl
  | .renaming _ _, .error _, _ => rfl
  | .renaming _ target, .ok _, _ => context.model_followMove target
  | .checkpointing _, _, _ => rfl
  | .listing _, _, _ => rfl
  | .restoring _ _, .error _, _ => rfl
  | .restoring _ _, .ok (), _ => by
    simp only [ContextCall.resume]
    split <;> rfl

/-- **Who neither saves nor reloads leaves the model of its context.** -/
theorem Process.model_effect {p : Process} (context : Context) (answer : p.need.Answer)
    (light : p.need.carriesDocument = false) : (p.effect context answer).model = context.model := by
  cases p with
  | calling c call => exact call.model_resume context answer light
  | loading k call => exact call.model_resume context answer light
  | attempt k a =>
    cases a with
    | reverting path => cases light
    | saving since path request => cases light
    | _ => rfl
  | _ => rfl

/-- **Who deals with another context leaves the model.** -/
theorem Process.model_foreign {s : Session} {c : ContextId} (made : c < s.contexts.length)
    {p : Process} (foreign : p.dealsWith s c = false) (answer : p.need.Answer) :
    ((p.resume s answer).1.context c).model = (s.context c).model := by
  have away {d : ContextId} (other : (d == c) = false) (context : Context) :
      (s.setContext d context).context c = s.context c :=
    Session.context_setContext_of_ne context (Ne.symm (beq_eq_false_iff_ne.mp other))
  refine (Process.keeps (P := fun t => c < t.contexts.length ∧
    (t.context c).model = (s.context c).model) ?_ ?_ ⟨made, rfl⟩ answer).2
  · rintro t u edit ⟨made, same⟩
    have more := Nat.lt_of_lt_of_le made (Session.ChangesContexts.edit edit).length
    refine ⟨more, Eq.trans ?_ same⟩
    cases edit with
    | newTracked path factory isNew =>
      rw [Session.context_newTracked_of_lt path factory isNew made]
    | followMove d target =>
      exact Session.looks_setContext Context.model (Context.model_followMove _ target) c
    | dispose d =>
      refine Session.looks_setContext Context.model ?_ c
      unfold Context.dispose
      split <;> rfl
    | startCoordinator k => rw [Session.context_startCoordinator]
    | retireWidget w => cases w <;> rfl
    | _ => rfl
  · intro t makes
    cases makes with
    | called d call reply =>
      rw [away foreign]
      exact ⟨by simpa [Session.setContext] using made, rfl⟩
    | loads k call reply =>
      rw [away foreign]
      exact ⟨by simpa [Session.setContext] using made, rfl⟩
    | starts k call reply =>
      rw [Session.contexts_startCoordinator, Session.context_startCoordinator, away foreign]
      exact ⟨by simpa [Session.setContext] using made, rfl⟩
    | acts k a given =>
      refine
        ⟨by simpa [Session.setScene, Session.setContext, Session.setCoordinator] using made, ?_⟩
      exact congrArg Context.model (away foreign _)
    | _ => exact ⟨made, rfl⟩

namespace Traffic

/-- **The move may change the model of a context**: the host sets it, or a save or a reload of the
context returns. -/
def touches (x : Traffic) (c : ContextId) : Move → Bool
  | .deed (.setModel d _) => d == c
  | .go i _ => x.errands[i]?.any fun t =>
      t.process.dealsWith x.session c && t.process.need.carriesDocument
  | _ => false

/-- **No other move does.** -/
theorem model_step {x : Traffic} {c : ContextId} (made : c < x.session.contexts.length) {m : Move}
    (untouched : x.touches c m = false) :
    ((x.step m).session.context c).model = (x.session.context c).model := by
  cases m with
  | deed d =>
    cases d with
    | setModel d model =>
      have other := beq_eq_false_iff_ne.mp untouched
      exact congrArg Context.model (Session.context_setContext_of_ne _ (Ne.symm other))
    | followMove d target =>
      exact Session.looks_setContext Context.model (Context.model_followMove _ target) c
    | _ => exact Session.model_deed made rfl
  | enter p =>
    simp only [step]
    split <;> rfl
  | others store => rfl
  | carryOut i =>
    rcases x.carryOut_cases i with same | ⟨_, _, _, _, _, -, -, -, -, same⟩
    · rw [step, same]
    · rw [step, same]
  | answer i oracle =>
    simp only [step, answer]
    split
    · rfl
    · split <;> rfl
  | go i oracle =>
    rcases x.go_cases i oracle with same | ⟨before, after, t, answer, place, -, -, -, same⟩
    · rw [step, same]
    · have light : t.process.dealsWith x.session c = false ∨
          t.process.need.carriesDocument = false := by
        rw [touches, place] at untouched
        exact Bool.and_eq_false_iff.mp untouched
      rw [step, same]
      change (((t.process.resume x.session answer).1).context c).model = _
      cases deals : t.process.dealsWith x.session c with
      | false => exact Process.model_foreign made deals answer
      | true =>
        rw [Process.context_effect made deals answer]
        exact Process.model_effect _ answer (light.resolve_left (by simp [deals]))

end Traffic

/-! ## 3. Attempts under way -/

namespace Process

/-- An attempt of the coordinator looks at the file. -/
def looksFor (k : CoordinatorId) : Process → Bool
  | .attempt j (.checking _) => j == k
  | _ => false

/-- An attempt of the coordinator has begun, and has still to save: it looks at the file, or waits
for the user. -/
def decidesFor (k : CoordinatorId) : Process → Bool
  | .attempt j (.checking _) => j == k
  | .attempt j (.asking _) => j == k
  | _ => false

/-- Who decides is an attempt of the coordinator. -/
theorem attempt_of_decidesFor {k : CoordinatorId} {p : Process} (decides : p.decidesFor k = true) :
    ∃ a, p = .attempt k a := by
  cases p with
  | attempt j a =>
    cases a with
    | checking path =>
      obtain rfl := beq_iff_eq.mp decides
      exact ⟨.checking path, rfl⟩
    | asking prompt =>
      obtain rfl := beq_iff_eq.mp decides
      exact ⟨.asking prompt, rfl⟩
    | _ => cases decides
  | _ => cases decides

/-- **Who goes on** has not begun, or decides. -/
theorem decidesFor_of_next {s : Attempt.Scene} {k : CoordinatorId} {a next : Attempt}
    {answer : a.need.Answer} (h : (Attempt.resume s a answer).2 = some next) :
    a = .due ∨ (Process.attempt k a).decidesFor k = true := by
  cases a with
  | due => exact .inl rfl
  | checking path => exact .inr (beq_self_eq_true k)
  | asking prompt => exact .inr (beq_self_eq_true k)
  | reverting path => cases h
  | saving since path request => cases h

theorem looksFor_of_isFresh {k : CoordinatorId} {p : Process} (fresh : p.isFresh = true) :
    p.looksFor k = false := by
  cases p with
  | attempt j a =>
    cases a with
    | due => rfl
    | _ => cases fresh
  | _ => rfl

/-- Who has just entered does not decide. -/
theorem decidesFor_of_isFresh {k : CoordinatorId} {p : Process} (fresh : p.isFresh = true) :
    p.decidesFor k = false := by
  cases p with
  | attempt j a =>
    cases a with
    | due => rfl
    | _ => cases fresh
  | _ => rfl

end Process

/-- **Who goes on to look at the file** has just begun, and may. -/
theorem Process.permits_of_looks {s : Session} {k : CoordinatorId} {p q : Process}
    {answer : p.need.Answer} (next : (p.resume s answer).2 = .inl q) (looks : q.looksFor k = true) :
    s.Permits k := by
  cases goesOn next with
  | @attempts j a following given follows =>
    cases following with
    | checking path =>
      obtain rfl := beq_iff_eq.mp looks
      cases a with
      | due => exact Attempt.permits_of_due follows
      | checking place =>
        rcases Attempt.next_checking follows with ⟨saves, -⟩ | ⟨file, -, asks⟩
        · cases saves
        · cases asks
      | asking prompt =>
        rcases Attempt.next_asking follows with ⟨-, reloads⟩ | ⟨-, saves⟩
        · cases reloads
        · cases saves
      | reverting place => cases follows
      | saving since place request => cases follows
    | _ => cases looks
  | _ => cases looks

/-- **An attempt that has begun** found all as it should be when it did. -/
theorem Course.permits {n : Nat} {h : List Event} {o : Option Errand} (course : Course n h o) :
    ∀ t ∈ o, ∀ k a, t.process = .attempt k a → a = .due ∨
      ∃ s, .stepped n (.attempt k .due) () s ∈ h ∧ s.Permits k := by
  induction course with
  | enters fresh =>
    rintro _ ⟨⟩ k a process
    obtain rfl : _ = Process.attempt k a := process
    cases a with
    | due => exact .inl rfl
    | _ => cases fresh
  | @carries h t store store' reply before done ih =>
    rintro _ ⟨⟩ k a process
    refine (ih t rfl k a process).imp_right fun ⟨s, there, permits⟩ => ?_
    exact ⟨s, List.mem_append_left _ there, permits⟩
  | @answers h t reply before ih =>
    rintro _ ⟨⟩ k a process
    refine (ih t rfl k a process).imp_right fun ⟨s, there, permits⟩ => ?_
    exact ⟨s, List.mem_append_left _ there, permits⟩
  | @goes h t oracle answer before ready s ih =>
    intro u hu k next process
    obtain ⟨-, led, -⟩ := Errand.of_mem_next? hu
    rw [process] at led
    obtain ⟨n, p, reply⟩ := t
    obtain ⟨a, rfl⟩ := Process.attempt_of_continues led
    obtain ⟨follows, -⟩ := Process.attempt_continues led
    right
    rcases ih _ rfl k a rfl with rfl | ⟨s, there, permits⟩
    · exact ⟨s, List.mem_append_right _ List.mem_cons_self, Attempt.permits_of_due follows⟩
    · exact ⟨s, List.mem_append_left _ there, permits⟩

namespace Traffic

variable {x : Traffic} {k : CoordinatorId}

/-! ## 4. The model -/

/-- **The move is considerate**: while an attempt of the coordinator decides, neither the host nor a
save or a reload that returns leaves the model without changes, or read-only. -/
def isConsiderate (x : Traffic) (k : CoordinatorId) (m : Move) : Bool :=
  !(x.errands.any fun t => t.process.decidesFor k) ||
    !x.touches (x.session.coordinator k).context m ||
    ((x.step m).session.scene k).context.maySave

/-- Every move of the run is considerate. -/
def isConsiderateRun (k : CoordinatorId) : Traffic → List Move → Bool
  | _, [] => true
  | x, m :: moves => x.isConsiderate k m && isConsiderateRun k (x.step m) moves

/-- **While an attempt decides**, the model has changes and may be persisted. -/
structure Steady (k : CoordinatorId) (x : Traffic) : Prop where
  sound : x.IsSound
  made : ∀ t ∈ x.errands, t.process.decidesFor k = true →
    (x.session.coordinator k).context < x.session.contexts.length
  maySave : ∀ t ∈ x.errands, t.process.decidesFor k = true →
    (x.session.scene k).context.maySave = true

/-- A step of an attempt that goes on leaves the context as it was. -/
theorem scene_resumed {t : Errand} {answer : t.process.need.Answer} {a : Attempt}
    (led : (t.process.resume x.session answer).2 = .inl (.attempt k a)) (others : List Errand) :
    ((x.resumed others t answer).session.scene k).context = (x.session.scene k).context := by
  obtain ⟨n, p, reply⟩ := t
  obtain ⟨b, rfl⟩ := Process.attempt_of_continues led
  exact (Process.attempt_continues led).2

namespace Steady

theorem step (steady : Steady k x) {m : Move} (considerate : x.isConsiderate k m = true) :
    Steady k (x.step m) := by
  have on := x.advances_step m
  -- who decides now has decided before, or has just begun
  have before {u : Errand} (hu : u ∈ (x.step m).errands) (decides : u.process.decidesFor k = true) :
      k < x.session.coordinators.length ∧
      (x.session.coordinator k).context < x.session.contexts.length ∧
      ((x.step m).session.scene k).context.maySave = true := by
    obtain ⟨a, process⟩ := Process.attempt_of_decidesFor decides
    rcases x.stood_or_led m hu with ⟨t, there, -, same⟩ | fresh |
      ⟨t, others, answer, all, resumed, -, led⟩
    · have decided : t.process.decidesFor k = true := same ▸ decides
      have sound : k < x.session.coordinators.length := by
        have sound := steady.sound.errands t there
        rw [same, process] at sound
        exact sound
      have made := steady.made t there decided
      refine ⟨sound, made, ?_⟩
      cases touched : x.touches (x.session.coordinator k).context m with
      | true =>
        have someone : (x.errands.any fun t => t.process.decidesFor k) = true :=
          List.any_eq_true.mpr ⟨t, there, decided⟩
        simpa [isConsiderate, someone, touched] using considerate
      | false =>
        have owner := on.coordinator k sound
        change
          ((x.step m).session.context ((x.step m).session.coordinator k).context).maySave = true
        rw [owner, Context.maySave, model_step made touched]
        exact steady.maySave t there decided
    · rw [Process.decidesFor_of_isFresh fresh] at decides
      cases decides
    · have there : t ∈ x.errands := all.mem_iff.mpr List.mem_cons_self
      have sound := steady.sound.errands t there
      rw [process] at led
      have same := scene_resumed led others
      obtain ⟨n, p, reply⟩ := t
      obtain ⟨b, rfl⟩ := Process.attempt_of_continues led
      obtain ⟨follows, -⟩ := Process.attempt_continues led
      rw [resumed, same]
      refine ⟨sound, ?_⟩
      rcases Process.decidesFor_of_next (k := k) follows with rfl | decided
      · have permits := Attempt.permits_of_due follows
        exact ⟨Session.made_of_live permits.live, permits.maySave⟩
      · exact ⟨steady.made _ there decided, steady.maySave _ there decided⟩
  refine ⟨steady.sound.step m, fun u hu decides => ?_, fun u hu decides => (before hu decides).2.2⟩
  obtain ⟨sound, made, -⟩ := before hu decides
  rw [on.coordinator k sound]
  exact Nat.lt_of_lt_of_le made on.contexts_length

theorem run (steady : Steady k x) (moves : List Move)
    (considerate : isConsiderateRun k x moves = true) : Steady k (x.run moves) := by
  induction moves generalizing x with
  | nil => exact steady
  | cons m moves ih =>
    obtain ⟨first, rest⟩ := Bool.and_eq_true_iff.mp considerate
    exact ih (steady.step first) rest

end Steady

/-! ## 5. The dialog -/

/-- **The user is asked alone**: if the move opens the dialog, no attempt of the coordinator looks
at the file then. -/
def asksAlone (x : Traffic) (k : CoordinatorId) (m : Move) : Bool :=
  (x.session.coordinator k).arbitrating || !((x.step m).session.coordinator k).arbitrating ||
    !((x.step m).errands.any fun t => t.process.looksFor k)

/-- So it is in every move of the run. -/
def asksAloneRun (k : CoordinatorId) : Traffic → List Move → Bool
  | _, [] => true
  | x, m :: moves => x.asksAlone k m && asksAloneRun k (x.step m) moves

/-- **While the user is asked**, no attempt looks at the file. -/
def Shut (k : CoordinatorId) (x : Traffic) : Prop :=
  (x.session.coordinator k).arbitrating = true → ∀ t ∈ x.errands, t.process.looksFor k = false

namespace Shut

theorem step (shut : Shut k x) {m : Move} (alone : x.asksAlone k m = true) :
    Shut k (x.step m) := by
  intro set u hu
  cases before : (x.session.coordinator k).arbitrating with
  | false =>
    have none : ((x.step m).errands.any fun t => t.process.looksFor k) = false := by
      simpa [asksAlone, before, set] using alone
    exact Bool.eq_false_iff.mpr (List.any_eq_false.mp none u hu)
  | true =>
    -- nobody begins to look while the latch is set
    refine Bool.eq_false_iff.mpr fun looks => ?_
    rcases x.stood_or_led m hu with ⟨t, there, -, same⟩ | fresh |
      ⟨t, others, answer, -, -, -, led⟩
    · have looked := shut before t there
      rw [same, looks] at looked
      cases looked
    · rw [Process.looksFor_of_isFresh fresh] at looks
      cases looks
    · have unlatched := (Process.permits_of_looks led looks).unlatched
      rw [before] at unlatched
      cases unlatched

theorem run (shut : Shut k x) (moves : List Move) (alone : asksAloneRun k x moves = true) :
    Shut k (x.run moves) := by
  induction moves generalizing x with
  | nil => exact shut
  | cons m moves ih =>
    obtain ⟨first, rest⟩ := Bool.and_eq_true_iff.mp alone
    exact ih (shut.step first) rest

end Shut

/-! ## 6. What is saved -/

/-- **An attempt of the coordinator begins its save** between two states. -/
def BeginsSave (k : CoordinatorId) (n : Nat) (x y : Traffic) : Prop :=
  (∃ u ∈ y.errands, u.number = n ∧ u.process.savesFor k = true) ∧
    ∀ t ∈ x.errands, t.number = n → t.process.savesFor k = false

instance {n : Nat} {x y : Traffic} : Decidable (BeginsSave k n x y) :=
  inferInstanceAs (Decidable (_ ∧ _))

/-- It does so in a step of its own. -/
theorem BeginsSave.led {n : Nat} {m : Move} (begins : BeginsSave k n x (x.step m)) :
    ∃ a reply others, ∃ answer : a.need.Answer, ∃ since path request,
      x.errands.Perm (⟨n, .attempt k a, reply⟩ :: others) ∧
      x.step m = x.resumed others ⟨n, .attempt k a, reply⟩ answer ∧
      ((Process.attempt k a).resume x.session answer).2 =
        .inl (.attempt k (.saving since path request)) := by
  obtain ⟨⟨u, hu, rfl, saves⟩, new⟩ := begins
  obtain ⟨since, path, request, process⟩ :
      ∃ since path request, u.process = .attempt k (.saving since path request) := by
    cases process : u.process with
    | attempt j a =>
      rw [process] at saves
      cases a with
      | saving since path request =>
        obtain rfl := beq_iff_eq.mp saves
        exact ⟨since, path, request, rfl⟩
      | _ => cases saves
    | _ => rw [process] at saves; cases saves
  rcases x.stood_or_led m hu with ⟨t, there, number, same⟩ | fresh |
    ⟨t, others, answer, all, same, number, led⟩
  · have before := new t there number
    rw [same, saves] at before
    cases before
  · rw [process] at fresh
    cases fresh
  · rw [process] at led
    obtain ⟨number', p, reply⟩ := t
    obtain ⟨a, rfl⟩ := Process.attempt_of_continues led
    obtain rfl : u.number = number' := number
    exact ⟨a, reply, others, answer, since, path, request, all, same, led⟩

/-- **When a save begins nobody is asked**, unless somebody was while the attempt looked at the
file. -/
theorem Latched.unlatched_of_saves (latched : x.Latched) {n : Nat} {a : Attempt}
    {reply : Option (Process.attempt k a).need.Answer}
    (there : (⟨n, .attempt k a, reply⟩ : Errand) ∈ x.errands) {answer : a.need.Answer} {since : Nat}
    {path : String} {request : SaveRequest}
    (led : ((Process.attempt k a).resume x.session answer).2 =
      .inl (.attempt k (.saving since path request)))
    (shut : (Process.attempt k a).looksFor k = true →
      (x.session.coordinator k).arbitrating = false) :
    (((Process.attempt k a).resume x.session answer).1.coordinator k).arbitrating = false := by
  have latch := Process.latch_resume (k := k) (p := .attempt k a) answer
    (latched.sound.errands _ there) (latched.held there)
  rw [led] at latch
  have quiet : (Process.attempt k (.saving since path request)).arbitratesFor k = false := by
    simp [Process.arbitratesFor, Attempt.isArbitrating]
  have before : (x.session.coordinator k).arbitrating = (Process.attempt k a).arbitratesFor k := by
    obtain ⟨follows, -⟩ := Process.attempt_continues led
    rcases Process.decidesFor_of_next (k := k) follows with rfl | decides
    · cases Attempt.next_due follows
    · cases a with
      | checking place =>
        rw [shut (beq_self_eq_true k)]
        simp [Process.arbitratesFor, Attempt.isArbitrating]
      | asking prompt =>
        have asks : (Process.attempt k (.asking prompt)).arbitratesFor k = true := by
          simp [Process.arbitratesFor, Attempt.isArbitrating]
        rw [latched.held there asks, asks]
      | _ => cases decides
  rw [Sum.elim_inl, quiet, before] at latch
  cases after : (((Process.attempt k a).resume x.session answer).1.coordinator k).arbitrating with
  | false => rfl
  | true => simp [after] at latch

/-- **Attempts save what they may.**  Whenever an attempt begins to save, in any run, its
coordinator is active and the context live; it has looked before, in a step of its own, and found
besides that the model had changes and could be persisted and that nobody was being asked.  If every
move so far was considerate of the attempts that were deciding, the model has changes then and may
be persisted.  If no attempt of the coordinator was looking at the file whenever another one opened
the dialog, nobody is being asked then. -/
theorem saves_what_it_may (config : Settings) (store : MemoryStore) (moves : List Move) (m : Move)
    (k : CoordinatorId) (n : Nat)
    (begins : BeginsSave k n ((start (.create config) store).run moves)
      (((start (.create config) store).run moves).step m)) :
    let x := (start (.create config) store).run moves
    let y := x.step m
    (y.session.coordinator k).active = true ∧ (y.session.scene k).context.isDisposed = false ∧
      (∃ s, .stepped n (.attempt k .due) () s ∈ x.log ∧ s.Permits k) ∧
      (isConsiderateRun k (start (.create config) store) moves = true →
        (y.session.scene k).context.maySave = true) ∧
      (asksAloneRun k (start (.create config) store) moves = true →
        (y.session.coordinator k).arbitrating = false ∧
          ∀ t ∈ y.errands, t.process.asksFor k = false) := by
  intro x y
  have latched : x.Latched := latched_run config store moves
  have coherent : x.IsCoherent := coherent_run _ store moves
  obtain ⟨a, reply, others, answer, since, path, request, all, same, led⟩ := begins.led
  have there : (⟨n, .attempt k a, reply⟩ : Errand) ∈ x.errands :=
    all.mem_iff.mpr List.mem_cons_self
  have sound : k < x.session.coordinators.length := latched.sound.errands _ there
  obtain ⟨follows, -⟩ := Process.attempt_continues led
  obtain ⟨live, active⟩ := Attempt.live_of_saving follows
  have begun : a ≠ .due := by
    rintro rfl
    cases Attempt.next_due follows
  have decides := (Process.decidesFor_of_next (k := k) follows).resolve_left begun
  -- the step leaves the context as it was, and puts back the coordinator
  have context : (y.session.scene k).context = (x.session.scene k).context := by
    rw [show y = _ from same]
    exact scene_resumed led others
  have coordinator : y.session.coordinator k =
      ((Process.attempt k a).resume x.session answer).1.coordinator k := by
    rw [show y = _ from same]
    rfl
  refine ⟨?_, context ▸ live, ?_, fun considerate => ?_, fun alone => ?_⟩
  · rw [coordinator, Process.coordinator_attempt sound]
    exact active
  · obtain ⟨s, logged, permits⟩ :=
      ((coherent.underway _ there).permits _ rfl k a rfl).resolve_left begun
    exact ⟨s, List.mem_of_mem_filter logged, permits⟩
  · have steady : Steady k (start (.create config) store) :=
      ⟨⟨rfl, fun t ht => absurd ht List.not_mem_nil⟩, fun t ht => absurd ht List.not_mem_nil,
        fun t ht => absurd ht List.not_mem_nil⟩
    rw [context]
    exact (steady.run moves considerate).maySave _ there decides
  · have shut : Shut k (start (.create config) store) := fun _ t ht => absurd ht List.not_mem_nil
    have unlatched := latched.unlatched_of_saves there led fun looks => by
      cases before : (x.session.coordinator k).arbitrating with
      | false => rfl
      | true =>
        rw [shut.run moves alone before _ there] at looks
        cases looks
    rw [← coordinator] at unlatched
    refine ⟨unlatched, fun t ht => Bool.eq_false_iff.mpr fun asks => ?_⟩
    have held := (latched.step m).held ht (Process.arbitratesFor_of_asksFor asks)
    rw [unlatched] at held
    cases held

theorem saves_what_it_may_overwritesSecond :
    let x := (start (.create {}) Commons.firstStore).run asksAboutSecond
    let y := x.step (.go 1 Commons.insisting)
    BeginsSave 0 2 x y ∧
      isConsiderateRun 0 (start (.create {}) Commons.firstStore) asksAboutSecond = true ∧
      asksAloneRun 0 (start (.create {}) Commons.firstStore) asksAboutSecond = true ∧
      (x.session.coordinator 0).arbitrating = true ∧
      (y.session.coordinator 0).active = true ∧ (y.session.scene 0).context.maySave = true ∧
      (y.session.coordinator 0).arbitrating = false := by
  intro x y
  have begins : BeginsSave 0 2 ((start (.create {}) Commons.firstStore).run asksAboutSecond)
      (((start (.create {}) Commons.firstStore).run asksAboutSecond).step
        (.go 1 Commons.insisting)) := by decide +kernel
  have considerate : isConsiderateRun 0 (start (.create {}) Commons.firstStore) asksAboutSecond =
      true := by decide +kernel
  have alone : asksAloneRun 0 (start (.create {}) Commons.firstStore) asksAboutSecond = true := by
    decide +kernel
  obtain ⟨active, -, -, may, unlatched⟩ := saves_what_it_may {} Commons.firstStore asksAboutSecond
    (.go 1 Commons.insisting) 0 2 begins
  exact ⟨begins, considerate, alone, by decide +kernel, active, may considerate,
    (unlatched alone).1⟩

/-- A text is edited, and an attempt looks at its file. -/
def editsAndLooks : List Move := loadsFirst ++ edits "mine" :: startsLoop 0 ++ attempts 1

/-- The store has replied, and the host marks the document read-only. -/
def marksReadOnly : List Move :=
  editsAndLooks ++ [.carryOut 1, .deed (.setModel 0 ⟨.text "mine", true, true⟩)]

/-- The document is saved before the store replies. -/
def savesMeanwhile : List Move := editsAndLooks ++ operates .save 2 ++ returns 2 ++ [.carryOut 1]

/-- Another attempt looks at the file, too; the first one is told of what others have written, and
the store goes offline before it replies to the second. -/
def asksMeanwhile : List Move :=
  editsAndLooks ++ [.go 0 timely, .go 1 timely, .go 2 timely, .others Commons.secondStore] ++
    returns 0 ++ [.others { Commons.secondStore with available := false }, .carryOut 1]

/-- **Attempts save what they may not**: a document that has been marked read-only since they
looked, one that has no changes left, and one about which the user is being asked. -/
theorem saves_what_it_may_not :
    let x := start (.create {}) Commons.firstStore
    (BeginsSave 0 2 (x.run marksReadOnly) ((x.run marksReadOnly).step (.go 1 timely)) ∧
      (((x.run marksReadOnly).step (.go 1 timely)).session.context 0).model =
        ⟨.text "mine", true, true⟩) ∧
    (BeginsSave 0 2 (x.run savesMeanwhile) ((x.run savesMeanwhile).step (.go 1 timely)) ∧
      (((x.run savesMeanwhile).step (.go 1 timely)).session.context 0).model =
        ⟨.text "mine", false, false⟩) ∧
    BeginsSave 0 3 (x.run asksMeanwhile) ((x.run asksMeanwhile).step (.go 1 timely)) ∧
      (((x.run asksMeanwhile).step (.go 1 timely)).session.coordinator 0).arbitrating = true ∧
      ((x.run asksMeanwhile).step (.go 1 timely)).errands.filterMap (·.process.prompt?) =
        [⟨"a", some 1, 2⟩] := by
  decide +kernel

end Traffic

end Folio
