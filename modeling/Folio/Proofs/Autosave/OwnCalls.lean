/-
# What a context learns of its own calls

A context knows a version of its file, the one that its last call has told it.  A call in flight
accords with that (`Need.Accords`): it is at the path of the context, whoever writes has begun when
the version that was there was known, and the reply, once there is one, is of the version that is
known, if the call has read the file, or has made the version that is there, if it has written it.

So who has written the file makes the version that is there known when it returns
(`Process.written`), and who has not leaves all as it is and asks nobody (`Process.begins`).  To
restore a checkpoint is to write the file and then to reload it; the version that is there is known
when it is reloaded.
-/
import Folio.Proofs.Autosave.Dealing
import Folio.Proofs.Autosave.Overwriting
import Folio.Proofs.Saving.Versions
import Folio.Proofs.Store.Calls
import Folio.Proofs.Traffic.Saves

namespace Folio

/-! ## 1. Versions -/

/-- The version of the file that the context knows: when it was last modified. -/
def Context.known (c : Context) : Option Int := c.remote.map (·.lastModified)

namespace MemoryStore

variable {s t : MemoryStore}

theorem version?_revise (s : MemoryStore) (path : String) (content : Content) :
    (s.revise path content).version? path = some s.nextTime := by
  simp only [revise, version?, Table.get?_put, if_true]
  split <;> rfl

/-- A read reports the version that is there. -/
theorem version?_of_read_ok {path : String} {withContent : Bool} {file : RemoteFile}
    (h : s.read path withContent = .ok file) :
    s.version? path = some file.metadata.lastModified := by
  obtain ⟨f, found, rfl⟩ := get?_of_read h
  rw [version?, found]
  rfl

/-- To take a checkpoint changes no version. -/
theorem version?_createCheckpoint (s : MemoryStore) (path other : String) :
    (s.createCheckpoint path).1.version? other = s.version? other := by
  simpa [version?, Option.map_map, Function.comp_def] using
    congrArg (Option.map fun v : Metadata × Content => v.1.lastModified)
      (s.get?_createCheckpoint path other)

end MemoryStore

/-! ## 2. Calls in flight -/

namespace Need

/-- The file is read. -/
def readsFile : Need → Bool
  | .store (.get _ _) => true
  | _ => false

/-- The file is written, moved or deleted. -/
def writesFile : Need → Bool
  | .store (.save _ _) => true
  | .store (.rename _ _) => true
  | .store (.delete _) => true
  | .store (.restoreCheckpoint _ _) => true
  | _ => false

/-- The path of the file that is read or written. -/
def place? : Need → Option String
  | .store (.get path _) => some path
  | .store (.save path _) => some path
  | .store (.rename path _) => some path
  | .store (.delete path) => some path
  | .store (.restoreCheckpoint path _) => some path
  | _ => none

/-- The path to which a file is moved. -/
def target? : Need → Option String
  | .store (.rename _ target) => some target
  | _ => none

/-- **The reply agrees** with what a context at a path knows and with what the store has.  Who reads
is told of what is known, or, after it has restored a checkpoint, of what is there; who writes has
made the version that is there, or has changed nothing. -/
def Agrees (path : String) (known : Option Int) (store : MemoryStore) (restored : Bool) :
    (n : Need) → n.Answer → Prop
  | .store (.get _ _), .ok file =>
    (if restored then store.version? path else known) = some file.metadata.lastModified
  | .store (.save _ _), .ok m => store.version? path = some m.lastModified
  | .store (.save _ _), .error _ => known = store.version? path
  | .store (.rename _ target), .ok m => store.version? target = some m.lastModified
  | .store (.rename _ _), .error _ => known = store.version? path
  | .store (.restoreCheckpoint _ _), .ok () => restored = true
  | .store (.restoreCheckpoint _ _), .error _ => known = store.version? path
  | _, _ => True

/-- **A call in flight accords** with a context and the store: it is at the path of the context, and
who writes has begun when the version that is there was known; and the reply agrees. -/
def Accords (path : String) (known : Option Int) (store : MemoryStore) (restored : Bool)
    (n : Need) : Option n.Answer → Prop
  | none => (∀ p ∈ n.place?, p = path) ∧ (n.writesFile = true → known = store.version? path)
  | some reply => n.Agrees path known store restored reply

variable {path : String} {known : Option Int} {store : MemoryStore} {restored : Bool} {n : Need}

/-- What neither reads nor writes the file accords with everything. -/
theorem accords_of_idle (reads : n.readsFile = false) (writes : n.writesFile = false)
    (reply : Option n.Answer) : n.Accords path known store restored reply := by
  cases n with
  | store request =>
    cases request with
    | createCheckpoint p => cases reply with
      | none => exact ⟨nofun, nofun⟩
      | some r => cases r <;> trivial
    | listCheckpoints p => cases reply with
      | none => exact ⟨nofun, nofun⟩
      | some r => cases r <;> trivial
    | get p withContent => cases reads
    | _ => cases writes
  | _ => cases reply with
    | none => exact ⟨nofun, nofun⟩
    | some r => trivial

/-- What a process gets agrees. -/
theorem Accords.agrees {reply : Option n.Answer}
    (accords : n.Accords path known store restored reply)
    {oracle : Oracle} {answer : n.Answer} (ready : n.answer? oracle reply = some answer) :
    n.Agrees path known store restored answer := by
  cases n with
  | store request =>
    obtain rfl : reply = some answer := ready
    exact accords
  | _ => trivial

/-- What becomes of other files makes no difference. -/
theorem Accords.congr {store' : MemoryStore} {reply : Option n.Answer}
    (accords : n.Accords path known store restored reply)
    (here : store'.version? path = store.version? path)
    (there : ∀ target ∈ n.target?, store'.version? target = store.version? target) :
    n.Accords path known store' restored reply := by
  cases reply with
  | none => exact ⟨accords.1, fun writes => (accords.2 writes).trans here.symm⟩
  | some reply =>
    cases n with
    | store request =>
      cases request with
      | get p withContent =>
        cases reply with
        | error e => trivial
        | ok file => simpa only [Accords, Agrees, here] using accords
      | rename p target =>
        cases reply with
        | error e => exact Eq.trans accords here.symm
        | ok m => exact (there target rfl).trans accords
      | save p request =>
        cases reply with
        | error e => exact Eq.trans accords here.symm
        | ok m => exact here.trans accords
      | restoreCheckpoint p id =>
        cases reply with
        | error e => exact Eq.trans accords here.symm
        | ok u => exact accords
      | _ => cases reply <;> trivial
    | _ => trivial

/-- Who does not write leaves the versions as they are. -/
theorem version?_carryOut {store' : MemoryStore} {reply : n.Answer} (writes : n.writesFile = false)
    (done : n.carryOut store = some (store', reply)) (path : String) :
    store'.version? path = store.version? path := by
  cases n with
  | store request =>
    cases request with
    | get p withContent =>
      cases done
      exact MemoryStore.version?_countRead store withContent path
    | createCheckpoint p =>
      obtain rfl : (store.createCheckpoint p).1 = store' :=
        congrArg Prod.fst (Option.some.inj done)
      exact MemoryStore.version?_createCheckpoint store p path
    | listCheckpoints p =>
      cases done
      rfl
    | _ => cases writes
  | _ => cases done

end Need

/-- The store has restored a checkpoint for the process of a number. -/
def Event.restores (n : Nat) : Event → Bool
  | .carried m (.store (.restoreCheckpoint _ _)) (.ok ()) => m == n
  | _ => false

/-- **The store carries out a call that accords**, and its reply agrees; who reads is told of what
is known, if that is what is there. -/
theorem Need.Accords.carryOut {path : String} {known : Option Int} {store store' : MemoryStore}
    {restored : Bool} {n : Need} {reply : n.Answer}
    (accords : n.Accords path known store restored none)
    (current : n.readsFile = true → restored = false → known = store.version? path)
    (done : n.carryOut store = some (store', reply)) (number : Nat) :
    n.Agrees path known store' (restored || (Event.carried number n reply).restores number)
      reply := by
  obtain ⟨place, before⟩ := accords
  cases n with
  | store request =>
    cases request with
    | get p withContent =>
      obtain rfl : p = path := place p rfl
      simp only [Need.carryOut, MemoryStore.perform, Option.some.injEq, Prod.mk.injEq] at done
      obtain ⟨rfl, rfl⟩ := done
      cases got : store.read p withContent with
      | error e => trivial
      | ok file =>
        have told := MemoryStore.version?_of_read_ok got
        have same := MemoryStore.version?_countRead store withContent p
        cases restored with
        | true => exact same.trans told
        | false => exact (current rfl rfl).trans told
    | save p request =>
      obtain rfl : p = path := place p rfl
      simp only [Need.carryOut, MemoryStore.perform] at done
      rcases MemoryStore.commit_cases store.countSave p request.content with ⟨e, he⟩ | hm
      · rw [he] at done
        cases done
        exact before rfl
      · rw [hm] at done
        cases done
        exact MemoryStore.version?_revise store.countSave p request.content
    | rename p target =>
      obtain rfl : p = path := place p rfl
      simp only [Need.carryOut, MemoryStore.perform] at done
      rcases store.rename_cases p target with ⟨e, he⟩ | ⟨f, found, moved⟩
      · rw [he] at done
        cases done
        exact before rfl
      · rw [moved] at done
        cases done
        simp [Agrees, MemoryStore.version?, Table.get?_put]
    | restoreCheckpoint p id =>
      obtain rfl : p = path := place p rfl
      simp only [Need.carryOut, MemoryStore.perform] at done
      rcases store.restoreCheckpoint_cases p id with ⟨e, he⟩ | ⟨content, restored⟩
      · rw [he] at done
        cases done
        exact before rfl
      · rw [restored] at done
        cases done
        simp [Agrees, Event.restores]
    | _ => cases reply <;> trivial
  | _ => cases done

/-! ## 3. Processes -/

/-- The end of the first load or save changes neither the path nor the version that is known. -/
theorem ContextCall.standing_conclude (first : Bool)
    (outcome : Context × Except ContextError Unit) :
    (conclude first outcome).1.path = outcome.1.path ∧
      (conclude first outcome).1.known = outcome.1.known := by
  cases first with
  | false => exact ⟨rfl, rfl⟩
  | true =>
    obtain ⟨state, events, same⟩ := outcome.1.settle_eq outcome.2
    rw [conclude, if_pos rfl, same]
    exact ⟨rfl, rfl⟩

namespace Context

/-- A reload makes what it has read known, or it fails and changes nothing. -/
theorem afterRevert_knows (c : Context) (path : String) (reply : Except StoreError RemoteFile) :
    (∃ e, (c.afterRevert path reply).2 = .error e ∧ (c.afterRevert path reply).1 = c) ∨
      ∃ file, reply = .ok file ∧ (c.afterRevert path reply).2 = .ok () ∧
        (c.afterRevert path reply).1.path = c.path ∧
        (c.afterRevert path reply).1.known = some file.metadata.lastModified := by
  rcases c.afterRevert_cases path reply with ⟨e, failed⟩ | ⟨file, model, replied, done⟩
  · rw [failed]
    exact .inl ⟨e, rfl, rfl⟩
  · rw [done]
    exact .inr ⟨file, replied, rfl, rfl, rfl⟩

end Context

/-- The call restores a checkpoint, or may follow when one was restored. -/
def ContextCall.mayRestore : ContextCall → Bool
  | .restoring _ _ => true
  | .reverting _ _ => true
  | _ => false

/-- **A call that has written the file** makes the version that is there known, or is followed by a
reload if a checkpoint was restored; and so does that reload, unless it fails. -/
theorem ContextCall.written {context : Context} {store : MemoryStore} {restored : Bool} :
    (call : ContextCall) → (reply : call.request.Reply) →
    (Need.store call.request).Agrees context.path context.known store restored reply →
    ((Need.store call.request).writesFile = true ∨
      ((Need.store call.request).readsFile = true ∧ restored = true)) →
    (restored = true → call.mayRestore = true) →
    (resume context call reply = (context, .again (.reverting context.path false)) ∧
        restored = true) ∨
      ∃ after result, resume context call reply = (after, .done result) ∧
        (after.known = store.version? after.path ∨ (restored = true ∧ ∃ e, result = .error e))
  | .saving path request first, reply, agrees, _, _ => by
    obtain ⟨there, known⟩ := standing_conclude first (context.afterSave reply)
    refine .inr ⟨(conclude first (context.afterSave reply)).1, _, rfl, .inl ?_⟩
    rw [there, known]
    cases reply with
    | error e => exact agrees
    | ok m => exact Eq.symm agrees
  | .reverting path first, reply, agrees, writes, _ => by
    obtain rfl : restored = true := by
      rcases writes with writes | ⟨-, writes⟩
      · cases writes
      · exact writes
    obtain ⟨there, known⟩ := standing_conclude first (context.afterRevert path reply)
    refine .inr ⟨(conclude first (context.afterRevert path reply)).1, _, rfl, ?_⟩
    rcases context.afterRevert_knows path reply with ⟨e, failed, -⟩ | ⟨file, rfl, -, place, told⟩
    · exact .inr ⟨rfl, e, by rw [failed]; rfl⟩
    · refine .inl ?_
      rw [there, known, place, told]
      exact Eq.symm agrees
  | .renaming path target, .error e, agrees, _, _ => .inr ⟨_, _, rfl, .inl agrees⟩
  | .renaming path target, .ok m, agrees, _, _ => by
    have moved : (context.followMove target).path = target := by
      unfold Context.followMove
      split
      · assumption
      · rfl
    refine .inr ⟨_, _, rfl, .inl ?_⟩
    show some m.lastModified = store.version? (context.followMove target).path
    rw [moved]
    exact Eq.symm agrees
  | .restoring path id, .error e, agrees, _, _ => .inr ⟨_, _, rfl, .inl agrees⟩
  | .restoring path id, .ok (), agrees, _, _ => by
    have restored : restored = true := agrees
    simp only [resume]
    cases begun : ContextOp.revert.begin context with
    | ok call =>
      obtain ⟨-, rfl⟩ := ContextOp.of_begin begun
      exact .inl ⟨rfl, restored⟩
    | error e => exact .inr ⟨_, _, rfl, .inr ⟨restored, e, rfl⟩⟩
  | .fetching path, _, _, writes, restores => by
    rcases writes with writes | ⟨-, restored⟩
    · cases writes
    · cases restores restored
  | .checkpointing path, _, _, writes, _ => by
    rcases writes with writes | ⟨writes, -⟩ <;> cases writes
  | .listing path, _, _, writes, _ => by
    rcases writes with writes | ⟨writes, -⟩ <;> cases writes

/-- **Who asks** has been told of a version that is not known. -/
theorem Attempt.unknown_of_asks {s : Scene} {path : String} {file : RemoteFile}
    {prompt : ConflictPrompt}
    (h : (Attempt.resume s (.checking path) (.ok file)).2 = some (.asking prompt)) :
    s.context.known ≠ some file.metadata.lastModified := by
  intro known
  have known : s.context.remote.map (·.lastModified) = some file.metadata.lastModified := known
  simp only [Attempt.resume, afterCheck, known, if_true, beginSave] at h
  split at h <;> cases h

namespace Process

variable {s : Session} {c : ContextId} {p : Process}

/-- **What a process makes of its context** when it goes on. -/
def effect (context : Context) : (p : Process) → p.need.Answer → Context
  | .calling _ call, reply => (ContextCall.resume context call reply).1
  | .loading _ call, reply => (ContextCall.resume context call reply).1
  | .attempt _ (.reverting path), reply => (context.afterRevert path reply).1
  | .attempt _ (.saving _ _ _), reply => (context.afterSave reply).1
  | _, _ => context

theorem context_effect (made : c < s.contexts.length) (deals : p.dealsWith s c = true)
    (answer : p.need.Answer) : (p.resume s answer).1.context c = p.effect (s.context c) answer := by
  cases p with
  | operation d op => simp only [resume]; split <;> rfl
  | calling d call =>
    obtain rfl := beq_iff_eq.mp deals
    exact context_calling made call answer
  | load k isNew => simp only [resume]; split <;> rfl
  | loading k call =>
    obtain rfl := beq_iff_eq.mp deals
    simp only [resume, resumeLoad, effect]
    split
    · next h =>
      rw [h]
      exact Session.context_setContext _ made
    · next context result h =>
      rw [h]
      cases result with
      | error e => exact Session.context_setContext _ made
      | ok r =>
        simp only [finishLoad, finish]
        split
        · rw [Session.context_startCoordinator]
          exact Session.context_setContext context made
        · exact Session.context_setContext context made
  | attempt k a =>
    obtain rfl := beq_iff_eq.mp deals
    rw [context_attempt made]
    cases a with
    | due => exact Attempt.context_resume_due _
    | checking path => exact Attempt.context_resume_checking _ path answer
    | asking prompt => exact Attempt.context_resume_asking _ prompt answer
    | reverting path => rfl
    | saving since path request => exact Attempt.context_afterSave _ since answer
  | _ => cases deals

variable {context : Context} {store : MemoryStore} {restored : Bool} {answer : p.need.Answer}

/-- **Who does not write the file**, and has not restored a checkpoint, leaves the path and the
version that is known. -/
theorem standing_effect (agrees : p.need.Agrees context.path context.known store restored answer)
    (writes : p.need.writesFile = false) (plain : (p.need.readsFile && restored) = false) :
    (p.effect context answer).path = context.path ∧
      (p.effect context answer).known = context.known := by
  have reverted (path : String) (reply : Except StoreError RemoteFile)
      (told : ∀ file, reply = .ok file → context.known = some file.metadata.lastModified) :
      (context.afterRevert path reply).1.path = context.path ∧
        (context.afterRevert path reply).1.known = context.known := by
    rcases context.afterRevert_knows path reply with ⟨e, -, same⟩ | ⟨file, ok, -, there, known⟩
    · rw [same]
      exact ⟨rfl, rfl⟩
    · exact ⟨there, known.trans (told file ok).symm⟩
  have called (call : ContextCall) (reply : call.request.Reply)
      (agrees : (Need.store call.request).Agrees context.path context.known store restored reply)
      (writes : (Need.store call.request).writesFile = false)
      (plain : ((Need.store call.request).readsFile && restored) = false) :
      (ContextCall.resume context call reply).1.path = context.path ∧
        (ContextCall.resume context call reply).1.known = context.known := by
    cases call with
    | reverting path first =>
      obtain rfl : restored = false := plain
      obtain ⟨there, known⟩ := ContextCall.standing_conclude first (context.afterRevert path reply)
      obtain ⟨there', known'⟩ := reverted path reply fun file ok => by
        subst ok
        exact agrees
      exact ⟨there.trans there', known.trans known'⟩
    | fetching path => exact ⟨rfl, rfl⟩
    | checkpointing path => exact ⟨rfl, rfl⟩
    | listing path => exact ⟨rfl, rfl⟩
    | _ => cases writes
  cases p with
  | calling d call => exact called call answer agrees writes plain
  | loading k call => exact called call answer agrees writes plain
  | attempt k a =>
    cases a with
    | reverting path =>
      obtain rfl : restored = false := plain
      exact reverted path answer fun file ok => by
        subst ok
        exact agrees
    | saving since path request => cases writes
    | _ => exact ⟨rfl, rfl⟩
  | _ => exact ⟨rfl, rfl⟩

/-- **Who has written the file** makes the version that is there known, or goes on to reload it if
it has restored a checkpoint; and so does whoever reloads it then, unless that fails. -/
theorem written (deals : p.dealsWith s c = true) {answer : p.need.Answer}
    (agrees : p.need.Agrees (s.context c).path (s.context c).known store restored answer)
    (writes : p.need.writesFile = true ∨ (p.need.readsFile = true ∧ restored = true))
    (calls : restored = true → ∃ d call, p = .calling d call ∧ call.mayRestore = true)
    (finishes : restored = true → ∀ e, (p.resume s answer).2 ≠ .inr (.context (.error e))) :
    ((p.resume s answer).2 = .inl (.calling c (.reverting (s.context c).path false)) ∧
        restored = true ∧ p.effect (s.context c) answer = s.context c) ∨
      ∃ outcome, (p.resume s answer).2 = .inr outcome ∧
        (p.effect (s.context c) answer).known =
          store.version? (p.effect (s.context c) answer).path := by
  cases p with
  | calling d call =>
    obtain rfl := beq_iff_eq.mp deals
    have restores (restored : restored = true) : call.mayRestore = true := by
      obtain ⟨d', call', same, may⟩ := calls restored
      cases same
      exact may
    rcases ContextCall.written call answer agrees writes restores with
      ⟨again, restored⟩ | ⟨after, result, done, known⟩
    · refine .inl ⟨?_, restored, ?_⟩
      · simp only [resume, again]
      · simp only [effect, again]
    · have ends : ((Process.calling d call).resume s answer).2 = .inr (.context result) := by
        simp only [resume, done]
      refine .inr ⟨_, ends, ?_⟩
      simp only [effect, done]
      rcases known with known | ⟨restored, e, rfl⟩
      · exact known
      · exact absurd ends (finishes restored e)
  | loading k call =>
    obtain rfl := beq_iff_eq.mp deals
    have plain : restored ≠ true := fun restored => by
      obtain ⟨d, other, same, -⟩ := calls restored
      cases same
    rcases ContextCall.written call answer agrees writes (absurd · plain) with
      ⟨-, restored⟩ | ⟨after, result, done, known⟩
    · exact absurd restored plain
    · refine .inr ⟨.silent, ?_, ?_⟩
      · simp only [resume, resumeLoad, done]
        cases result <;> rfl
      · simp only [effect, done]
        rcases known with known | ⟨restored, -⟩
        · exact known
        · exact absurd restored plain
  | attempt k a =>
    obtain rfl := beq_iff_eq.mp deals
    cases a with
    | saving since path request =>
      refine .inr ⟨.silent, rfl, ?_⟩
      cases answer with
      | error e => exact agrees
      | ok m => exact Eq.symm agrees
    | _ =>
      rcases writes with writes | ⟨-, restored⟩
      · cases writes
      · obtain ⟨d, other, same, -⟩ := calls restored
        cases same
  | operation d op => rcases writes with writes | ⟨writes, -⟩ <;> cases writes
  | load k isNew => rcases writes with writes | ⟨writes, -⟩ <;> cases writes
  | _ => cases deals

/-- **What follows when nothing was written** is a call at the path of the context, and no question:
an attempt that is told of what is known does not ask. -/
theorem begins (deals : p.dealsWith s c = true) {answer : p.need.Answer}
    (agrees : p.need.Agrees (s.context c).path (s.context c).known store restored answer)
    (writes : p.need.writesFile = false) (plain : (p.need.readsFile && restored) = false)
    (silent : p.prompt? = none) {q : Process} (h : (p.resume s answer).2 = .inl q) :
    (∀ place ∈ q.need.place?, place = (s.context c).path) ∧ q.prompt? = none := by
  have called (op : ContextOp) (call : ContextCall) (begun : op.begin (s.context c) = .ok call) :
      ∀ place ∈ (Need.store call.request).place?, place = (s.context c).path := by
    obtain ⟨-, rfl⟩ := ContextOp.of_begin begun
    rintro place there
    cases op with
    | populate isNew => cases isNew <;> cases there <;> rfl
    | createCheckpoint => cases there
    | listCheckpoints => cases there
    | _ => cases there; rfl
  -- only who has restored a checkpoint makes a further call
  have again (context after : Context) (call next : ContextCall) (reply : call.request.Reply)
      (writes : (Need.store call.request).writesFile = false) :
      ContextCall.resume context call reply ≠ (after, .again next) := fun same => by
    cases call with
    | restoring path id => cases writes
    | _ => simp [ContextCall.resume, ContextCall.conclude] at same
  cases goesOn h with
  | begins begun =>
    obtain rfl := beq_iff_eq.mp deals
    exact ⟨called _ _ begun, rfl⟩
  | again same => exact absurd same (again _ _ _ _ _ writes)
  | loads begun =>
    obtain rfl := beq_iff_eq.mp deals
    exact ⟨called _ _ begun, rfl⟩
  | loadsAgain same => exact absurd same (again _ _ _ _ _ writes)
  | @attempts k a next =>
    obtain rfl := beq_iff_eq.mp deals
    have goesOn := (attempt_continues h).1
    rcases Attempt.next_resume (s.scene k) a answer next goesOn with
      ⟨path, rfl⟩ | ⟨prompt, rfl⟩ | rfl | rfl
    · refine ⟨?_, rfl⟩
      rintro place ⟨⟩
      exact Attempt.of_next_checking goesOn
    · obtain ⟨path, file, given, -, -⟩ := Attempt.of_next_asking goesOn
      obtain ⟨rfl, replied⟩ := Sigma.mk.inj given
      cases eq_of_heq replied
      obtain rfl : restored = false := plain
      exact absurd agrees (Attempt.unknown_of_asks goesOn)
    · refine ⟨?_, rfl⟩
      rintro place ⟨⟩
      rfl
    · refine ⟨?_, rfl⟩
      rintro place ⟨⟩
      rfl
  | sleeps => cases deals
  | wakes => cases deals
  | conducts => cases deals

end Process

/-! ## 4. Restored checkpoints -/

theorem Event.number_of_restores {n : Nat} {e : Event} (h : e.restores n = true) :
    e.number? = some n := by
  unfold restores at h
  split at h
  · exact congrArg some (beq_iff_eq.mp h)
  · cases h

/-- The store has restored a checkpoint for the process of a number. -/
def hasRestored (log : List Event) (n : Nat) : Bool := log.any (·.restores n)

theorem hasRestored_concat (log : List Event) (e : Event) (n : Nat) :
    hasRestored (log ++ [e]) n = (hasRestored log n || e.restores n) := by
  simp [hasRestored]

/-- Only the events of the process count. -/
theorem hasRestored_own (log : List Event) (n : Nat) :
    hasRestored (own n log) n = hasRestored log n := by
  induction log with
  | nil => rfl
  | cons e log ih =>
    simp only [hasRestored, own, List.filter_cons, List.any_cons] at ih ⊢
    split
    · rw [List.any_cons, ih]
    · next other =>
      have no : e.restores n = false := by
        rw [Bool.eq_false_iff]
        intro restores
        exact other (by simp [Event.number_of_restores restores])
      rw [no, ih, Bool.false_or]

/-- A load that goes on loads, and restores no checkpoint. -/
theorem Process.loads_of_continues {s : Session} {p : Process} {answer : p.need.Answer}
    {k : CoordinatorId} {call : ContextCall} (h : (p.resume s answer).2 = .inl (.loading k call))
    (path id : String) : call ≠ .restoring path id := by
  cases goesOn h with
  | @loads k isNew call begun =>
    obtain ⟨-, rfl⟩ := ContextOp.of_begin begun
    cases isNew <;> nofun
  | loadsAgain again =>
    obtain ⟨place, rfl⟩ := ContextCall.exists_reverting_of_again again
    nofun

/-- A checkpoint is only restored for an operation. -/
theorem Process.calling_of_restores {p : Process} {n : Nat} {reply : p.need.Answer}
    (loads : ∀ k call, p = .loading k call → ∀ path id, call ≠ .restoring path id)
    (h : (Event.carried n p.need reply).restores n = true) :
    ∃ d call, p = .calling d call ∧ call.mayRestore = true := by
  cases p with
  | calling d call =>
    cases call with
    | restoring path id => exact ⟨_, _, rfl, rfl⟩
    | _ => cases h
  | loading k call =>
    cases call with
    | restoring path id => exact absurd rfl (loads _ _ rfl path id)
    | _ => cases h
  | attempt k a => cases a <;> cases h
  | manager stage => cases stage <;> cases h
  | _ => cases h

/-- **Whoever has restored a checkpoint** is an operation that does that or reloads the file. -/
theorem Course.of_restored {n : Nat} {h : List Event} {o : Option Errand} (course : Course n h o) :
    ∀ t ∈ o, (∀ k call, t.process = .loading k call → ∀ path id, call ≠ .restoring path id) ∧
      (hasRestored h n = true →
        ∃ d call, t.process = .calling d call ∧ call.mayRestore = true) := by
  induction course with
  | enters fresh =>
    rintro _ ⟨⟩
    refine ⟨fun k call same => ?_, nofun⟩
    obtain rfl := same
    cases fresh
  | @carries h t store store' reply before done ih =>
    rintro _ ⟨⟩
    obtain ⟨loads, calls⟩ := ih t rfl
    refine ⟨loads, fun restored => ?_⟩
    rw [hasRestored_concat, Bool.or_eq_true] at restored
    exact restored.elim calls (Process.calling_of_restores loads)
  | @answers h t reply before ih =>
    rintro _ ⟨⟩
    obtain ⟨loads, calls⟩ := ih t rfl
    refine ⟨loads, fun restored => ?_⟩
    rw [hasRestored_concat, Bool.or_eq_true] at restored
    exact restored.elim calls nofun
  | @goes h t oracle answer before ready s ih =>
    intro u hu
    obtain ⟨-, next, -⟩ := Errand.of_mem_next? hu
    refine ⟨fun k call same => ?_, fun restored => ?_⟩
    · rw [same] at next
      exact Process.loads_of_continues next
    · rw [hasRestored_concat, Bool.or_eq_true] at restored
      obtain ⟨d, call, calling, -⟩ := (ih t rfl).2 (restored.elim id nofun)
      obtain ⟨number, p, reply⟩ := t
      obtain rfl : p = .calling d call := calling
      generalize u.process = q at next ⊢
      cases Process.goesOn next with
      | again again =>
        obtain ⟨path, rfl⟩ := ContextCall.exists_reverting_of_again again
        exact ⟨d, _, rfl, rfl⟩

namespace Traffic

/-- Of the processes under way too. -/
theorem IsCoherent.of_restored {x : Traffic} (h : x.IsCoherent) {t : Errand} (ht : t ∈ x.errands)
    (restored : hasRestored x.log t.number = true) :
    ∃ d call, t.process = .calling d call ∧ call.mayRestore = true := by
  rw [← hasRestored_own] at restored
  exact ((h.underway t ht).of_restored t rfl).2 restored

end Traffic

end Folio
