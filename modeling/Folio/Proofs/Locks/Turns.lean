/-
# Tasks take turns

Tasks go on one step at a time, in any order, and every answer that they get is named by an oracle;
only the locks are granted as the world grants them, in the order in which they were asked for.  So
whatever a scheduler, a store, a user and a host do is a list of turns.

After every turn each lock stands the line of the tasks (`World.InOrder`): who has it is a task
whose process holds it at its stage, or one that has just been let in; who waits for it is a task
that asks for it.
-/
import Folio.Proofs.Locks.Line
import Folio.Host.World

namespace Folio.Host

/-! ## 1. Turns -/

/-- The locks that tasks keep. -/
def Keeps (tasks : List (Nat × Task)) (name : LockName) (id : Nat) (access : Access) : Prop :=
  ∃ t p, (id, t) ∈ tasks ∧ t.activity = .process p ∧ (name, access) ∈ p.holds

/-- The locks that tasks wait for. -/
def Asks (tasks : List (Nat × Task)) (name : LockName) (id : Nat) (access : Access) : Prop :=
  ∃ t p, (id, t) ∈ tasks ∧ t.activity = .process p ∧ p.need = .lock name access ∧
    t.waiting = .queued

/-- **A turn.**  Which task goes on when is not decided here, nor is any answer of the store, the
user, the host or a timer: an oracle names them. -/
inductive Turn where
  /-- Something enters that the host has called. -/
  | enter (p : Process)
  /-- Anything else happens to the session, whatever it is. -/
  | alter (session : Session)
  /-- The task of a number goes on. -/
  | go (id : Nat) (oracle : Oracle)

namespace World

/-- Serves a need: a lock is had when its turn in the queue has come, all else from the oracle. -/
def serveFrom (oracle : Oracle) (w : World) (id : Nat) : (n : Need) → Waiting →
    World × (n.Answer ⊕ Waiting)
  | .lock name access, waiting => w.serve id (.lock name access) waiting
  | n, _ => (w, .inl (oracle n))

/-- Adds a task at the end of the table. -/
def putBack (w : World) (id : Nat) (t : Task) : World := { w with tasks := w.tasks ++ [(id, t)] }

/-- Adding a task leaves the locks. -/
theorem lock_putBack (w : World) (id : Nat) (t : Task) (name : LockName) :
    (w.putBack id t).lock name = w.lock name := by
  cases name <;> rfl

theorem lock_setLock (w : World) (name other : LockName) (l : Lock) :
    (w.setLock name l).lock other = if other = name then l else w.lock other := by
  cases name <;> cases other <;> rfl

/-- **A task goes on**, by one step: it gets what it waits for and does what it does with that, or
it waits. -/
def goOn (w : World) (id : Nat) (oracle : Oracle) : World :=
  match w.tasks.lookup id with
  | none => w
  | some t =>
    match t.activity with
    | .process p =>
      match { w with tasks := w.tasks.filter (·.1 != id) }.serveFrom oracle id p.need t.waiting with
      | (w, .inr waiting) => w.putBack id { t with waiting }
      | (w, .inl answer) =>
        match p.resume w.session answer with
        | (session, .inl p) =>
          (w.takeOver session id p.holds).putBack id
            { t with activity := .process p, waiting := .fresh }
        | (session, .inr _) => w.takeOver session id []
    | _ => w

/-- **One turn.** -/
def turn (w : World) : Turn → World
  | .enter p => if p.isCall then w.spawn { activity := .process p } else w
  | .alter session => { w with session }
  | .go id oracle => w.goOn id oracle

/-- **Turn after turn.** -/
def takeTurns (w : World) (turns : List Turn) : World := turns.foldl turn w

end World

/-! ## 2. What a turn does to tasks and locks -/

theorem keeps_append {a b : List (Nat × Task)} {name : LockName} {id : Nat} {access : Access} :
    Keeps (a ++ b) name id access ↔ Keeps a name id access ∨ Keeps b name id access := by
  simp only [Keeps, List.mem_append, or_and_right, exists_or]

theorem asks_append {a b : List (Nat × Task)} {name : LockName} {id : Nat} {access : Access} :
    Asks (a ++ b) name id access ↔ Asks a name id access ∨ Asks b name id access := by
  simp only [Asks, List.mem_append, or_and_right, exists_or]

theorem keeps_singleton {t : Task} {p : Process} (does : t.activity = .process p) {name : LockName}
    {i id : Nat} {access : Access} :
    Keeps [(id, t)] name i access ↔ i = id ∧ (name, access) ∈ p.holds := by
  constructor
  · rintro ⟨u, q, member, does', kept⟩
    obtain ⟨rfl, rfl⟩ := Prod.mk.inj (List.mem_singleton.mp member)
    obtain rfl : p = q := Activity.process.inj (does.symm.trans does')
    exact ⟨rfl, kept⟩
  · rintro ⟨rfl, kept⟩
    exact ⟨t, p, List.mem_singleton.mpr rfl, does, kept⟩

theorem asks_singleton {t : Task} {p : Process} (does : t.activity = .process p) {name : LockName}
    {i id : Nat} {access : Access} :
    Asks [(id, t)] name i access ↔ i = id ∧ p.need = .lock name access ∧ t.waiting = .queued := by
  constructor
  · rintro ⟨u, q, member, does', asked⟩
    obtain ⟨rfl, rfl⟩ := Prod.mk.inj (List.mem_singleton.mp member)
    obtain rfl : p = q := Activity.process.inj (does.symm.trans does')
    exact ⟨rfl, asked⟩
  · rintro ⟨rfl, asked⟩
    exact ⟨t, p, List.mem_singleton.mpr rfl, does, asked⟩

/-- The numbers of the tasks are different, and new ones get higher numbers. -/
def Numbered (tasks : List (Nat × Task)) (next : Nat) : Prop :=
  (tasks.map (·.1)).Nodup ∧ ∀ e ∈ tasks, e.1 < next

theorem Numbered.filter {tasks : List (Nat × Task)} {next : Nat} (h : Numbered tasks next)
    (test : Nat × Task → Bool) : Numbered (tasks.filter test) next :=
  ⟨h.1.sublist (List.filter_sublist.map _), fun e he => h.2 e (List.mem_of_mem_filter he)⟩

theorem Numbered.concat {tasks : List (Nat × Task)} {next next' id : Nat} (h : Numbered tasks next)
    (other : ∀ e ∈ tasks, e.1 ≠ id) (new : id < next') (more : next ≤ next') (t : Task) :
    Numbered (tasks ++ [(id, t)]) next' := by
  refine ⟨?_, fun e he => ?_⟩
  · rw [List.map_append, List.nodup_append]
    refine ⟨h.1, List.nodup_singleton _, fun i hi j hj => ?_⟩
    obtain ⟨e, he, rfl⟩ := List.mem_map.mp hi
    obtain rfl : j = id := List.mem_singleton.mp hj
    exact other e he
  · rcases List.mem_append.mp he with he | he
    · exact Nat.lt_of_lt_of_le (h.2 e he) more
    · rw [List.mem_singleton.mp he]
      exact new

namespace World

/-- Background work that is taken over holds no lock and asks for none. -/
def AddsWork (w w' : World) : Prop :=
  (∀ name, w'.lock name = w.lock name) ∧
  (∀ name i a, Keeps w'.tasks name i a ↔ Keeps w.tasks name i a) ∧
  (∀ name i a, Asks w'.tasks name i a ↔ Asks w.tasks name i a) ∧
  (∀ e ∈ w'.tasks, e ∈ w.tasks ∨ w.nextTask ≤ e.1) ∧ w.nextTask ≤ w'.nextTask ∧
  (Numbered w.tasks w.nextTask → Numbered w'.tasks w'.nextTask)

theorem AddsWork.refl (w : World) : w.AddsWork w :=
  ⟨fun _ => rfl, fun _ _ _ => Iff.rfl, fun _ _ _ => Iff.rfl, fun _ h => .inl h, Nat.le_refl _, id⟩

theorem AddsWork.trans {u v w : World} (first : u.AddsWork v) (second : v.AddsWork w) :
    u.AddsWork w := by
  obtain ⟨l, k, a, m, n, o⟩ := first
  obtain ⟨l', k', a', m', n', o'⟩ := second
  refine ⟨fun name => (l' name).trans (l name), fun name i b => (k' name i b).trans (k name i b),
    fun name i b => (a' name i b).trans (a name i b), fun e he => ?_, Nat.le_trans n n', o' ∘ o⟩
  rcases m' e he with he | later
  · exact m e he
  · exact .inr (Nat.le_trans n later)

/-- **A process that enters** holds no lock and asks for none. -/
theorem addsWork_spawn (w : World) (p : Process) (free : p.holds = [])
    (idle : ∀ name access, p.need ≠ .lock name access) :
    w.AddsWork (w.spawn { activity := .process p }) := by
  refine ⟨fun name => by cases name <;> rfl, fun name i a => ?_, fun name i a => ?_, fun e he => ?_,
    Nat.le_succ _, fun numbered => ?_⟩
  · rw [spawn, keeps_append, keeps_singleton rfl, free]
    simp
  · rw [spawn, asks_append, asks_singleton rfl]
    simp [idle]
  · rcases List.mem_append.mp he with he | he
    · exact .inl he
    · rw [List.mem_singleton.mp he]
      exact .inr (Nat.le_refl _)
  · exact numbered.concat (fun e he => Nat.ne_of_lt (numbered.2 e he)) (Nat.lt_succ_self _)
      (Nat.le_succ _) _

/-- What is logged alters neither tasks nor locks. -/
theorem addsWork_logLifecycle (w : World) : w.AddsWork w.logLifecycle := by
  have notes : ∀ (news : List LifecycleEvent) (w : World),
      ∃ log, news.foldl (fun w e => w.note (.lifecycle e)) w = { w with log } := by
    intro news
    induction news with
    | nil => exact fun w => ⟨w.log, rfl⟩
    | cons e news ih =>
      intro w
      obtain ⟨log, same⟩ := ih (w.note (.lifecycle e))
      exact ⟨log, same⟩
  obtain ⟨log, same⟩ := notes (w.session.lifecycle.drop w.told) w
  rw [logLifecycle, same]
  refine ⟨fun name => ?_, fun _ _ _ => Iff.rfl, fun _ _ _ => Iff.rfl, fun _ h => .inl h,
    Nat.le_refl _, id⟩
  cases name <;> rfl

theorem addsWork_spawnStarted (w : World) : w.AddsWork w.spawnStarted := by
  have spawns : ∀ (works : List Background) (w : World),
      w.AddsWork
        (works.foldl (fun w b => w.spawn { activity := .process (.ofBackground b) }) w) := by
    intro works
    induction works with
    | nil => exact AddsWork.refl
    | cons b works ih =>
      intro w
      have first := w.addsWork_spawn (.ofBackground b) (by cases b <;> rfl)
        (fun name access => by cases b <;> exact Need.noConfusion)
      exact first.trans (ih _)
  exact spawns w.session.started { w with session.started := [] }

/-- **A step is taken over**: tasks are added that have nothing to do with locks, and the task gives
back what it does not keep. -/
theorem takeOver_addsWork (w : World) (session : Session) (id : Nat)
    (kept : List (LockName × Access)) :
    ∃ v, w.AddsWork v ∧ (w.takeOver session id kept).tasks = v.tasks ∧
      (w.takeOver session id kept).nextTask = v.nextTask ∧
      ∀ name, (w.takeOver session id kept).lock name =
        if kept.any (·.1 == name) then w.lock name else (w.lock name).release id := by
  let v := ({ w with session } : World).logLifecycle.spawnStarted
  have adds : w.AddsWork v :=
    (addsWork_logLifecycle { w with session }).trans (addsWork_spawnStarted _)
  have released : ∀ u : World, (u.releaseExcept id kept).tasks = u.tasks ∧
      (u.releaseExcept id kept).nextTask = u.nextTask ∧
      ∀ name, (u.releaseExcept id kept).lock name =
        if kept.any (·.1 == name) then u.lock name else (u.lock name).release id := by
    intro u
    simp only [releaseExcept, List.foldl_cons, List.foldl_nil]
    refine ⟨?_, ?_, fun name => ?_⟩
    · split <;> split <;> rfl
    · split <;> split <;> rfl
    · cases name <;> split <;> split <;> rfl
  obtain ⟨tasks, next, locks⟩ := released v
  refine ⟨v, adds, tasks, next, fun name => ?_⟩
  have same : (w.takeOver session id kept).lock name = (v.releaseExcept id kept).lock name := by
    cases name <;> rfl
  rw [same, locks, adds.1]

/-! ## 3. The locks of a world -/

/-- **Each lock stands the line of the tasks.** -/
structure InOrder (w : World) : Prop where
  numbered : Numbered w.tasks w.nextTask
  inLine : ∀ name, InLine (Keeps w.tasks name) (Asks w.tasks name) (w.lock name)

namespace InOrder

variable {w v : World} {id : Nat} {t : Task} {p : Process}

theorem addsWork (h : w.InOrder) (adds : w.AddsWork v) : v.InOrder := by
  obtain ⟨locks, keeps, asks, -, -, numbered⟩ := adds
  refine ⟨numbered h.numbered, fun name => ?_⟩
  rw [locks]
  exact (h.inLine name).congr (keeps name) (asks name)

/-- A task is taken out of the table and put back behind the others. -/
theorem perm (h : w.InOrder) (member : (id, t) ∈ w.tasks) :
    ({ w with tasks := w.tasks.filter (·.1 != id) }.putBack id t).InOrder := by
  have same : ∀ e, e ∈ w.tasks.filter (·.1 != id) ++ [(id, t)] ↔ e ∈ w.tasks := by
    intro e
    rw [List.mem_append, List.mem_filter, bne_iff_ne, List.mem_singleton]
    constructor
    · rintro (⟨he, -⟩ | rfl)
      · exact he
      · exact member
    · intro he
      by_cases here : e.1 = id
      · exact .inr (List.inj_on_of_nodup_map h.numbered.1 he member here)
      · exact .inl ⟨he, here⟩
  refine ⟨(h.numbered.filter _).concat (fun e he => ?_) (h.numbered.2 _ member) (Nat.le_refl _) t,
    fun name => ?_⟩
  · exact bne_iff_ne.mp (List.mem_filter.mp he).2
  · let aside : World := { w with tasks := w.tasks.filter (·.1 != id) }
    have lock : aside.lock name = w.lock name := by cases name <;> rfl
    rw [lock_putBack, lock]
    refine (h.inLine name).congr (fun i a => ?_) (fun i a => ?_)
    · simp only [Keeps, putBack, same]
    · simp only [Asks, putBack, same]

theorem numbered_front (h : (v.putBack id t).InOrder) :
    Numbered v.tasks v.nextTask ∧ id < v.nextTask := by
  refine ⟨⟨h.numbered.1.sublist ((List.sublist_append_left _ _).map _), fun e he => ?_⟩, ?_⟩
  · exact h.numbered.2 e (List.mem_append_left _ he)
  · exact h.numbered.2 (id, t) (List.mem_append_right _ (List.mem_singleton.mpr rfl))

/-- The task that is put back is in the table only once. -/
theorem absent (h : (v.putBack id t).InOrder) : ∀ e ∈ v.tasks, e.1 ≠ id := by
  have apart := h.numbered.1
  rw [putBack, List.map_append, List.nodup_append] at apart
  exact fun e he => apart.2.2 e.1 (List.mem_map_of_mem he) id (List.mem_singleton.mpr rfl)

theorem keeps_putBack (h : (v.putBack id t).InOrder) (does : t.activity = .process p)
    {name : LockName} {access : Access} :
    Keeps (v.putBack id t).tasks name id access ↔ (name, access) ∈ p.holds := by
  rw [putBack, keeps_append, keeps_singleton does]
  constructor
  · rintro (⟨u, q, member, -⟩ | ⟨-, kept⟩)
    · exact absurd rfl (h.absent _ member)
    · exact kept
  · exact fun kept => .inr ⟨rfl, kept⟩

theorem asks_putBack (h : (v.putBack id t).InOrder) (does : t.activity = .process p)
    {name : LockName} {access : Access} :
    Asks (v.putBack id t).tasks name id access ↔
      p.need = .lock name access ∧ t.waiting = .queued := by
  rw [putBack, asks_append, asks_singleton does]
  constructor
  · rintro (⟨u, q, member, -⟩ | ⟨-, asked⟩)
    · exact absurd rfl (h.absent _ member)
    · exact asked
  · exact fun asked => .inr ⟨rfl, asked⟩

/-- The others keep what they kept. -/
theorem keeps_front (h : (v.putBack id t).InOrder) (does : t.activity = .process p)
    {name : LockName} {i : Nat} {access : Access} : Keeps v.tasks name i access ↔
      i ≠ id ∧ Keeps (v.putBack id t).tasks name i access := by
  rw [putBack, keeps_append, keeps_singleton does]
  constructor
  · intro kept
    have ⟨_, _, member, _⟩ := kept
    exact ⟨h.absent _ member, .inl kept⟩
  · rintro ⟨other, kept | ⟨same, -⟩⟩
    · exact kept
    · exact absurd same other

/-- The others wait for what they waited for. -/
theorem asks_front (h : (v.putBack id t).InOrder) (does : t.activity = .process p)
    {name : LockName} {i : Nat} {access : Access} : Asks v.tasks name i access ↔
      i ≠ id ∧ Asks (v.putBack id t).tasks name i access := by
  rw [putBack, asks_append, asks_singleton does]
  constructor
  · intro asked
    have ⟨_, _, member, _⟩ := asked
    exact ⟨h.absent _ member, .inl asked⟩
  · rintro ⟨other, asked | ⟨same, -⟩⟩
    · exact asked
    · exact absurd same other

/-- **A task asks for a lock.** -/
theorem request (h : (v.putBack id t).InOrder) (does : t.activity = .process p) {name : LockName}
    {access : Access} (need : p.need = .lock name access) (new : t.waiting ≠ .queued) :
    ((v.setLock name ((v.lock name).request id access)).putBack id
      { t with waiting := .queued }).InOrder := by
  have tasks : (v.setLock name ((v.lock name).request id access)).tasks = v.tasks := by
    cases name <;> rfl
  have next : (v.setLock name ((v.lock name).request id access)).nextTask = v.nextTask := by
    cases name <;> rfl
  have does' : ({ t with waiting := .queued } : Task).activity = .process p := does
  have keeps : ∀ other i a, Keeps (v.tasks ++ [(id, { t with waiting := .queued })]) other i a ↔
      Keeps (v.putBack id t).tasks other i a := by
    intro other i a
    rw [putBack, keeps_append, keeps_append, keeps_singleton does, keeps_singleton does']
  have asks : ∀ other i a, Asks (v.tasks ++ [(id, { t with waiting := .queued })]) other i a ↔
      Asks (v.putBack id t).tasks other i a ∨ i = id ∧ other = name ∧ a = access := by
    intro other i a
    rw [putBack, asks_append, asks_append, asks_singleton does, asks_singleton does', need]
    simp [new, eq_comm]
  obtain ⟨numbered, below⟩ := h.numbered_front
  refine ⟨?_, fun other => ?_⟩
  · rw [putBack, tasks]
    exact numbered.concat h.absent (next ▸ below) (Nat.le_of_eq next.symm) _
  · have line := h.inLine other
    rw [lock_putBack] at line ⊢
    by_cases same : other = name
    · subst same
      have stranger : ∀ a, ¬ Keeps (v.putBack id t).tasks other id a ∧
          ¬ Asks (v.putBack id t).tasks other id a := by
        intro a
        rw [h.keeps_putBack does, h.asks_putBack does]
        exact ⟨p.not_mem_holds_of_need need a, fun asked => new asked.2⟩
      rw [lock_setLock, if_pos rfl]
      refine (line.request id access stranger).congr (fun i a => ?_) (fun i a => ?_)
      · rw [putBack, tasks, keeps]
      · rw [putBack, tasks, asks]
        simp
    · rw [lock_setLock, if_neg same]
      refine line.congr (fun i a => ?_) (fun i a => ?_)
      · rw [putBack, tasks, keeps]
      · rw [putBack, tasks, asks]
        simp [same]

/-- **A task goes on with what it has got**: it keeps some of its locks and gives the others
back. -/
theorem takeOver (h : (v.putBack id t).InOrder) (does : t.activity = .process p)
    (got : ∀ name access, p.need = .lock name access → (id, access) ∈ (v.lock name).holders)
    (session : Session) {kept : List (LockName × Access)}
    (had : ∀ name access, (name, access) ∈ kept → (id, access) ∈ (v.lock name).holders) :
    let y := v.takeOver session id kept
    Numbered y.tasks y.nextTask ∧ id < y.nextTask ∧ (∀ e ∈ y.tasks, e.1 ≠ id) ∧
      ∀ name, InLine (fun i a => Keeps y.tasks name i a ∨ i = id ∧ (name, a) ∈ kept)
        (Asks y.tasks name) (y.lock name) := by
  obtain ⟨u, ⟨-, keeps, asks, members, more, numbers⟩, tasks, next, locks⟩ :=
    takeOver_addsWork v session id kept
  obtain ⟨numbered, below⟩ := h.numbered_front
  intro y
  refine ⟨by rw [tasks, next]; exact numbers numbered, by rw [next]; omega, fun e he => ?_,
    fun name => ?_⟩
  · rcases members e (tasks ▸ he) with he | later
    · exact h.absent e he
    · omega
  · have line := h.inLine name
    rw [lock_putBack] at line
    have keeps' (i : Nat) (a : Access) : Keeps y.tasks name i a ↔
        i ≠ id ∧ Keeps (v.putBack id t).tasks name i a := by
      rw [tasks, keeps, h.keeps_front does]
    have asks' (i : Nat) (a : Access) : Asks y.tasks name i a ↔
        i ≠ id ∧ Asks (v.putBack id t).tasks name i a := by
      rw [tasks, asks, h.asks_front does]
    rw [locks]
    split
    · next stays =>
      obtain ⟨⟨other, access⟩, member, same⟩ := List.any_eq_true.mp stays
      obtain rfl : other = name := beq_iff_eq.mp same
      have holds := had other access member
      refine (line.keep holds).congr (fun i a => ?_) asks'
      rw [keeps']
      refine or_congr_right (and_congr_right fun _ => ?_)
      constructor
      · intro member'
        exact line.access_unique (List.mem_append_left _ (had other a member'))
          (List.mem_append_left _ holds)
      · rintro rfl
        exact member
    · next leaves =>
      have unlisted : ∀ a, (name, a) ∉ kept := fun a member =>
        leaves (List.any_eq_true.mpr ⟨(name, a), member, beq_self_eq_true name⟩)
      -- it waits for nothing: what it asked for it has got
      have served : ∀ e ∈ (v.lock name).queue, e.1 ≠ id := by
        rintro ⟨i, a⟩ waits rfl
        have stands := (line.stands i a).mp (List.mem_append_right _ waits)
        rw [h.asks_putBack does] at stands
        have holds : (i, a) ∈ (v.lock name).holders :=
          stands.elim (line.held i a) fun asked => got name a asked.1
        exact line.not_mem_queue holds _ waits rfl
      refine (line.release id served).congr (fun i a => ?_) asks'
      rw [keeps']
      simp [unlisted]

/-- A lock is asked for once. -/
theorem serve_lock (v : World) (id : Nat) (name : LockName) (access : Access) {waiting : Waiting}
    (new : waiting ≠ .queued) :
    let y := v.setLock name ((v.lock name).request id access)
    v.serve id (.lock name access) waiting =
      (y, if (y.lock name).isHeldBy id then .inl () else .inr .queued) := by
  cases waiting with
  | queued => exact absurd rfl new
  | _ => rfl

/-- **A task is served when its turn has come.**  Whether it gets what it needs or waits, it stands
in line as it should, and what it gets of a lock it holds. -/
theorem serveFrom (h : (v.putBack id t).InOrder) (does : t.activity = .process p) (oracle : Oracle)
    {n : Need} (need : p.need = n) {y : World} {r : n.Answer ⊕ Waiting}
    (served : v.serveFrom oracle id n t.waiting = (y, r)) :
    ∃ waiting, (y.putBack id { t with waiting }).InOrder ∧ (∀ w, r = .inr w → w = waiting) ∧
      ∀ answer, r = .inl answer → ∀ name access, n = .lock name access →
        (id, access) ∈ (y.lock name).holders := by
  cases n with
  | lock name access =>
    -- whoever stands in line and holds the lock holds it as it has asked for it
    have granted : ∀ {y : World}, (y.putBack id { t with waiting := .queued }).InOrder →
        (y.lock name).isHeldBy id = true → (id, access) ∈ (y.lock name).holders := by
      intro y ordered held
      have line := ordered.inLine name
      rw [lock_putBack] at line
      obtain ⟨a, holds⟩ := Lock.isHeldBy_iff.mp held
      have stands : (id, access) ∈ (y.lock name).line :=
        (line.stands id access).mpr (.inr ((ordered.asks_putBack does).mpr ⟨need, rfl⟩))
      exact line.access_unique stands (List.mem_append_left _ holds) ▸ holds
    have outcome : ∃ ordered : (y.putBack id { t with waiting := .queued }).InOrder,
        r = if (y.lock name).isHeldBy id then .inl () else .inr .queued := by
      by_cases queued : t.waiting = .queued
      · rw [queued] at served
        cases served
        refine ⟨?_, rfl⟩
        rwa [← queued]
      · rw [World.serveFrom, serve_lock v id name access queued] at served
        cases served
        exact ⟨h.request does need queued, rfl⟩
    obtain ⟨ordered, rfl⟩ := outcome
    refine ⟨.queued, ordered, fun w waits => ?_, fun answer answered name' access' same => ?_⟩
    · split at waits <;> cases waits
      rfl
    · cases same
      split at answered
      · next held => exact granted ordered held
      · cases answered
  | _ =>
    cases served
    exact ⟨t.waiting, h, nofun, fun _ _ _ _ same => nomatch same⟩

/-- **One step of a task.** -/
theorem goOn (h : w.InOrder) (id : Nat) (oracle : Oracle) : (w.goOn id oracle).InOrder := by
  unfold World.goOn
  split
  · exact h
  · next t found =>
    have member : (id, t) ∈ w.tasks := by
      obtain ⟨before, after, split, -⟩ := List.lookup_eq_some_iff.mp found
      rw [split]
      exact List.mem_append_right _ List.mem_cons_self
    split
    · next p does =>
      have aside := h.perm member
      split
      · next y waiting served =>
        obtain ⟨waiting', ordered, same, -⟩ := aside.serveFrom does oracle rfl served
        rwa [same waiting rfl]
      · next y answer served =>
        obtain ⟨waiting', ordered, -, got⟩ := aside.serveFrom does oracle rfl served
        split
        · next session q resumed =>
          have goesOn : (p.resume y.session answer).2 = .inl q := by rw [resumed]
          have had : ∀ name access, (name, access) ∈ q.holds →
              (id, access) ∈ (y.lock name).holders := by
            intro name access kept
            rcases Process.holds_of_resume goesOn kept with held | need
            · rw [← lock_putBack y id { t with waiting := waiting' }]
              exact (ordered.inLine name).held id access ((ordered.keeps_putBack does).mpr held)
            · exact got answer rfl name access need
          obtain ⟨numbered, below, absent, line⟩ :=
            ordered.takeOver does (got answer rfl) session had
          refine ⟨numbered.concat absent below (Nat.le_refl _) _, fun name => ?_⟩
          refine (line name).congr (fun i a => ?_) (fun i a => ?_)
          · rw [putBack, keeps_append, keeps_singleton rfl]
          · rw [putBack, asks_append, asks_singleton rfl]
            simp
        · next session outcome resumed =>
          have nothing : ∀ name access, (name, access) ∈ ([] : List (LockName × Access)) →
              (id, access) ∈ (y.lock name).holders := nofun
          obtain ⟨numbered, -, -, line⟩ :=
            ordered.takeOver does (got answer rfl) session nothing
          exact ⟨numbered, fun name => (line name).congr (by simp) (fun _ _ => Iff.rfl)⟩
    · exact h

/-- **Every turn keeps the locks in order.** -/
theorem turn (h : w.InOrder) (u : Turn) : (w.turn u).InOrder := by
  cases u with
  | enter p =>
    rw [World.turn]
    split
    · next call =>
      obtain ⟨free, idle⟩ := p.free_of_isCall call
      exact h.addsWork (w.addsWork_spawn p free idle)
    · exact h
  | alter session => exact ⟨h.numbered, fun name => by cases name <;> exact h.inLine _⟩
  | go id oracle => exact h.goOn id oracle

/-- **However tasks take their turns, the locks are in order.** -/
theorem takeTurns (h : w.InOrder) (turns : List Turn) : (w.takeTurns turns).InOrder := by
  induction turns generalizing w with
  | nil => exact h
  | cons u turns ih => exact ih (h.turn u)

/-- In the beginning nothing runs, and the locks are free. -/
theorem start (session : Session) : InOrder { session } := by
  have tasks : ({ session } : World).tasks = [] := rfl
  refine ⟨by simp [Numbered], fun name => ?_⟩
  have line : ({ session } : World).lock name = {} := by cases name <;> rfl
  rw [line, tasks]
  refine ⟨List.nodup_nil, fun id access => ?_, fun id access => ?_, fun first rest => ?_⟩
  · simp [Keeps, Asks, Lock.line]
  · simp [Keeps]
  · simp

end InOrder

end World

end Folio.Host
