/-
# Calls of the manager do not block one another

Calls of the manager run side by side in any number and take their turns in any order.  Two things
keep them from waiting for one another for ever.

* A call that has the bindings goes on at once, and it gives them back by that: no stage holds them.
  So whoever is first in line for the bindings gets on.
* A call that waits for the contexts holds nothing.  So whoever has the contexts waits for the
  bindings at most, or for the store.

Therefore some call can take a step whenever none waits for the store or for the host, and going
from a call to those that it waits for leads from the line for the contexts to the line for the
bindings and never back (`World.depth_lt`).
-/
import Folio.Proofs.Locks.Turns
import Mathlib.Logic.Relation

namespace Folio

/-- A call needs its turn, a lock, the store or the host's word. -/
theorem Stage.need_cases (stage : Stage) :
    stage.need = .turn ∨ (∃ name access, stage.need = .lock name access) ∨
      (∃ request, stage.need = .store request) ∨ ∃ widget, stage.need = .confirm widget := by
  cases stage <;> simp

namespace Host

/-- The stage of a task, if it is a call of the manager. -/
def Task.stage? (t : Task) : Option Stage :=
  match t.activity with
  | .process (.manager stage) => some stage
  | _ => none

theorem Task.activity_of_stage? {t : Task} {stage : Stage} (h : t.stage? = some stage) :
    t.activity = .process (.manager stage) := by
  unfold stage? at h
  split at h
  · next q does =>
    cases h
    exact does
  · cases h

/-- Only calls of the manager need locks. -/
theorem Task.exists_stage_of_need {t : Task} {p : Process} (does : t.activity = .process p)
    {name : LockName} {access : Access} (need : p.need = .lock name access) :
    ∃ stage, t.stage? = some stage ∧ stage.need = .lock name access := by
  cases p with
  | manager stage => exact ⟨stage, by rw [stage?, does], need⟩
  | attempt k stage => cases stage <;> cases need
  | _ => cases need

namespace World

/-- **A call of the manager is in progress**, at a stage. -/
def IsAt (w : World) (id : Nat) (stage : Stage) : Prop :=
  ∃ t, (id, t) ∈ w.tasks ∧ t.stage? = some stage

/-- **A call can take a step**: what it needs is there as soon as its turn comes. -/
def CanStep (w : World) (id : Nat) : Prop :=
  ∃ t stage answer, (id, t) ∈ w.tasks ∧ t.stage? = some stage ∧
    (w.serve id stage.need t.waiting).2 = .inl answer

/-- The calls that wait for a lock, longest first. -/
def waiting (w : World) (name : LockName) : List Nat := (w.lock name).queue.map (·.1)

/-- **One waits for another**: for a lock that the other one has, or is to get first. -/
def WaitsFor (w : World) (a b : Nat) : Prop :=
  ∃ name before after, w.waiting name = before ++ a :: after ∧
    ((w.lock name).isHeldBy b = true ∨ b ∈ before)

/-! ## 1. Somebody gets on -/

namespace InOrder

variable {w : World} {id : Nat} {access : Access}

/-- Whoever waits for a lock asks for it. -/
theorem asks_of_mem_queue (h : w.InOrder) {name : LockName}
    (waits : (id, access) ∈ (w.lock name).queue) : Asks w.tasks name id access := by
  have line := h.inLine name
  rcases (line.stands id access).mp (List.mem_append_right _ waits) with keeps | asks
  · exact absurd rfl (line.not_mem_queue (line.held id access keeps) _ waits)
  · exact asks

/-- Nobody keeps the bindings. -/
theorem not_keeps_bindings (id : Nat) (access : Access) : ¬ Keeps w.tasks .bindings id access := by
  rintro ⟨t, p, -, -, keeps⟩
  cases p with
  | manager stage => exact absurd keeps (stage.bindings_not_mem_holds access)
  | _ => cases keeps

/-- Whoever stands in line for the bindings asks for them: nobody keeps them. -/
theorem asks_of_mem_bindings (h : w.InOrder) (stands : (id, access) ∈ (w.lock .bindings).line) :
    Asks w.tasks .bindings id access := by
  have keepsOrAsks := ((h.inLine .bindings).stands id access).mp stands
  exact keepsOrAsks.resolve_left (not_keeps_bindings id access)

/-- Nobody asks for two locks at a time. -/
theorem not_asks_both (h : w.InOrder) {access' : Access}
    (bindings : Asks w.tasks .bindings id access)
    (contexts : Asks w.tasks .contexts id access') : False := by
  obtain ⟨t, p, member, does, need, -⟩ := bindings
  obtain ⟨t', p', member', does', need', -⟩ := contexts
  cases List.inj_on_of_nodup_map h.numbered.1 member member' rfl
  cases does.symm.trans does'
  cases need.symm.trans need'

/-- A call can take a step if it is served. -/
theorem canStep_of_need {t : Task} {stage : Stage} (member : (id, t) ∈ w.tasks)
    (isAt : t.stage? = some stage) {n : Need} (need : stage.need = n) (answer : n.Answer)
    (served : (w.serve id n t.waiting).2 = .inl answer) : w.CanStep id := by
  subst need
  exact ⟨t, stage, answer, member, isAt, served⟩

/-- Whoever has got a lock can take a step. -/
theorem canStep_of_asks {name : LockName} (asks : Asks w.tasks name id access)
    (holds : (id, access) ∈ (w.lock name).holders) : w.CanStep id := by
  obtain ⟨t, p, member, does, need, queued⟩ := asks
  obtain ⟨stage, isAt, need⟩ := Task.exists_stage_of_need does need
  have held : (w.lock name).isHeldBy id = true := Lock.isHeldBy_iff.mpr ⟨access, holds⟩
  refine canStep_of_need member isAt need () ?_
  rw [queued]
  exact if_pos held

/-- **If somebody needs a lock that nobody keeps, somebody gets on**: the one who has it, or else
whoever asks for it. -/
theorem exists_canStep (h : w.InOrder) {name : LockName}
    (unkept : ∀ id access, ¬ Keeps w.tasks name id access) {stage : Stage} (isAt : w.IsAt id stage)
    (need : stage.need = .lock name access) : ∃ id, w.CanStep id := by
  have line := h.inLine name
  cases holders : (w.lock name).holders with
  | cons first rest =>
    have holds : first ∈ (w.lock name).holders := holders ▸ List.mem_cons_self
    rcases (line.stands first.1 first.2).mp (List.mem_append_left _ holds) with keeps | asks
    · exact absurd keeps (unkept _ _)
    · exact ⟨first.1, canStep_of_asks asks holds⟩
  | nil =>
    have queue : (w.lock name).queue = [] := line.saturated.queue_eq_nil holders
    obtain ⟨t, member, at_stage⟩ := isAt
    have does := Task.activity_of_stage? at_stage
    have new : t.waiting ≠ .queued := by
      intro queued
      have stands := (line.stands id access).mpr (.inr ⟨t, _, member, does, need, queued⟩)
      rw [Lock.line, holders, queue] at stands
      cases stands
    have held : ((w.lock name).request id access).isHeldBy id = true := by
      rw [Lock.request, holders, queue]
      cases access <;> exact List.any_eq_true.mpr ⟨_, List.mem_cons_self, beq_self_eq_true id⟩
    refine ⟨id, canStep_of_need member at_stage need () ?_⟩
    rw [serve_lock w id name access new]
    refine if_pos ?_
    cases name <;> exact held

/-- **Some call can take a step** whenever none waits for the store or for the host. -/
theorem progress (h : w.InOrder) (runs : ∃ id stage, w.IsAt id stage)
    (inside : ∀ id stage, w.IsAt id stage →
      (∀ request, stage.need ≠ .store request) ∧ ∀ widget, stage.need ≠ .confirm widget) :
    ∃ id, w.CanStep id := by
  have needs : ∀ id stage, w.IsAt id stage →
      stage.need = .turn ∨ ∃ name access, stage.need = .lock name access := by
    intro id stage isAt
    rcases stage.need_cases with turn | lock | ⟨request, store⟩ | ⟨widget, confirm⟩
    · exact .inl turn
    · exact .inr lock
    · exact absurd store ((inside id stage isAt).1 request)
    · exact absurd confirm ((inside id stage isAt).2 widget)
  by_cases turns : ∃ id stage, w.IsAt id stage ∧ stage.need = .turn
  · obtain ⟨id, stage, ⟨t, member, isAt⟩, turn⟩ := turns
    exact ⟨id, canStep_of_need member isAt turn () rfl⟩
  by_cases bindings : ∃ id stage access, w.IsAt id stage ∧ stage.need = .lock .bindings access
  · obtain ⟨id, stage, access, isAt, need⟩ := bindings
    exact h.exists_canStep not_keeps_bindings isAt need
  · -- all of them need the contexts, so none of them keeps them
    have contexts : ∀ id stage, w.IsAt id stage →
        ∃ access, stage.need = .lock .contexts access := by
      intro id stage isAt
      rcases needs id stage isAt with turn | ⟨name, access, need⟩
      · exact absurd ⟨id, stage, isAt, turn⟩ turns
      · cases name with
        | contexts => exact ⟨access, need⟩
        | bindings => exact absurd ⟨id, stage, access, isAt, need⟩ bindings
    obtain ⟨id, stage, isAt⟩ := runs
    obtain ⟨access, need⟩ := contexts id stage isAt
    refine h.exists_canStep (fun i a keeps => ?_) isAt need
    obtain ⟨t, p, member, does, kept⟩ := keeps
    cases p with
    | manager q =>
      obtain ⟨access, need⟩ := contexts i q ⟨t, member, by rw [Task.stage?, does]⟩
      rw [Process.holds, Stage.holds_of_need_contexts need] at kept
      cases kept
    | _ => cases kept

end InOrder

/-! ## 2. Nobody waits in a circle -/

namespace InOrder

variable {w : World} {id : Nat}

theorem asks_of_mem_waiting (h : w.InOrder) {name : LockName} (waits : id ∈ w.waiting name) :
    ∃ access, Asks w.tasks name id access := by
  obtain ⟨⟨i, access⟩, member, rfl⟩ := List.mem_map.mp waits
  exact ⟨access, h.asks_of_mem_queue member⟩

/-- Whoever has a lock does not wait for it. -/
theorem not_mem_waiting_of_isHeldBy (h : w.InOrder) {name : LockName}
    (held : (w.lock name).isHeldBy id = true) : id ∉ w.waiting name := by
  intro waits
  obtain ⟨access, holds⟩ := Lock.isHeldBy_iff.mp held
  obtain ⟨e, waits, same⟩ := List.mem_map.mp waits
  exact (h.inLine name).not_mem_queue holds e waits same

/-- Whoever stands in line for the bindings does not wait for the contexts. -/
theorem not_mem_contexts_of_asks (h : w.InOrder) {access : Access}
    (bindings : Asks w.tasks .bindings id access) : id ∉ w.waiting .contexts := by
  intro waits
  obtain ⟨access', contexts⟩ := h.asks_of_mem_waiting waits
  exact h.not_asks_both bindings contexts

theorem nodup_waiting (h : w.InOrder) (name : LockName) : (w.waiting name).Nodup :=
  (h.inLine name).nodup.sublist ((List.sublist_append_right _ _).map _)

end InOrder

/-- **How deep a task stands in the lines**: those that wait for the contexts stand behind all that
wait for the bindings. -/
def depth (w : World) (id : Nat) : Nat :=
  if id ∈ w.waiting .contexts then
    (w.waiting .contexts).idxOf id + (w.waiting .bindings).length + 1
  else if id ∈ w.waiting .bindings then (w.waiting .bindings).idxOf id + 1
  else 0

/-- Whoever stands further in front has the smaller place. -/
theorem idxOf_lt_of_split {ids front back : List Nat} {a b : Nat} (split : ids = front ++ a :: back)
    (apart : ids.Nodup) (before : b ∈ front) : ids.idxOf b < ids.idxOf a := by
  subst split
  have absent : a ∉ front := fun member =>
    (List.nodup_append.mp apart).2.2 a member a List.mem_cons_self rfl
  rw [List.idxOf_append_of_mem before, List.idxOf_append_of_notMem absent, List.idxOf_cons_self]
  exact List.idxOf_lt_length_iff.mpr before

/-- **Whoever one waits for stands less deep.** -/
theorem depth_lt {w : World} (h : w.InOrder) {a b : Nat} (waits : w.WaitsFor a b) :
    w.depth b < w.depth a := by
  obtain ⟨name, front, back, split, ahead⟩ := waits
  have queued : a ∈ w.waiting name := by
    rw [split]
    exact List.mem_append_right _ List.mem_cons_self
  have further : b ∈ front →
      b ∈ w.waiting name ∧ (w.waiting name).idxOf b < (w.waiting name).idxOf a := by
    intro stands
    refine ⟨?_, idxOf_lt_of_split split (h.nodup_waiting name) stands⟩
    rw [split]
    exact List.mem_append_left _ stands
  cases name with
  | contexts =>
    rw [depth, depth, if_pos queued]
    rcases ahead with held | stands
    · -- the one who has the contexts waits for the bindings at most
      rw [if_neg (h.not_mem_waiting_of_isHeldBy held)]
      split
      · next member =>
        have place := List.idxOf_lt_length_iff.mpr member
        omega
      · omega
    · obtain ⟨member, nearer⟩ := further stands
      rw [if_pos member]
      omega
  | bindings =>
    obtain ⟨access, asked⟩ := h.asks_of_mem_waiting queued
    rw [depth, depth, if_neg (h.not_mem_contexts_of_asks asked), if_pos queued]
    rcases ahead with held | stands
    · obtain ⟨access', holds⟩ := Lock.isHeldBy_iff.mp held
      have asked' := h.asks_of_mem_bindings (List.mem_append_left _ holds)
      rw [if_neg (h.not_mem_contexts_of_asks asked'),
        if_neg (h.not_mem_waiting_of_isHeldBy held)]
      omega
    · obtain ⟨member, nearer⟩ := further stands
      obtain ⟨access', asked'⟩ := h.asks_of_mem_waiting member
      rw [if_neg (h.not_mem_contexts_of_asks asked'), if_pos member]
      omega

/-- **No circle of calls that wait for one another.** -/
theorem not_transGen_waitsFor {w : World} (h : w.InOrder) (id : Nat) :
    ¬ Relation.TransGen w.WaitsFor id id := by
  have deeper : ∀ {a b}, Relation.TransGen w.WaitsFor a b → w.depth b < w.depth a := by
    intro a b chain
    induction chain with
    | single waits => exact depth_lt h waits
    | tail _ waits ih => exact Nat.lt_trans (depth_lt h waits) ih
  exact fun circle => Nat.lt_irrefl _ (deeper circle)

/-! ## 3. No deadlock -/

/-- **Calls of the manager never block one another.**  However many of them run and however they
take their turns: if some are in progress and none waits for the store or for the host, one of them
can take a step.  Going from a call to one that it waits for never leads back to it, and no call
waits for a lock that it holds itself. -/
theorem no_deadlock (session : Session) (turns : List Turn) :
    let w := ({ session } : World).takeTurns turns
    ((∃ id stage, w.IsAt id stage) →
      (∀ id stage, w.IsAt id stage →
        (∀ request, stage.need ≠ .store request) ∧ ∀ widget, stage.need ≠ .confirm widget) →
      ∃ id, w.CanStep id) ∧
    (∀ id, ¬ Relation.TransGen w.WaitsFor id id) ∧
    ∀ id stage name access, w.IsAt id stage → stage.need = .lock name access →
      (∀ held, (name, held) ∉ stage.holds) ∧
      (id ∈ w.waiting name → (w.lock name).isHeldBy id = false) := by
  intro w
  have h : w.InOrder := (InOrder.start session).takeTurns turns
  refine ⟨h.progress, not_transGen_waitsFor h, fun id stage name access isAt need => ⟨?_, ?_⟩⟩
  · exact (Process.manager stage).not_mem_holds_of_need need
  · exact fun waits => Bool.eq_false_iff.mpr fun held => h.not_mem_waiting_of_isHeldBy held waits

/-- One call closes everything; another one wants to look at the contexts meanwhile. -/
def looksWhileClosing : List Turn :=
  [.enter (.manager (.called .closeAll)), .enter (.manager (.called .openContexts)),
    .go 1 .obliging, .go 1 .obliging, .go 2 .obliging, .go 2 .obliging]

/-- The second call waits for the first one, which has the contexts and can take a step. -/
theorem no_deadlock_looksWhileClosing :
    let w := ({ session := .create {} } : World).takeTurns looksWhileClosing
    w.IsAt 1 (.clearing false) ∧ w.IsAt 2 (.reading .openContexts) ∧ w.WaitsFor 2 1 ∧
      ∃ id, w.CanStep id := by
  intro w
  have stages : (w.tasks.map fun e => (e.1, e.2.stage?)) =
      [(1, some (.clearing false)), (2, some (.reading .openContexts))] := by decide +kernel
  have isAt : ∀ id stage, w.IsAt id stage ↔
      (id, some stage) ∈ w.tasks.map fun e => (e.1, e.2.stage?) := by
    intro id stage
    simp [IsAt]
  have inside : ∀ id stage, w.IsAt id stage →
      (∀ request, stage.need ≠ .store request) ∧ ∀ widget, stage.need ≠ .confirm widget := by
    intro id stage here
    rw [isAt, stages] at here
    simp only [List.mem_cons, Prod.mk.injEq, Option.some.injEq, List.not_mem_nil, or_false] at here
    rcases here with ⟨-, rfl⟩ | ⟨-, rfl⟩ <;> exact ⟨fun _ => nofun, fun _ => nofun⟩
  have first : w.IsAt 1 (.clearing false) := by
    rw [isAt, stages]
    exact List.mem_cons_self
  have second : w.IsAt 2 (.reading .openContexts) := by
    rw [isAt, stages]
    exact List.mem_cons_of_mem _ List.mem_cons_self
  have waits : w.WaitsFor 2 1 := by
    have queue : w.waiting .contexts = [2] := by decide +kernel
    have held : (w.lock .contexts).isHeldBy 1 = true := by decide +kernel
    exact ⟨.contexts, [], [], queue, .inl held⟩
  exact ⟨first, second, waits, (no_deadlock _ looksWhileClosing).1 ⟨1, _, first⟩ inside⟩

end World

end Host

end Folio
