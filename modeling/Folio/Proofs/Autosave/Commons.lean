/-
# A session whose store others write

A store that a session shares with other clients, each of which may do to it what it likes between
any two steps of the session.  The store does what the session reads and saves at once: while a
process waits for that, nothing else happens.  All else takes its time, the user above all, and is
answered as an oracle says; what a call that takes its time does to the store, and when, is among
the things that others may do.

Every process has a number, which it keeps and which no other has, so that it can be said which
attempt has asked, and which one has saved.
-/
import Folio.Proofs.Ensemble.Basic
import Folio.Proofs.Store.Calls
import Mathlib.Data.List.Induction

namespace Folio

/-! ## 1. The store -/

namespace MemoryStore

/-- The store answers everything, metadata too. -/
def isOnline (s : MemoryStore) : Bool := s.available && s.metadataAvailable

/-- The version of the file at a path: when it was last modified. -/
def version? (s : MemoryStore) (path : String) : Option Int :=
  (s.files.get? path).map fun file => file.metadata.lastModified

end MemoryStore

namespace Need

/-- What is waited for is a read or a save. -/
def isExchange : Need → Bool
  | .store (.get _ _) => true
  | .store (.save _ _) => true
  | _ => false

/-- **What a process gets**: reads and saves the store does, and all else the oracle answers. -/
def serve (store : MemoryStore) (oracle : Oracle) : (n : Need) → MemoryStore × n.Answer
  | .store (.get path withContent) => store.perform (.get path withContent)
  | .store (.save path request) => store.perform (.save path request)
  | n => (store, oracle n)

end Need

/-! ## 2. Commons and their moves -/

/-- **A process with its number.** -/
structure Numbered where
  number : Nat
  process : Process

/-- **A session and a store that it shares.** -/
structure Commons where
  session : Session
  store : MemoryStore
  threads : List Numbered := []
  /-- The number that the next process gets. -/
  next : Nat := 0

/-- **A version that is replaced** by the save of an attempt. -/
structure Replacement where
  /-- The number of the attempt. -/
  attempt : Nat
  coordinator : CoordinatorId
  path : String
  version : Int
  deriving DecidableEq

namespace Commons

/-- **What happens next.** -/
inductive Move where
  | deed (d : Deed)
  /-- A call of the host enters. -/
  | enter (p : Process)
  /-- Others have changed the store. -/
  | others (store : MemoryStore)
  /-- The process at a place goes on. -/
  | go (i : Nat) (oracle : Oracle)

/-- Nobody waits for a read or a save. -/
def idle (x : Commons) : Bool := x.threads.all fun t => !t.process.need.isExchange

/-- The processes other than the one at a place. -/
def others (x : Commons) (i : Nat) : List Numbered := x.threads.eraseIdx i

/-- **The move is possible.**  While a read or a save is waited for, that comes next. -/
def admits (x : Commons) : Move → Bool
  | .deed _ => x.idle
  | .enter p => x.idle && p.isCall
  | .others store => x.idle && store.isOnline
  | .go i _ =>
    match x.threads[i]? with
    | none => false
    | some t =>
      (x.idle || t.process.need.isExchange) &&
        Ensemble.permits ((x.others i).map (·.process)) t.process.need

/-- The session after a step, whose background work enters. -/
def absorb (x : Commons) (session : Session) (threads : List Numbered) : Commons :=
  { x with
    session := { session with started := [] }
    threads := threads ++
      session.started.mapIdx fun j work => { number := x.next + j, process := .ofBackground work }
    next := x.next + session.started.length }

/-- A process enters. -/
def enter (x : Commons) (p : Process) : Commons :=
  { x with threads := x.threads ++ [{ number := x.next, process := p }], next := x.next + 1 }

/-- The state after a process has taken its step. -/
def resumed (x : Commons) (i : Nat) (t : Numbered) (oracle : Oracle) : Commons :=
  let served := t.process.need.serve x.store oracle
  let step := t.process.resume x.session served.2
  absorb { x with store := served.1 } step.1
    (x.others i ++ (Ensemble.continuing step.2).map fun p => { number := t.number, process := p })

/-- **One move**; one that is not possible changes nothing. -/
def step (x : Commons) (m : Move) : Commons :=
  if x.admits m then
    match m with
    | .deed d => absorb x (d.apply x.session) x.threads
    | .enter p => x.enter p
    | .others store => { x with store }
    | .go i oracle =>
      match x.threads[i]? with
      | none => x
      | some t => x.resumed i t oracle
  else x

/-- **A run**: one move after the other. -/
def run (x : Commons) (moves : List Move) : Commons := moves.foldl step x

@[simp] theorem run_nil (x : Commons) : x.run [] = x := rfl

theorem run_append (x : Commons) (first second : List Move) :
    x.run (first ++ second) = (x.run first).run second := List.foldl_append

theorem run_concat (x : Commons) (moves : List Move) (m : Move) :
    x.run (moves ++ [m]) = (x.run moves).step m := by
  rw [run_append]
  rfl

/-- A session in which nothing runs, at a store. -/
def start (session : Session) (store : MemoryStore) : Commons := { session, store }

/-- What the context of a coordinator last read or wrote. -/
def known (x : Commons) (k : CoordinatorId) : Option Int :=
  (x.session.scene k).context.remote.map fun m => m.lastModified

/-- **The version that a move replaces by the save of an attempt**, if it does. -/
def replaces? (x : Commons) (m : Move) : Option Replacement :=
  match m with
  | .go i _ =>
    match x.threads[i]? with
    | some ⟨number, .attempt k (.saving _ path request)⟩ =>
      match (x.store.perform (.save path request)).2 with
      | .ok _ =>
        if x.admits m then
          (x.store.version? path).map fun version => ⟨number, k, path, version⟩
        else none
      | .error _ => none
    | _ => none
  | _ => none

end Commons

/-! ## 3. What a move does to the processes -/

/-- The process has just entered. -/
def Process.isFresh : Process → Bool
  | .operation _ _ => true
  | .load _ _ => true
  | .loop _ _ _ => true
  | .attempt _ .due => true
  | .manager (.called _) => true
  | .awaitReady _ => true
  | .pause _ => true
  | _ => false

theorem Process.isFresh_ofBackground (work : Background) : (ofBackground work).isFresh = true := by
  cases work <;> rfl

theorem Process.isFresh_of_isCall {p : Process} (h : p.isCall = true) : p.isFresh = true := by
  cases p with
  | manager stage =>
    cases stage with
    | called op => rfl
    | _ => cases h
  | operation c op => rfl
  | awaitReady c => rfl
  | pause millis => rfl
  | _ => cases h

/-- Who has just entered waits neither for a read nor for a save. -/
theorem Process.isExchange_of_isFresh {p : Process} (h : p.isFresh = true) :
    p.need.isExchange = false := by
  cases p with
  | attempt k stage =>
    cases stage with
    | due => rfl
    | _ => cases h
  | manager stage =>
    cases stage with
    | called op => rfl
    | _ => cases h
  | operation c op => rfl
  | load k isNew => rfl
  | loop k number place => rfl
  | awaitReady c => rfl
  | pause millis => rfl
  | _ => cases h

/-- A store that does a read or a save stays online. -/
theorem Need.isOnline_serve {store : MemoryStore} (h : store.isOnline = true) (oracle : Oracle) :
    (n : Need) → (n.serve store oracle).1.isOnline = true
  | .store (.get _ withContent) => by cases withContent <;> exact h
  | .store (.save path request) => by
    simp only [serve, MemoryStore.perform]
    rcases store.countSave.commit_cases path request.content with ⟨e, he⟩ | done
    · rw [he]
      exact h
    · rw [done]
      exact h
  | .store (.rename _ _) => h
  | .store (.delete _) => h
  | .store (.createCheckpoint _) => h
  | .store (.listCheckpoints _) => h
  | .store (.restoreCheckpoint _ _) => h
  | .turn => h
  | .lock _ _ => h
  | .ask _ => h
  | .confirm _ => h
  | .tick _ _ _ _ _ => h
  | .readiness _ => h
  | .pause _ => h

namespace Commons

variable {x : Commons}

/-- **Of two processes not both wait for a read or a save.** -/
def Sole (x : Commons) : Prop :=
  x.threads.Pairwise fun t u =>
    t.process.need.isExchange = false ∨ u.process.need.isExchange = false

theorem sole_of_idle {threads : List Numbered}
    (h : ∀ t ∈ threads, t.process.need.isExchange = false) :
    threads.Pairwise fun t u =>
      t.process.need.isExchange = false ∨ u.process.need.isExchange = false :=
  List.pairwise_of_forall_mem_list fun t ht _ _ => Or.inl (h t ht)

theorem isExchange_of_idle (h : x.idle = true) {t : Numbered} (ht : t ∈ x.threads) :
    t.process.need.isExchange = false := by
  have none := List.all_eq_true.mp h t ht
  exact Bool.not_eq_true' _ |>.mp none

/-- When a process goes on, none of the others waits for a read or a save. -/
theorem isExchange_of_others (sole : x.Sole) {i : Nat} {oracle : Oracle} {t : Numbered}
    (ht : x.threads[i]? = some t) (admitted : x.admits (.go i oracle) = true) :
    ∀ u ∈ x.others i, u.process.need.isExchange = false := by
  intro u hu
  simp only [admits, ht, Bool.and_eq_true, Bool.or_eq_true] at admitted
  rcases admitted.1 with idle | exchange
  · exact isExchange_of_idle idle (List.mem_of_mem_eraseIdx hu)
  · obtain ⟨hi, rfl⟩ := List.getElem?_eq_some_iff.mp ht
    have perm : (x.threads[i] :: x.others i).Perm x.threads := List.getElem_cons_eraseIdx_perm hi
    have alone := perm.symm.pairwise sole fun h => h.symm
    rcases List.rel_of_pairwise_cons alone hu with other | this
    · rw [exchange] at other
      cases other
    · exact this

/-- **What a move does**: nothing, or something else while nobody waits for a read or a save, or a
process takes its step. -/
theorem step_cases (x : Commons) (m : Move) :
    x.step m = x ∨
      (x.idle = true ∧
        ((∃ d : Deed, x.step m = absorb x (d.apply x.session) x.threads) ∨
          (∃ p : Process, p.isCall = true ∧ x.step m = x.enter p) ∨
          ∃ store : MemoryStore, store.isOnline = true ∧ x.step m = { x with store })) ∨
      ∃ i oracle t, m = .go i oracle ∧ x.admits (.go i oracle) = true ∧
        x.threads[i]? = some t ∧ x.step m = x.resumed i t oracle := by
  cases admitted : x.admits m with
  | false => exact Or.inl (if_neg (by rw [admitted]; exact Bool.false_ne_true))
  | true =>
    cases m with
    | deed d => exact Or.inr (Or.inl ⟨admitted, Or.inl ⟨d, if_pos admitted⟩⟩)
    | enter p =>
      obtain ⟨idle, call⟩ := Bool.and_eq_true_iff.mp admitted
      exact Or.inr (Or.inl ⟨idle, Or.inr (Or.inl ⟨p, call, if_pos admitted⟩)⟩)
    | others store =>
      obtain ⟨idle, online⟩ := Bool.and_eq_true_iff.mp admitted
      exact Or.inr (Or.inl ⟨idle, Or.inr (Or.inr ⟨store, online, if_pos admitted⟩)⟩)
    | go i oracle =>
      cases ht : x.threads[i]? with
      | none =>
        simp only [admits, ht] at admitted
        cases admitted
      | some t =>
        refine Or.inr (Or.inr ⟨i, oracle, t, rfl, admitted, ht, ?_⟩)
        simp only [step, admitted, ht, if_true]

/-- The processes after one of them has taken its step: the others, it itself if it goes on, and
those that have entered. -/
theorem mem_threads_resumed {i : Nat} {t u : Numbered} {oracle : Oracle}
    (hu : u ∈ (x.resumed i t oracle).threads) :
    u ∈ x.others i ∨
      (u.number = t.number ∧ (t.process.resume x.session
        (t.process.need.serve x.store oracle).2).2 = .inl u.process) ∨
      u.process.isFresh = true := by
  rcases List.mem_append.mp hu with hu | hu
  · rcases List.mem_append.mp hu with hu | hu
    · exact Or.inl hu
    · obtain ⟨p, hp, rfl⟩ := List.mem_map.mp hu
      cases following : (t.process.resume x.session
          (t.process.need.serve x.store oracle).2).2 with
      | inl next =>
        rw [following] at hp
        rw [List.mem_singleton.mp hp]
        exact Or.inr (Or.inl ⟨rfl, rfl⟩)
      | inr outcome =>
        rw [following] at hp
        cases hp
  · obtain ⟨j, hj, rfl⟩ := List.mem_mapIdx.mp hu
    exact Or.inr (Or.inr (Process.isFresh_ofBackground _))

/-- **How a process comes to be there after a move**: it was there, and if it waits for a read or
a save the move has changed nothing; or it has just entered; or it has gone on. -/
theorem mem_threads_step (sole : x.Sole) {m : Move} {u : Numbered} (hu : u ∈ (x.step m).threads) :
    (u ∈ x.threads ∧ (u.process.need.isExchange = true → x.step m = x)) ∨
      u.process.isFresh = true ∨
      ∃ i oracle t, m = .go i oracle ∧ x.threads[i]? = some t ∧
        x.step m = x.resumed i t oracle ∧ u.number = t.number ∧
        (t.process.resume x.session (t.process.need.serve x.store oracle).2).2 =
          .inl u.process := by
  have waits (h : u.process.need.isExchange = false) :
      u.process.need.isExchange = true → x.step m = x := fun exchange => by
    rw [h] at exchange
    cases exchange
  rcases x.step_cases m with same | ⟨idle, ⟨d, next⟩ | ⟨p, call, next⟩ | ⟨store, -, next⟩⟩ |
    ⟨i, oracle, t, rfl, admitted, ht, next⟩
  · rw [same] at hu
    exact Or.inl ⟨hu, fun _ => same⟩
  · rw [next] at hu
    rcases List.mem_append.mp hu with hu | hu
    · exact Or.inl ⟨hu, waits (isExchange_of_idle idle hu)⟩
    · obtain ⟨j, hj, rfl⟩ := List.mem_mapIdx.mp hu
      exact Or.inr (Or.inl (Process.isFresh_ofBackground _))
  · rw [next] at hu
    rcases List.mem_append.mp hu with hu | hu
    · exact Or.inl ⟨hu, waits (isExchange_of_idle idle hu)⟩
    · rw [List.mem_singleton.mp hu]
      exact Or.inr (Or.inl (Process.isFresh_of_isCall call))
  · rw [next] at hu
    exact Or.inl ⟨hu, waits (isExchange_of_idle idle hu)⟩
  · rw [next] at hu
    rcases mem_threads_resumed hu with other | ⟨number, following⟩ | fresh
    · have alone := isExchange_of_others sole ht admitted u other
      exact Or.inl ⟨List.mem_of_mem_eraseIdx other, waits alone⟩
    · exact Or.inr (Or.inr ⟨i, oracle, t, rfl, ht, next, number, following⟩)
    · exact Or.inr (Or.inl fresh)

/-! ## 4. Invariants -/

theorem Sole.step (sole : x.Sole) (m : Move) : (x.step m).Sole := by
  rcases x.step_cases m with same | ⟨idle, ⟨d, next⟩ | ⟨p, call, next⟩ | ⟨store, -, next⟩⟩ |
    ⟨i, oracle, t, rfl, admitted, ht, next⟩
  · rwa [same]
  · rw [next]
    refine sole_of_idle fun u hu => ?_
    rcases List.mem_append.mp hu with hu | hu
    · exact isExchange_of_idle idle hu
    · obtain ⟨j, hj, rfl⟩ := List.mem_mapIdx.mp hu
      exact Process.isExchange_of_isFresh (Process.isFresh_ofBackground _)
  · rw [next]
    refine sole_of_idle fun u hu => ?_
    rcases List.mem_append.mp hu with hu | hu
    · exact isExchange_of_idle idle hu
    · rw [List.mem_singleton.mp hu]
      exact Process.isExchange_of_isFresh (Process.isFresh_of_isCall call)
  · rw [next]
    exact sole
  · rw [next]
    have others := isExchange_of_others sole ht admitted
    refine List.pairwise_append.mpr ⟨List.pairwise_append.mpr ⟨sole_of_idle others, ?_, ?_⟩, ?_, ?_⟩
    · refine List.pairwise_map.mpr ?_
      cases (t.process.resume x.session (t.process.need.serve x.store oracle).2).2 with
      | inl p => exact List.pairwise_singleton _ _
      | inr outcome => exact List.Pairwise.nil
    · exact fun u hu _ _ => Or.inl (others u hu)
    · refine sole_of_idle fun u hu => ?_
      obtain ⟨j, hj, rfl⟩ := List.mem_mapIdx.mp hu
      exact Process.isExchange_of_isFresh (Process.isFresh_ofBackground _)
    · intro _ _ u hu
      obtain ⟨j, hj, rfl⟩ := List.mem_mapIdx.mp hu
      exact Or.inr (Process.isExchange_of_isFresh (Process.isFresh_ofBackground _))

/-- The store stays online. -/
theorem isOnline_step (online : x.store.isOnline = true) (m : Move) :
    (x.step m).store.isOnline = true := by
  rcases x.step_cases m with same | ⟨-, ⟨d, next⟩ | ⟨p, -, next⟩ | ⟨store, stays, next⟩⟩ |
    ⟨i, oracle, t, rfl, -, ht, next⟩
  · rwa [same]
  · rw [next]
    exact online
  · rw [next]
    exact online
  · rw [next]
    exact stays
  · rw [next]
    exact Need.isOnline_serve online oracle t.process.need

end Commons

end Folio
