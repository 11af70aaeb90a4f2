/-
# A context that has its file to itself

An attempt asks the user when the modification time that it was told is not the one that is known
when it goes on.  That others have written the file is only one way in which this comes about: the
context may have written the file itself, and not know it yet, or have learnt of it since the
attempt looked (`Traffic.asks_about_own_writes`).

It does not come about if the calls of the context take turns: what is in flight at any time only
reads the file, or is alone, and a checkpoint that was restored is loaded (`Traffic.never_asks`).
Then the version that is known is the one that is there whenever nothing is in flight that writes
the file, and whoever looks is told of that one.
-/
import Folio.Proofs.Autosave.OwnCalls

namespace Folio

/-- The process of an errand writes the file, or reloads it after it has restored a checkpoint. -/
def Errand.writes (log : List Event) (t : Errand) : Bool :=
  t.process.need.writesFile || (t.process.need.readsFile && hasRestored log t.number)

/-- The process of an errand reads the file or writes it. -/
def Errand.isBusy (t : Errand) : Bool := t.process.need.readsFile || t.process.need.writesFile

theorem Errand.isBusy_of_writes {log : List Event} {t : Errand} (h : t.writes log = true) :
    t.isBusy = true := by
  unfold writes at h
  unfold isBusy
  revert h
  cases t.process.need.writesFile <;> cases t.process.need.readsFile <;> simp

/-- **A step strands a checkpoint** of a context that was restored: it fails to load it. -/
def Event.strands (c : ContextId) (log : List Event) : Event → Bool
  | .stepped n p answer s =>
    p.dealsWith s c && hasRestored log n &&
      match (p.resume s answer).2 with
      | .inr (.context (.error _)) => true
      | _ => false
  | _ => false

namespace Traffic

/-! ## 1. Undisturbed runs -/

/-- The calls of a context that are in flight and read or write the file. -/
def busy (x : Traffic) (c : ContextId) : List Errand :=
  x.errands.filter fun t => t.process.dealsWith x.session c && t.isBusy

/-- **The calls of a context take turns**: what is in flight only reads the file, or is alone. -/
def takesTurns (x : Traffic) (c : ContextId) : Bool :=
  (x.busy c).length ≤ 1 || (x.busy c).all fun t => !t.writes x.log

/-- The process at a place deals with a context. -/
def deals (x : Traffic) (c : ContextId) (i : Nat) : Bool :=
  x.errands[i]?.any fun t => t.process.dealsWith x.session c

/-- The move is one of the calls of a context. -/
def isOwn (x : Traffic) (c : ContextId) : Move → Bool
  | .carryOut i => x.deals c i
  | .go i _ => x.deals c i
  | _ => false

/-- The paths of the file of a context: where the context is, and where it is being moved. -/
def places (x : Traffic) (c : ContextId) : List String :=
  (x.session.context c).path :: x.errands.filterMap fun t =>
    if t.process.dealsWith x.session c then t.process.need.target? else none

/-- **The file of a context is left alone**: the context is where it was and knows what it knew, and
the versions there are what they were. -/
def spares (x y : Traffic) (c : ContextId) : Bool :=
  (y.session.context c).path == (x.session.context c).path &&
    (y.session.context c).known == (x.session.context c).known &&
    (x.places c).all fun path => y.store.version? path == x.store.version? path

/-- **The move is undisturbed**: it is one of a call of the context, or it leaves the file alone.
All replies are those of the store. -/
def isUndisturbed (x : Traffic) (c : ContextId) (m : Move) : Bool :=
  !m.isAnswer && (x.isOwn c m || x.spares (x.step m) c)

/-- **The context is orderly**: its calls take turns, and no checkpoint that was restored has been
stranded. -/
def isOrderly (x : Traffic) (c : ContextId) : Bool :=
  x.takesTurns c && x.log.all fun e => !e.strands c x.log

/-- Every move of the run is undisturbed. -/
def isUndisturbedRun (c : ContextId) : Traffic → List Move → Bool
  | _, [] => true
  | x, m :: moves => x.isUndisturbed c m && isUndisturbedRun c (x.step m) moves

/-- The context is orderly after every move of the run. -/
def isOrderlyRun (c : ContextId) : Traffic → List Move → Bool
  | _, [] => true
  | x, m :: moves => (x.step m).isOrderly c && isOrderlyRun c (x.step m) moves

/-! ## 2. What is known -/

variable {x y : Traffic} {c : ContextId}

/-- An attempt for a context has asked the user. -/
def Asked (c : ContextId) (log : List Event) : Prop :=
  ∃ n k a answer s prompt, .stepped n (.attempt k a) answer s ∈ log ∧
    (s.coordinator k).context = c ∧
    ((Process.attempt k a).resume s answer).2 = .inl (.attempt k (.asking prompt))

/-- **The context knows its file**, but for what is in flight, and nobody was asked. -/
structure Knows (c : ContextId) (x : Traffic) : Prop where
  made : c < x.session.contexts.length
  coherent : x.IsCoherent
  sound : x.IsSound
  turns : x.takesTurns c = true
  accords : ∀ t ∈ x.errands, t.process.dealsWith x.session c = true →
    t.process.need.Accords (x.session.context c).path (x.session.context c).known x.store
      (hasRestored x.log t.number) t.reply
  settled : (∀ t ∈ x.errands, t.process.dealsWith x.session c = true → t.writes x.log = false) →
    (x.session.context c).known = x.store.version? (x.session.context c).path
  silent : ∀ t ∈ x.errands, t.process.dealsWith x.session c = true → t.process.prompt? = none
  unasked : ¬ Asked c x.log

/-- **Who writes the file is alone** with it. -/
theorem alone_of_writes (turns : x.takesTurns c = true) {t : Errand} {rest : List Errand}
    (perm : x.errands.Perm (t :: rest)) (deals : t.process.dealsWith x.session c = true)
    (writes : t.writes x.log = true) {u : Errand} (hu : u ∈ rest)
    (uDeals : u.process.dealsWith x.session c = true) : u.isBusy = false := by
  have busy : (x.busy c).Perm
      (t :: rest.filter fun u => u.process.dealsWith x.session c && u.isBusy) := by
    have filtered := perm.filter fun t => t.process.dealsWith x.session c && t.isBusy
    rwa [List.filter_cons, deals, Errand.isBusy_of_writes writes, Bool.and_self, if_pos rfl]
      at filtered
  rw [takesTurns, Bool.or_eq_true, decide_eq_true_eq] at turns
  rcases turns with one | reading
  · rw [busy.length_eq, List.length_cons] at one
    have none := List.eq_nil_of_length_eq_zero (Nat.le_zero.mp (Nat.le_of_succ_le_succ one))
    have other := List.filter_eq_nil_iff.mp none u hu
    rw [uDeals, Bool.true_and] at other
    exact Bool.eq_false_iff.mpr other
  · have reads := List.all_eq_true.mp reading t (busy.mem_iff.mpr List.mem_cons_self)
    rw [writes] at reads
    cases reads

/-- Whoever has just entered does nothing to a file yet. -/
theorem idle_of_isFresh {p : Process} (fresh : p.isFresh = true) :
    p.need.readsFile = false ∧ p.need.writesFile = false ∧ p.prompt? = none := by
  cases p with
  | attempt k a => cases a <;> first | exact ⟨rfl, rfl, rfl⟩ | cases fresh
  | manager stage => cases stage <;> first | exact ⟨rfl, rfl, rfl⟩ | cases fresh
  | calling d call => cases fresh
  | loading k call => cases fresh
  | _ => exact ⟨rfl, rfl, rfl⟩

/-- A step that nobody is asked by asks nobody. -/
theorem not_asked_concat {log : List Event} (unasked : ¬ Asked c log) {e : Event}
    (silent : ∀ n k a answer s, e = .stepped n (.attempt k a) answer s →
      (s.coordinator k).context = c → ∀ prompt,
      ((Process.attempt k a).resume s answer).2 ≠ .inl (.attempt k (.asking prompt))) :
    ¬ Asked c (log ++ [e]) := by
  rintro ⟨n, k, a, answer, s, prompt, there, owner, asks⟩
  rcases List.mem_append.mp there with there | there
  · exact unasked ⟨n, k, a, answer, s, prompt, there, owner, asks⟩
  · exact silent n k a answer s (List.mem_singleton.mp there).symm owner prompt asks

/-! ## 3. What others do -/

/-- **The calls of the context go on as they were**, and those that have come have not begun. -/
structure Aside (c : ContextId) (x y : Traffic) : Prop where
  on : x.session.Advances y.session
  spares : x.spares y c = true
  stays : ∀ t ∈ x.errands, t.process.dealsWith x.session c = true → t ∈ y.errands
  comes : ∀ u ∈ y.errands, u.process.dealsWith y.session c = true →
    u ∈ x.errands ∨ u.process.isFresh = true
  restored : ∀ t ∈ x.errands, t.process.dealsWith x.session c = true →
    hasRestored y.log t.number = hasRestored x.log t.number
  unasked : ¬ Asked c x.log → ¬ Asked c y.log

theorem Aside.knows (aside : Aside c x y) (h : x.Knows c) (coherent : y.IsCoherent)
    (sound : y.IsSound) (turns : y.takesTurns c = true) : y.Knows c := by
  obtain ⟨⟨path, known⟩, versions⟩ :
      ((y.session.context c).path = (x.session.context c).path ∧
        (y.session.context c).known = (x.session.context c).known) ∧
      ∀ p ∈ x.places c, y.store.version? p = x.store.version? p := by
    simpa [Traffic.spares] using aside.spares
  have here : y.store.version? (x.session.context c).path =
      x.store.version? (x.session.context c).path := versions _ List.mem_cons_self
  have dealt {t : Errand} (ht : t ∈ x.errands) :
      t.process.dealsWith y.session c = t.process.dealsWith x.session c :=
    (h.sound.errands t ht).dealsWith_advances aside.on c
  refine ⟨Nat.lt_of_lt_of_le h.made aside.on.contexts_length, coherent, sound, turns,
    fun u hu deals => ?_, fun idle => ?_, fun u hu deals => ?_, aside.unasked h.unasked⟩
  · rw [path, known]
    rcases aside.comes u hu deals with there | fresh
    · rw [dealt there] at deals
      rw [aside.restored u there deals]
      refine (h.accords u there deals).congr here fun target moves => versions target ?_
      refine List.mem_cons_of_mem _ (List.mem_filterMap.mpr ⟨u, there, ?_⟩)
      rw [if_pos deals]
      exact moves
    · obtain ⟨reads, writes, -⟩ := idle_of_isFresh fresh
      exact Need.accords_of_idle reads writes u.reply
  · rw [path, known, here]
    refine h.settled fun t ht deals => ?_
    have idle := idle t (aside.stays t ht deals) ((dealt ht).trans deals)
    rwa [Errand.writes, aside.restored t ht deals] at idle
  · rcases aside.comes u hu deals with there | fresh
    · exact h.silent u there ((dealt there).symm.trans deals)
    · exact (idle_of_isFresh fresh).2.2

/-- Replies of other stores, and steps, restore nothing. -/
theorem hasRestored_stepped (log : List Event) {m : Nat} {p : Process} (answer : p.need.Answer)
    (s : Session) (n : Nat) :
    hasRestored (log ++ [.stepped m p answer s]) n = hasRestored log n := by
  rw [hasRestored_concat]
  exact Bool.or_false _

/-- Of two processes that go on side by side, one restores nothing for the other. -/
theorem hasRestored_carried (coherent : x.IsCoherent) {t u : Errand} {rest : List Errand}
    (perm : x.errands.Perm (t :: rest)) (hu : u ∈ rest) (need : Need) (reply : need.Answer) :
    hasRestored (x.log ++ [.carried t.number need reply]) u.number =
      hasRestored x.log u.number := by
  rw [hasRestored_concat]
  have nodup := (perm.map (·.number)).nodup_iff.mp coherent.nodup
  have other : t.number ≠ u.number := fun same =>
    (List.nodup_cons.mp nodup).1 (List.mem_map.mpr ⟨u, hu, same.symm⟩)
  have none : (Event.carried t.number need reply).restores u.number = false := by
    rw [Bool.eq_false_iff]
    intro restores
    exact other (Option.some.inj (Event.number_of_restores restores))
  rw [none, Bool.or_false]

namespace Aside

theorem deed (d : Deed) (spares : x.spares (x.absorb (d.apply x.session) x.errands) c = true) :
    Aside c x (x.absorb (d.apply x.session) x.errands) where
  on := (Session.Advances.deed x.session d).trans (.of_eq rfl rfl)
  spares := spares
  stays t ht _ := List.mem_append_left _ ht
  comes u hu _ := by
    rcases List.mem_append.mp hu with hu | hu
    · exact .inl hu
    · obtain ⟨j, hj, rfl⟩ := List.mem_mapIdx.mp hu
      exact .inr (Process.isFresh_ofBackground _)
  restored _ _ _ := rfl
  unasked := id

theorem enter {p : Process} (call : p.isCall = true) (spares : x.spares (x.enter p) c = true) :
    Aside c x (x.enter p) where
  on := .refl _
  spares := spares
  stays t ht _ := List.mem_append_left _ ht
  comes u hu _ := by
    rcases List.mem_append.mp hu with hu | hu
    · exact .inl hu
    · rw [List.mem_singleton.mp hu]
      exact .inr (Process.isFresh_of_isCall call)
  restored _ _ _ := rfl
  unasked := id

theorem others (store : MemoryStore) (spares : x.spares (x.step (.others store)) c = true) :
    Aside c x (x.step (.others store)) where
  on := .refl _
  spares := spares
  stays t ht _ := ht
  comes u hu _ := .inl hu
  restored t _ _ := by
    show hasRestored (x.log ++ [.changed x.store store]) t.number = _
    rw [hasRestored_concat]
    exact Bool.or_false _
  unasked unasked := not_asked_concat unasked fun _ _ _ _ _ => nofun

variable {before after : List Errand} {t : Errand}

/-- Whoever deals with the context is none of the others. -/
theorem mem_others (split : x.errands = before ++ t :: after)
    (foreign : t.process.dealsWith x.session c = false) {u : Errand} (hu : u ∈ x.errands)
    (deals : u.process.dealsWith x.session c = true) : u ∈ before ++ after := by
  rcases List.mem_cons.mp ((perm_of_split split).mem_iff.mp hu) with rfl | hu
  · rw [foreign] at deals
    cases deals
  · exact hu

theorem carries (coherent : x.IsCoherent) (split : x.errands = before ++ t :: after)
    (foreign : t.process.dealsWith x.session c = false) (store : MemoryStore)
    (reply : t.process.need.Answer)
    (same : y = { x with
      store
      errands := before ++
        { number := t.number, process := t.process, reply := some reply } :: after
      log := x.log ++ [.carried t.number t.process.need reply] })
    (spares : x.spares y c = true) : Aside c x y := by
  subst same
  refine ⟨.refl _, spares, fun u hu deals => ?_, fun u hu deals => ?_, fun u hu deals => ?_,
    fun unasked => not_asked_concat unasked fun _ _ _ _ _ => nofun⟩
  · have there := mem_others split foreign hu deals
    exact List.perm_middle.mem_iff.mpr (List.mem_cons_of_mem _ there)
  · rcases List.mem_cons.mp (List.perm_middle.mem_iff.mp hu) with rfl | hu
    · cases foreign.symm.trans deals
    · exact .inl ((perm_of_split split).mem_iff.mpr (List.mem_cons_of_mem t hu))
  · exact hasRestored_carried coherent (perm_of_split split) (mem_others split foreign hu deals) _ _

theorem goes (sound : x.IsSound) (split : x.errands = before ++ t :: after)
    (foreign : t.process.dealsWith x.session c = false) (answer : t.process.need.Answer)
    (spares : x.spares (x.resumed (before ++ after) t answer) c = true) :
    Aside c x (x.resumed (before ++ after) t answer) := by
  have perm := perm_of_split split
  refine ⟨x.advances_resumed _ t answer, spares,
    fun u hu deals => ?_, fun u hu deals => ?_, fun u hu deals => ?_,
    fun unasked => not_asked_concat unasked fun n k a got s same owner => ?_⟩
  · exact List.mem_append_left _ (List.mem_append_left _ (mem_others split foreign hu deals))
  · rcases mem_resumed hu with hu | ⟨-, next, -⟩ | ⟨fresh, -⟩
    · exact .inl (perm.mem_iff.mpr (List.mem_cons_of_mem t hu))
    · rw [sound.dealsWith_next (perm.mem_iff.mpr List.mem_cons_self) next, foreign] at deals
      cases deals
    · exact .inr fresh
  · exact hasRestored_stepped _ _ _ _
  · have attempt : t.process = .attempt k a := by
      injection same
    have found : x.session = s := by
      injection same
    rw [attempt, found, Process.dealsWith, owner, beq_self_eq_true] at foreign
    cases foreign

end Aside

/-! ## 4. What the calls of the context do -/

/-- Who reads a file does not write it. -/
theorem writesFile_of_readsFile {n : Need} (h : n.readsFile = true) : n.writesFile = false := by
  cases n with
  | store request => cases request <;> first | rfl | cases h
  | _ => cases h

namespace Knows

variable {before after : List Errand} {t : Errand}

/-- Beside a call that reads the file or writes it, nobody writes it. -/
theorem not_writes (h : x.Knows c) (split : x.errands = before ++ t :: after)
    (deals : t.process.dealsWith x.session c = true) (busy : t.isBusy = true) {u : Errand}
    (hu : u ∈ before ++ after) (uDeals : u.process.dealsWith x.session c = true) :
    u.writes x.log = false := by
  obtain ⟨a, b, rest⟩ := List.append_of_mem hu
  have perm : x.errands.Perm (u :: t :: (a ++ b)) := by
    refine (perm_of_split split).trans ?_
    rw [rest]
    exact (List.perm_middle.cons t).trans (List.Perm.swap u t (a ++ b))
  rw [Bool.eq_false_iff]
  intro writes
  rw [alone_of_writes h.turns perm uDeals writes List.mem_cons_self deals] at busy
  cases busy

/-- Beside a call that writes the file, nobody reads it or writes it. -/
theorem idle_of_writes (h : x.Knows c) (split : x.errands = before ++ t :: after)
    (deals : t.process.dealsWith x.session c = true) (writes : t.writes x.log = true) {u : Errand}
    (hu : u ∈ before ++ after) (uDeals : u.process.dealsWith x.session c = true) :
    u.process.need.readsFile = false ∧ u.process.need.writesFile = false := by
  have idle := alone_of_writes h.turns (perm_of_split split) deals writes hu uDeals
  exact Bool.or_eq_false_iff.mp idle

theorem carries (h : x.Knows c) (split : x.errands = before ++ t :: after)
    (deals : t.process.dealsWith x.session c = true) (waits : t.reply = none)
    {store : MemoryStore} {reply : t.process.need.Answer}
    (done : t.process.need.carryOut x.store = some (store, reply))
    (same : y = { x with
      store
      errands := before ++
        { number := t.number, process := t.process, reply := some reply } :: after
      log := x.log ++ [.carried t.number t.process.need reply] })
    (coherent : y.IsCoherent) (sound : y.IsSound) (turns : y.takesTurns c = true) :
    y.Knows c := by
  subst same
  have perm := perm_of_split split
  have mem {u : Errand} (hu : u ∈ t :: (before ++ after)) : u ∈ x.errands := perm.mem_iff.mpr hu
  have kept {u : Errand} (hu : u ∈ before ++ after) :=
    hasRestored_carried h.coherent perm hu t.process.need reply
  have here := h.accords t (mem List.mem_cons_self) deals
  rw [waits] at here
  refine ⟨h.made, coherent, sound, turns, fun u hu uDeals => ?_, fun idle => ?_,
    fun u hu uDeals => ?_, not_asked_concat h.unasked fun _ _ _ _ _ => nofun⟩
  · rcases List.mem_cons.mp (List.perm_middle.mem_iff.mp hu) with rfl | hu
    · show t.process.need.Agrees _ _ store (hasRestored (x.log ++ [_]) t.number) reply
      rw [hasRestored_concat]
      refine here.carryOut (fun reads plain => h.settled fun u hu uDeals => ?_) done t.number
      rcases List.mem_cons.mp (perm.mem_iff.mp hu) with rfl | hu
      · rw [Errand.writes, writesFile_of_readsFile reads, plain, Bool.and_false, Bool.or_false]
      · refine h.not_writes split deals ?_ hu uDeals
        rw [Errand.isBusy, reads, Bool.true_or]
    · rw [kept hu]
      cases writes : t.writes x.log with
      | true =>
        obtain ⟨reads, writes⟩ := h.idle_of_writes split deals writes hu uDeals
        exact Need.accords_of_idle reads writes u.reply
      | false =>
        have same := Need.version?_carryOut (Bool.or_eq_false_iff.mp writes).1 done
        exact (h.accords u (mem (List.mem_cons_of_mem t hu)) uDeals).congr (same _)
          fun _ _ => same _
  · have still := idle _ (List.mem_append_right before List.mem_cons_self) deals
    obtain ⟨writes, plain⟩ := Bool.or_eq_false_iff.mp still
    rw [hasRestored_concat, Bool.and_or_distrib_left, Bool.or_eq_false_iff] at plain
    refine Eq.trans (h.settled fun u hu uDeals => ?_) (Need.version?_carryOut writes done _).symm
    rcases List.mem_cons.mp (perm.mem_iff.mp hu) with rfl | hu
    · exact Bool.or_eq_false_iff.mpr ⟨writes, plain.1⟩
    · have idle := idle u (List.perm_middle.mem_iff.mpr (List.mem_cons_of_mem _ hu)) uDeals
      rwa [Errand.writes, kept hu] at idle
  · rcases List.mem_cons.mp (List.perm_middle.mem_iff.mp hu) with rfl | hu
    · exact h.silent t (mem List.mem_cons_self) deals
    · exact h.silent u (mem (List.mem_cons_of_mem t hu)) uDeals

/-- A process that goes on is under way then, beside the others. -/
theorem perm_resumed (others : List Errand) {answer : t.process.need.Answer} {q : Process}
    (h : (t.process.resume x.session answer).2 = .inl q) :
    (x.resumed others t answer).errands.Perm ({ number := t.number, process := q } ::
      (others ++ entering x.next (t.process.resume x.session answer).1.started)) := by
  show ((others ++ (Errand.next? t.number (t.process.resume x.session answer).2).toList) ++
    entering x.next (t.process.resume x.session answer).1.started).Perm _
  rw [h, List.append_assoc]
  exact List.perm_middle

/-- **What is to be shown of a step** of a call of the context: that the other calls accord, that
what follows accords and asks nobody, and that what is there is known if nobody writes the file
then. -/
theorem resumed (h : x.Knows c) (split : x.errands = before ++ t :: after)
    (deals : t.process.dealsWith x.session c = true) {answer : t.process.need.Answer}
    (same : y = x.resumed (before ++ after) t answer)
    (coherent : y.IsCoherent) (sound : y.IsSound) (turns : y.takesTurns c = true)
    (others : ∀ u ∈ before ++ after, u.process.dealsWith x.session c = true →
      u.process.need.Accords (y.session.context c).path (y.session.context c).known x.store
        (hasRestored x.log u.number) u.reply)
    (next : ∀ q, (t.process.resume x.session answer).2 = .inl q →
      q.need.Accords (y.session.context c).path (y.session.context c).known x.store
        (hasRestored x.log t.number) none ∧ q.prompt? = none)
    (settled : (∀ u ∈ y.errands, u.process.dealsWith y.session c = true →
      u.writes y.log = false) →
      (y.session.context c).known = x.store.version? (y.session.context c).path) : y.Knows c := by
  subst same
  have on := x.advances_resumed (before ++ after) t answer
  have mem {u : Errand} (hu : u ∈ before ++ after) : u ∈ x.errands :=
    (perm_of_split split).mem_iff.mpr (List.mem_cons_of_mem t hu)
  have dealt {u : Errand} (hu : u ∈ before ++ after) :=
    h.sound.dealsWith_resumed (mem hu) (before ++ after) t answer c
  refine ⟨Nat.lt_of_lt_of_le h.made on.contexts_length, coherent, sound, turns,
    fun u hu uDeals => ?_, settled, fun u hu uDeals => ?_,
    not_asked_concat h.unasked fun n k a got s same owner prompt asks => ?_⟩
  · show u.process.need.Accords _ _ _ (hasRestored (x.log ++ [_]) u.number) u.reply
    rw [hasRestored_stepped]
    rcases mem_resumed hu with hu | ⟨number, goesOn, none_yet⟩ | ⟨fresh, -⟩
    · exact others u hu ((dealt hu).symm.trans uDeals)
    · rw [none_yet, number]
      exact (next u.process goesOn).1
    · obtain ⟨reads, writes, -⟩ := idle_of_isFresh fresh
      exact Need.accords_of_idle reads writes u.reply
  · rcases mem_resumed hu with hu | ⟨-, goesOn, -⟩ | ⟨fresh, -⟩
    · exact h.silent u (mem hu) ((dealt hu).symm.trans uDeals)
    · exact (next u.process goesOn).2
    · exact (idle_of_isFresh fresh).2.2
  · obtain ⟨number, process, reply⟩ := t
    cases same
    have silent := (next _ asks).2
    cases silent

/-- **A call that has written the file** goes on. -/
theorem goes_writing (h : x.Knows c) (split : x.errands = before ++ t :: after)
    (deals : t.process.dealsWith x.session c = true) {answer : t.process.need.Answer}
    (agrees : t.process.need.Agrees (x.session.context c).path (x.session.context c).known x.store
      (hasRestored x.log t.number) answer)
    (writes : t.writes x.log = true) (same : y = x.resumed (before ++ after) t answer)
    (kept : ∀ e ∈ y.log, e.strands c y.log = false)
    (coherent : y.IsCoherent) (sound : y.IsSound) (turns : y.takesTurns c = true) :
    y.Knows c := by
  have ht : t ∈ x.errands := (perm_of_split split).mem_iff.mpr List.mem_cons_self
  have after' : y.session.context c = t.process.effect (x.session.context c) answer := by
    rw [same]
    exact Process.context_effect h.made deals answer
  have logged : y.log = x.log ++ [.stepped t.number t.process answer x.session] := by
    rw [same]
    rfl
  have finishes (restored : hasRestored x.log t.number = true) (e : ContextError) :
      (t.process.resume x.session answer).2 ≠ .inr (.context (.error e)) := fun failed => by
    have strands := kept (.stepped t.number t.process answer x.session) (by simp [logged])
    simp [Event.strands, deals, logged, hasRestored_stepped, restored, failed] at strands
  have wrote : t.process.need.writesFile = true ∨
      (t.process.need.readsFile = true ∧ hasRestored x.log t.number = true) := by
    simpa [Errand.writes] using writes
  have idle (u : Errand) (hu : u ∈ before ++ after)
      (uDeals : u.process.dealsWith x.session c = true) :
      u.process.need.Accords (y.session.context c).path (y.session.context c).known x.store
        (hasRestored x.log u.number) u.reply := by
    obtain ⟨reads, writes⟩ := h.idle_of_writes split deals writes hu uDeals
    exact Need.accords_of_idle reads writes u.reply
  rcases Process.written deals agrees wrote (h.coherent.of_restored ht) finishes with
    ⟨goesOn, restored, effect⟩ | ⟨outcome, ends, known⟩
  · rw [effect] at after'
    refine h.resumed split deals same coherent sound turns idle (fun q hq => ?_) fun quiet => ?_
    · rw [goesOn] at hq
      cases hq
      refine ⟨⟨?_, nofun⟩, rfl⟩
      rintro place ⟨⟩
      rw [after']
    · -- the reload that follows is still to come
      have there := (perm_resumed (before ++ after) goesOn).mem_iff.mpr List.mem_cons_self
      rw [← same] at there
      have idle := quiet _ there (beq_self_eq_true c)
      rw [logged, Errand.writes, hasRestored_stepped, restored] at idle
      cases idle
  · refine h.resumed split deals same coherent sound turns idle (fun q hq => ?_) fun _ => ?_
    · rw [ends] at hq
      cases hq
    · rw [after']
      exact known

/-- **A call that has not written the file** goes on. -/
theorem goes_reading (h : x.Knows c) (split : x.errands = before ++ t :: after)
    (deals : t.process.dealsWith x.session c = true) {answer : t.process.need.Answer}
    (agrees : t.process.need.Agrees (x.session.context c).path (x.session.context c).known x.store
      (hasRestored x.log t.number) answer)
    (reads : t.writes x.log = false) (same : y = x.resumed (before ++ after) t answer)
    (coherent : y.IsCoherent) (sound : y.IsSound) (turns : y.takesTurns c = true) :
    y.Knows c := by
  have perm := perm_of_split split
  have mem {u : Errand} (hu : u ∈ t :: (before ++ after)) : u ∈ x.errands := perm.mem_iff.mpr hu
  obtain ⟨writes, plain⟩ := Bool.or_eq_false_iff.mp reads
  have after' : y.session.context c = t.process.effect (x.session.context c) answer := by
    rw [same]
    exact Process.context_effect h.made deals answer
  obtain ⟨path, known⟩ := Process.standing_effect agrees writes plain
  rw [← after'] at path known
  have stays {u : Errand} (hu : u ∈ before ++ after) : u ∈ y.errands := by
    rw [same]
    exact List.mem_append_left _ (List.mem_append_left _ hu)
  have dealt {u : Errand} (hu : u ∈ before ++ after)
      (uDeals : u.process.dealsWith x.session c = true) :
      u.process.dealsWith y.session c = true := by
    rw [same, h.sound.dealsWith_resumed (mem (List.mem_cons_of_mem t hu))]
    exact uDeals
  have logged (u : Errand) : u.writes y.log = u.writes x.log := by
    rw [same, Errand.writes, Errand.writes]
    exact congrArg (fun b => _ || (_ && b)) (hasRestored_stepped _ _ _ _)
  -- nobody writes the file before if nobody does after
  have current (quiet : ∀ u ∈ before ++ after, u.process.dealsWith x.session c = true →
      u.writes y.log = false) :
      (x.session.context c).known = x.store.version? (x.session.context c).path := by
    refine h.settled fun u hu uDeals => ?_
    rcases List.mem_cons.mp (perm.mem_iff.mp hu) with rfl | hu
    · exact reads
    · rw [← logged]
      exact quiet u hu uDeals
  refine h.resumed split deals same coherent sound turns ?_ (fun q hq => ?_) fun quiet => ?_
  · intro u hu uDeals
    rw [path, known]
    exact h.accords u (mem (List.mem_cons_of_mem t hu)) uDeals
  · obtain ⟨places, silent⟩ := Process.begins deals agrees writes plain
      (h.silent t (mem List.mem_cons_self) deals) hq
    rw [path, known]
    refine ⟨⟨places, fun begins => current fun u hu uDeals => ?_⟩, silent⟩
    -- what begins to write is alone
    have qDeals : q.dealsWith y.session c = true := by
      rw [same, h.sound.dealsWith_next (mem List.mem_cons_self) hq]
      exact deals
    have perm := perm_resumed (before ++ after) hq
    rw [← same] at perm
    have idle := alone_of_writes turns perm qDeals (by rw [Errand.writes, begins, Bool.true_or])
      (List.mem_append_left _ hu) (dealt hu uDeals)
    exact Bool.eq_false_iff.mpr fun writes => by
      rw [Errand.isBusy_of_writes writes] at idle
      cases idle
  · rw [path, known]
    exact current fun u hu uDeals => quiet u (stays hu) (dealt hu uDeals)

/-- **Every undisturbed move** leaves the context knowing its file, if it is orderly. -/
theorem step (h : x.Knows c) {m : Move} (undisturbed : x.isUndisturbed c m = true)
    (orderly : (x.step m).isOrderly c = true) : (x.step m).Knows c := by
  have coherent := h.coherent.step m
  have sound := h.sound.step m
  simp only [isUndisturbed, Bool.and_eq_true, Bool.or_eq_true, Bool.not_eq_true'] at undisturbed
  obtain ⟨honest, own⟩ := undisturbed
  obtain ⟨turns, kept⟩ := Bool.and_eq_true_iff.mp orderly
  have kept (e : Event) (he : e ∈ (x.step m).log) : e.strands c (x.step m).log = false := by
    simpa using List.all_eq_true.mp kept e he
  cases m with
  | deed d => exact (Aside.deed d (own.resolve_left nofun)).knows h coherent sound turns
  | enter p =>
    by_cases call : p.isCall = true
    · have entered : x.step (.enter p) = x.enter p := if_pos call
      rw [entered] at own coherent sound turns ⊢
      exact (Aside.enter call (own.resolve_left nofun)).knows h coherent sound turns
    · have same : x.step (.enter p) = x := if_neg call
      rw [same]
      exact h
  | others store => exact (Aside.others store (own.resolve_left nofun)).knows h coherent sound turns
  | answer i oracle => cases honest
  | carryOut i =>
    rcases x.carryOut_cases i with
      same | ⟨before, after, t, store, reply, place, split, waits, done, same⟩
    · rw [show x.step (.carryOut i) = x from same]
      exact h
    · cases deals : t.process.dealsWith x.session c with
      | true => exact h.carries split deals waits done same coherent sound turns
      | false =>
        have foreign : x.isOwn c (.carryOut i) ≠ true := by
          simp [isOwn, Traffic.deals, place, deals]
        exact (Aside.carries h.coherent split deals store reply same
          (own.resolve_left foreign)).knows h coherent sound turns
  | go i oracle =>
    rcases x.go_cases i oracle with same | ⟨before, after, t, answer, place, split, -, ready, same⟩
    · rw [show x.step (.go i oracle) = x from same]
      exact h
    · cases deals : t.process.dealsWith x.session c with
      | true =>
        have ht : t ∈ x.errands := (perm_of_split split).mem_iff.mpr List.mem_cons_self
        have agrees := (h.accords t ht deals).agrees ready
        cases writes : t.writes x.log with
        | true => exact h.goes_writing split deals agrees writes same kept coherent sound turns
        | false => exact h.goes_reading split deals agrees writes same coherent sound turns
      | false =>
        have foreign : x.isOwn c (.go i oracle) ≠ true := by
          simp [isOwn, Traffic.deals, place, deals]
        have spares := own.resolve_left foreign
        rw [show x.step (.go i oracle) = _ from same] at spares coherent sound turns ⊢
        exact (Aside.goes h.sound split deals answer spares).knows h coherent sound turns

/-- **Every undisturbed run** does. -/
theorem run {x : Traffic} (h : x.Knows c) (moves : List Move)
    (undisturbed : isUndisturbedRun c x moves = true) (orderly : isOrderlyRun c x moves = true) :
    (x.run moves).Knows c := by
  induction moves generalizing x with
  | nil => exact h
  | cons m moves ih =>
    obtain ⟨alone, undisturbed⟩ := Bool.and_eq_true_iff.mp undisturbed
    obtain ⟨takesTurns, orderly⟩ := Bool.and_eq_true_iff.mp orderly
    exact ih (h.step alone takesTurns) undisturbed orderly

end Knows

/-! ## 5. The user is not asked -/

/-- **An orderly context that has its file to itself never asks the user.**  If it knows its file
when nothing is in flight, then in every undisturbed run in which it is orderly no attempt for it
asks. -/
theorem never_asks {session : Session} (none : session.started = []) {store : MemoryStore}
    {c : ContextId} (made : c < session.contexts.length)
    (known : (session.context c).known = store.version? (session.context c).path)
    {moves : List Move} (undisturbed : isUndisturbedRun c (start session store) moves = true)
    (orderly : isOrderlyRun c (start session store) moves = true)
    {n : Nat} {k : CoordinatorId} {a : Attempt} {answer : a.need.Answer} {s : Session}
    (there : .stepped n (.attempt k a) answer s ∈ ((start session store).run moves).log)
    (owner : (s.coordinator k).context = c) (prompt : ConflictPrompt) :
    ((Process.attempt k a).resume s answer).2 ≠ .inl (.attempt k (.asking prompt)) := by
  have begins : (start session store).Knows c := by
    refine ⟨made, coherent_run session store [],
      ⟨none, fun t ht => absurd ht List.not_mem_nil⟩, rfl, fun t ht => absurd ht List.not_mem_nil,
      fun _ => known, fun t ht => absurd ht List.not_mem_nil, ?_⟩
    rintro ⟨n, k, a, answer, s, prompt, there, -⟩
    cases there
  intro asks
  have unasked := (begins.run moves undisturbed orderly).unasked
  exact unasked ⟨n, k, a, answer, s, prompt, there, owner, asks⟩

/-! ## 6. Runs of one document -/

/-- The text is edited. -/
def edits (text : String) : Move := .deed (.setModel 0 ⟨.text text, true, false⟩)

/-- Every timer is over. -/
def timely : Oracle
  | .tick _ _ _ _ _ => .due
  | n => Oracle.obliging n

/-- An operation on the document begins, where so many processes are under way. -/
def operates (op : ContextOp) (i : Nat) : List Move := [.enter (.operation 0 op), .go i timely]

/-- The store carries out the call that a process waits for, and the process goes on. -/
def returns (i : Nat) : List Move := [.carryOut i, .go i timely]

/-- A coordinator of the document is started, and its loop, which comes after so many processes,
waits for its timer. -/
def startsLoop (i : Nat) : List Move :=
  [.deed (.newCoordinator 0 (.ofMillis 1000)), .deed (.startCoordinator 0), .go i timely]

/-- The timer of the loop, which comes first, is over, and an attempt, which then comes at a place,
begins. -/
def attempts (i : Nat) : List Move := [.go 0 timely, .go i timely]

/-- A checkpoint is taken and restored, and the text is edited and saved by itself. -/
def restoresThenSaves : List Move :=
  operates .createCheckpoint 0 ++ returns 0 ++ operates (.restoreCheckpoint "cp0") 0 ++ returns 0 ++
    returns 0 ++ edits "two" :: startsLoop 0 ++ attempts 1 ++ returns 1 ++ returns 1

theorem never_asks_restoresThenSaves :
    let x := start Commons.sampleSession Commons.firstStore
    x.session.started = [] ∧ 0 < x.session.contexts.length ∧
      (x.session.context 0).known = x.store.version? (x.session.context 0).path ∧
      isUndisturbedRun 0 x restoresThenSaves = true ∧ isOrderlyRun 0 x restoresThenSaves = true ∧
      (x.run restoresThenSaves).store.version? "a" = some 3 ∧
      ∀ n k a answer s, .stepped n (.attempt k a) answer s ∈ (x.run restoresThenSaves).log →
        (s.coordinator k).context = 0 → ∀ prompt,
        ((Process.attempt k a).resume s answer).2 ≠ .inl (.attempt k (.asking prompt)) := by
  have undisturbed : isUndisturbedRun 0 (start Commons.sampleSession Commons.firstStore)
      restoresThenSaves = true := by decide +kernel
  have orderly : isOrderlyRun 0 (start Commons.sampleSession Commons.firstStore)
      restoresThenSaves = true := by decide +kernel
  have known : (Commons.sampleSession.context 0).known =
      Commons.firstStore.version? (Commons.sampleSession.context 0).path := by decide +kernel
  refine ⟨rfl, by decide, known, undisturbed, orderly, by decide +kernel, ?_⟩
  intro n k a answer s there owner prompt
  exact never_asks rfl (by decide) known undisturbed orderly there owner prompt

/-- The text is saved; an attempt looks at the file when the store has done that, and goes on before
the save returns. -/
def looksWhileSaving : List Move :=
  startsLoop 0 ++ operates .save 1 ++ .carryOut 1 :: attempts 2 ++ returns 2

/-- An attempt looks at the file, which is saved then, and goes on when the save has returned. -/
def looksBeforeSaving : List Move :=
  startsLoop 0 ++ attempts 1 ++ .carryOut 1 :: operates .save 2 ++ returns 2 ++ [.go 1 timely]

/-- A checkpoint is restored, and not yet loaded. -/
def restores : List Move :=
  startsLoop 0 ++ operates .createCheckpoint 1 ++ returns 1 ++
    operates (.restoreCheckpoint "cp0") 1 ++ returns 1

/-- An attempt looks at the file before the checkpoint is loaded. -/
def looksWhileRestoring : List Move := restores ++ attempts 2 ++ returns 2

/-- The store is offline when the checkpoint is to be loaded, and an attempt looks at the file
later. -/
def looksAfterStranding : List Move :=
  let store := ((start Commons.sampleSession Commons.firstStore).run restores).store
  restores ++
    [.others { store with available := false }, .carryOut 1, .others store, .go 1 timely] ++
    attempts 1 ++ returns 1

/-- **A context asks about what it has written itself**, with nobody else near its file: the version
that is told was written by it, and is not known yet, or is known no longer. -/
theorem asks_about_own_writes :
    let x := start Commons.sampleSession Commons.firstStore
    (x.session.context 0).known = x.store.version? (x.session.context 0).path ∧
      ∀ alarm ∈ [(looksWhileSaving, ⟨"a", some 1, 2⟩), (looksBeforeSaving, ⟨"a", some 2, 1⟩),
          (looksWhileRestoring, ⟨"a", some 1, 2⟩), (looksAfterStranding, ⟨"a", some 1, 2⟩)],
        isUndisturbedRun 0 x alarm.1 = true ∧ isOrderlyRun 0 x alarm.1 = false ∧
          (x.run alarm.1).errands.filterMap (·.process.prompt?) = [alarm.2] := by
  decide +kernel

end Traffic

end Folio
