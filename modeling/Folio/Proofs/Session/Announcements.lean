/-
# What a subscriber can rebuild

A context announces what others may follow, and a subscriber that has been there from the beginning
and has lost nothing knows the public state of the context from what it was sent: the path, the
metadata, whether the context has ever been ready, and whether it is closed.

What was sent is all that was announced (`Subscriber.Follows`), as long as the subscriber is intact.
That all that was announced tells the state (`Context.Tells`) is kept by each change of a context
and by the end of its first load, so by every move.
-/
import Folio.Proofs.Session.Readiness
import Folio.Proofs.Journal.Receiving

namespace Folio

/-! ## 1. Subscribers -/

/-- The value that was received, if it was one. -/
def Received.value? {α : Type} : Received α → Option α
  | .value a => some a
  | .lagged _ => none
  | .empty => none

/-- **A subscriber** of a context: its place in the journal, what it has heard so far, and whether
it was ever told that it had lost something. -/
structure Subscriber where
  place : Nat
  heard : List Announcement := []
  lagged : Bool := false

/-- Somebody subscribes, and is sent all that is announced from now on. -/
def Context.subscribe (c : Context) : Subscriber := { place := c.events.count }

namespace Subscriber

/-- **The subscriber asks once** whether there is news. -/
def poll (s : Subscriber) (c : Context) : Subscriber :=
  match c.events.receive s.place with
  | (.value a, place) => { s with place, heard := s.heard ++ [a] }
  | (.lagged _, place) => { s with place, lagged := true }
  | (.empty, _) => s

/-- What the subscriber would get if it went on asking. -/
def waiting (s : Subscriber) (c : Context) : List (Received Announcement) :=
  c.events.receiveAll s.place

/-- **The subscriber never lagged**: it has lost nothing, and would not learn now that it has. -/
def isIntact (s : Subscriber) (c : Context) : Bool :=
  !s.lagged && (s.waiting c).all fun r => r.value?.isSome

/-- **What the subscriber was sent**: what it has heard, and what is waiting for it. -/
def sent (s : Subscriber) (c : Context) : List Announcement :=
  s.heard ++ (s.waiting c).filterMap Received.value?

end Subscriber

/-! ## 2. What a subscriber was sent -/

namespace Context

theorem length_announced (c : Context) : c.announced.length = c.events.count := Array.length_toList

/-- A context that proceeds announces more. -/
theorem Changes.announces {c d : Context} (h : c.Changes d) : c.announced <+: d.announced := by
  refine h.keeps (P := fun d => c.announced <+: d.announced) ?_ (List.prefix_refl _)
  intro d e change so_far
  cases change with
  | models model => exact so_far
  | follows away => exact so_far.trans ⟨_, (announced_emit _ _).symm⟩
  | saves model m =>
    refine so_far.trans ⟨[.saved m, .fileChanged m], ?_⟩
    rw [announced_emit, announced_emit, List.append_assoc]
    rfl
  | learns model m => exact so_far.trans ⟨_, (announced_emit _ _).symm⟩
  | closes live => exact so_far.trans ⟨_, (announced_emit _ _).symm⟩

theorem announces_settle (c : Context) (result : Except ContextError Unit) :
    c.announced <+: (c.settle result).announced := by
  rcases c.settle_cases result with same | ⟨-, -, same⟩ | ⟨-, e, same⟩
  · exact same.symm ▸ List.prefix_refl _
  · exact same.symm ▸ ⟨_, (announced_emit _ _).symm⟩
  · exact same.symm ▸ List.prefix_refl _

theorem Proceeds.announces {c d : Context} (h : c.Proceeds d) : c.announced <+: d.announced := by
  cases h with
  | changes changes => exact changes.announces
  | settles changes known => exact changes.announces.trans (announces_settle _ _)

end Context

namespace Subscriber

variable {s : Subscriber} {c d : Context}

/-- **The subscriber follows the context**: unless it was told of a loss, it has heard all up to its
place. -/
structure Follows (s : Subscriber) (c : Context) : Prop where
  within : s.place ≤ c.announced.length
  heard : s.lagged = false → s.heard = c.announced.take s.place

theorem follows_subscribe (silent : c.announced = []) : c.subscribe.Follows c where
  within := Nat.le_refl _
  heard _ := by simp [Context.subscribe, silent]

/-- What is announced changes nothing about what was heard. -/
theorem Follows.proceeds (follows : s.Follows c) (more : c.announced <+: d.announced) :
    s.Follows d where
  within := Nat.le_trans follows.within more.length_le
  heard intact := by
    obtain ⟨rest, all⟩ := more
    rw [follows.heard intact, ← all, List.take_append_of_le_length follows.within]

theorem Follows.poll (follows : s.Follows c) : (s.poll c).Follows c := by
  unfold Subscriber.poll
  split
  · next a place received =>
    unfold Journal.receive at received
    split at received
    · cases received
    · split at received
      · next b there =>
        cases received
        obtain ⟨within, rfl⟩ := Array.getElem?_eq_some_iff.mp there
        have inside : s.place < c.announced.length := by simpa [Context.announced] using within
        refine ⟨inside, fun intact => ?_⟩
        change s.heard ++ _ = _
        rw [follows.heard intact, List.take_add_one, List.getElem?_eq_getElem inside]
        simp [Context.announced]
      · cases received
  · next n place received =>
    unfold Journal.receive at received
    split at received
    · cases received
      refine ⟨?_, fun intact => by cases intact⟩
      simp [Context.announced, Journal.count]
    · split at received <;> cases received
  · exact follows

/-- **A subscriber that never lagged was sent all that was announced.** -/
theorem Follows.sent_eq (follows : s.Follows c) (intact : s.isIntact c = true) :
    s.sent c = c.announced := by
  obtain ⟨told, kept⟩ : s.lagged = false ∧ ∀ r ∈ s.waiting c, r.value?.isSome = true := by
    simpa [isIntact] using intact
  have within : s.place ≤ c.events.count := c.length_announced ▸ follows.within
  have reachable : c.events.count ≤ s.place + c.events.capacity := by
    refine Nat.le_of_not_lt fun lost => ?_
    obtain ⟨n, rest, first⟩ := Journal.receiveAll_of_lost lost
    have valued := kept (.lagged n) (by rw [waiting, first]; exact List.mem_cons_self)
    cases valued
  rw [sent, waiting, Journal.receiveAll_of_kept within reachable, follows.heard told,
    List.filterMap_map]
  have values : (Received.value? ∘ Received.value : Announcement → Option Announcement) = some :=
    rfl
  rw [values, List.filterMap_some]
  exact List.take_append_drop s.place c.announced

end Subscriber

/-! ## 3. What the announcements tell -/

namespace Announcement

/-- The path that is announced, if it is one. -/
def path? : Announcement → Option String
  | .pathChanged path => some path
  | _ => none

/-- The new metadata that are announced, if it is those. -/
def file? : Announcement → Option Metadata
  | .fileChanged m => some m
  | _ => none

/-- The last path that was announced. -/
def lastPath? (told : List Announcement) : Option String := (told.filterMap path?).getLast?

/-- The last metadata that were announced. -/
def lastFile? (told : List Announcement) : Option Metadata := (told.filterMap file?).getLast?

/-- **Every save is followed at once by its metadata.** -/
def SavesFollowed (told : List Announcement) : Prop :=
  ∀ (before : List Announcement) (m : Metadata) (after : List Announcement),
    told = before ++ .saved m :: after → ∃ rest, after = .fileChanged m :: rest

theorem lastPath?_append (first second : List Announcement) :
    lastPath? (first ++ second) = (lastPath? second).or (lastPath? first) := by
  rw [lastPath?, List.filterMap_append, List.getLast?_append]
  rfl

theorem lastFile?_append (first second : List Announcement) :
    lastFile? (first ++ second) = (lastFile? second).or (lastFile? first) := by
  rw [lastFile?, List.filterMap_append, List.getLast?_append]
  rfl

theorem SavesFollowed.append {first second : List Announcement} (h : SavesFollowed first)
    (h' : SavesFollowed second) : SavesFollowed (first ++ second) := by
  intro before m after split
  rcases List.append_eq_append_iff.mp split with ⟨between, -, there⟩ | ⟨between, there, here⟩
  · exact h' between m after there
  · cases between with
    | nil => exact h' [] m after here.symm
    | cons a between =>
      obtain ⟨rfl, rfl⟩ := List.cons.inj here
      obtain ⟨rest, rfl⟩ := h before m between there
      exact ⟨rest ++ second, rfl⟩

theorem savesFollowed_singleton {a : Announcement} (other : ∀ m, a ≠ .saved m) :
    SavesFollowed [a] := by
  intro before m after split
  cases before with
  | nil => exact absurd (List.cons.inj split).1 (other m)
  | cons b before => simp at split

theorem savesFollowed_saved (m : Metadata) : SavesFollowed [.saved m, .fileChanged m] := by
  intro before n after split
  cases before with
  | nil =>
    obtain ⟨saved, rfl⟩ := List.cons.inj split
    cases saved
    exact ⟨[], rfl⟩
  | cons b before => cases before <;> simp at split

end Announcement

open Announcement

namespace Context

/-- **What a context has announced tells its state**, if one knows the path that it was made with.
-/
structure Tells (initial : String) (c : Context) : Prop where
  path : (lastPath? c.announced).getD initial = c.path
  remote : lastFile? c.announced = c.remote
  saves : SavesFollowed c.announced
  closed : .disposed ∈ c.announced ↔ c.isDisposed = true

variable {initial : String} {c d : Context}

theorem IsFresh.tells (fresh : c.IsFresh) : c.Tells c.path where
  path := by rw [fresh.silent]; rfl
  remote := by rw [fresh.silent, fresh.unknown]; rfl
  saves before m after split := by
    rw [fresh.silent] at split
    simp at split
  closed := by simp [fresh.silent, isDisposed, fresh.loading]

/-- What is announced on top of what was must tell what has changed. -/
theorem Tells.append (tells : c.Tells initial) (new : List Announcement)
    (announced : d.announced = c.announced ++ new) (path : (lastPath? new).getD c.path = d.path)
    (remote : (lastFile? new).or c.remote = d.remote) (saves : SavesFollowed new)
    (closed : .disposed ∈ new ∨ c.isDisposed = true ↔ d.isDisposed = true) : d.Tells initial where
  path := by
    rw [announced, lastPath?_append, Option.getD_or, tells.path, path]
  remote := by rw [announced, lastFile?_append, tells.remote, remote]
  saves := by
    rw [announced]
    exact tells.saves.append saves
  closed := by rw [announced, List.mem_append, tells.closed, ← closed, or_comm]

/-- Every change announces what it changes. -/
theorem Tells.change (tells : c.Tells initial) (h : c.Change d) : d.Tells initial := by
  cases h with
  | models model => exact ⟨tells.path, tells.remote, tells.saves, tells.closed⟩
  | follows away =>
    refine tells.append _ (announced_emit _ _) rfl rfl (savesFollowed_singleton (by simp)) ?_
    simp [isDisposed, emit]
  | saves model m =>
    refine tells.append [.saved m, .fileChanged m] ?_ rfl rfl (savesFollowed_saved m) ?_
    · rw [announced_emit, announced_emit, List.append_assoc]
      rfl
    · simp [isDisposed, emit]
  | learns model m =>
    refine tells.append _ (announced_emit _ _) rfl rfl (savesFollowed_singleton (by simp)) ?_
    simp [isDisposed, emit]
  | closes live =>
    refine tells.append _ (announced_emit _ _) rfl rfl (savesFollowed_singleton (by simp)) ?_
    simp [isDisposed, emit]

/-- So does the end of the first load: that the context is ready, which is not disposed. -/
theorem Tells.settle (tells : c.Tells initial) (result : Except ContextError Unit) :
    (c.settle result).Tells initial := by
  rcases c.settle_cases result with same | ⟨loading, -, same⟩ | ⟨loading, e, same⟩
  · rwa [same]
  · rw [same]
    refine tells.append _ (announced_emit _ _) rfl rfl (savesFollowed_singleton (by simp)) ?_
    simp [isDisposed, emit, loading]
  · rw [same]
    refine tells.append [] (List.append_nil _).symm rfl rfl (fun before m after split => ?_) ?_
    · simp at split
    · simp [isDisposed, loading]

theorem Tells.proceeds (tells : c.Tells initial) (h : c.Proceeds d) : d.Tells initial := by
  cases h with
  | changes changes => exact changes.keeps (fun change tells => tells.change change) tells
  | settles changes known =>
    exact (changes.keeps (fun change tells => tells.change change) tells).settle _

/-- That it is ready is announced by a context that becomes so. -/
theorem Turns.mem_ready_iff (h : c.Turns d) :
    .ready ∈ d.announced ↔ .ready ∈ c.announced ∨ c.isReady = false ∧ d.isReady = true := by
  have count := h.ready
  rw [← List.count_pos_iff, ← List.count_pos_iff]
  simp only [told, isReady, beq_iff_eq, beq_eq_false_iff_ne] at count ⊢
  split at count
  · next becomes => simp [count, becomes]
  · next stays => simp [count, stays]

end Context

/-! ## 4. A context that is watched -/

/-- **An ensemble and a subscriber** of one of its contexts. -/
structure Watch where
  ensemble : Ensemble
  subscriber : Subscriber

namespace Watch

/-- What happens while a context is watched: anything in the ensemble, or the subscriber asks. -/
inductive Act where
  | move (m : Move)
  | poll

/-- The context that is watched. -/
abbrev context (w : Watch) (c : ContextId) : Context := w.ensemble.session.context c

/-- **One act.** -/
def step (c : ContextId) (w : Watch) : Act → Watch
  | .move m => { w with ensemble := w.ensemble.step m }
  | .poll => { w with subscriber := w.subscriber.poll (w.context c) }

/-- **A run.** -/
def run (c : ContextId) (w : Watch) (acts : List Act) : Watch := acts.foldl (step c) w

/-- Somebody subscribes to a context. -/
def subscribe (e : Ensemble) (c : ContextId) : Watch := ⟨e, (e.session.context c).subscribe⟩

variable {c : ContextId} {w : Watch}

theorem run_concat (c : ContextId) (w : Watch) (acts : List Act) (act : Act) :
    w.run c (acts ++ [act]) = (w.run c acts).step c act := by
  simp [run, List.foldl_append]

/-- **The watch is kept**: the context is there, the subscriber follows it, and what was announced
tells its state. -/
structure Kept (c : ContextId) (initial : String) (w : Watch) : Prop where
  made : c < w.ensemble.session.contexts.length
  follows : w.subscriber.Follows (w.context c)
  tells : (w.context c).Tells initial

theorem Kept.step {initial : String} (kept : w.Kept c initial) (act : Act) :
    (w.step c act).Kept c initial := by
  cases act with
  | move m =>
    have proceeds := w.ensemble.proceeds_step m
    have context := proceeds.context c kept.made
    exact ⟨Nat.lt_of_lt_of_le kept.made proceeds.length, kept.follows.proceeds context.announces,
      kept.tells.proceeds context⟩
  | poll => exact ⟨kept.made, kept.follows.poll, kept.tells⟩

theorem Kept.run {initial : String} (kept : w.Kept c initial) (acts : List Act) :
    (w.run c acts).Kept c initial := by
  induction acts generalizing w with
  | nil => exact kept
  | cons act acts ih => exact ih (kept.step act)

/-- The context was ready at some time. -/
def WasReady (c : ContextId) (w : Watch) (acts : List Act) : Prop :=
  ∃ earlier, earlier <+: acts ∧ ((w.run c earlier).context c).isReady = true

theorem wasReady_concat (c : ContextId) (w : Watch) (acts : List Act) (act : Act) :
    w.WasReady c (acts ++ [act]) ↔
      w.WasReady c acts ∨ (((w.run c acts).step c act).context c).isReady = true := by
  constructor
  · rintro ⟨earlier, before, ready⟩
    rcases List.prefix_concat_iff.mp before with rfl | before
    · exact .inr (run_concat c w acts act ▸ ready)
    · exact .inl ⟨earlier, before, ready⟩
  · rintro (⟨earlier, before, ready⟩ | ready)
    · exact ⟨earlier, before.trans (List.prefix_append _ _), ready⟩
    · exact ⟨acts ++ [act], List.prefix_refl _, (run_concat c w acts act).symm ▸ ready⟩

/-- **The context has announced that it is ready just if it was.**  It announces that in the step in
which it becomes so; a step in which it stays ready comes after another. -/
theorem told_ready_iff {initial : String} (kept : w.Kept c initial)
    (fresh : (w.context c).IsFresh) (acts : List Act) :
    .ready ∈ ((w.run c acts).context c).announced ↔ w.WasReady c acts := by
  induction acts using List.reverseRecOn with
  | nil =>
    have unready : ¬ w.WasReady c [] := by
      rintro ⟨earlier, before, ready⟩
      rw [List.prefix_nil.mp before] at ready
      simp [Watch.run, Context.isReady, fresh.loading] at ready
    simp [Watch.run, fresh.silent, unready]
  | append_singleton acts act ih =>
    rw [wasReady_concat, ← ih, run_concat]
    have now_ready : ((w.run c acts).context c).isReady = true →
        .ready ∈ ((w.run c acts).context c).announced :=
      fun ready => ih.mpr ⟨acts, List.prefix_refl _, ready⟩
    cases act with
    | poll => exact ⟨.inl, fun h => h.elim id now_ready⟩
    | move m =>
      have made := (kept.run acts).made
      have turns := (((w.run c acts).ensemble.proceeds_step m).context c made).turns
      refine turns.mem_ready_iff.trans ⟨?_, ?_⟩
      · rintro (told | ⟨-, ready⟩)
        · exact .inl told
        · exact .inr ready
      · rintro (told | ready)
        · exact .inl told
        · cases before : ((w.run c acts).context c).isReady with
          | true => exact .inl (now_ready before)
          | false => exact .inr ⟨rfl, ready⟩

end Watch

namespace Ensemble

/-- **A subscriber can rebuild the public state of a context.**  Whatever was done before, whatever
makes a context, and whatever happens then: somebody who subscribed when the context was made, asks
now and then and has never lagged was sent the path of the context as the last change of its path,
the metadata as the last change of the file, and new metadata right after every save; that the
context is ready if it has ever been so, and that it is closed if it is, and not otherwise. -/
theorem announcements_rebuild (config : Settings) (before : List Move) (m : Move) (c : ContextId)
    (unmade : ((start config).run before).session.contexts.length ≤ c)
    (made : c < (((start config).run before).step m).session.contexts.length)
    (acts : List Watch.Act) :
    let born := Watch.subscribe (((start config).run before).step m) c
    let w := born.run c acts
    let sent := w.subscriber.sent (w.context c)
    w.subscriber.isIntact (w.context c) = true →
      (lastPath? sent).getD (born.context c).path = (w.context c).path ∧
        lastFile? sent = (w.context c).remote ∧
        SavesFollowed sent ∧
        (.ready ∈ sent ↔ born.WasReady c acts) ∧
        (.disposed ∈ sent ↔ (w.context c).isDisposed = true) := by
  intro born w sent intact
  have fresh : (born.context c).IsFresh :=
    (((start config).run before).proceeds_step m).fresh c unmade made
  have kept : born.Kept c (born.context c).path :=
    ⟨made, Subscriber.follows_subscribe fresh.silent, fresh.tells⟩
  obtain ⟨-, follows, tells⟩ := kept.run acts
  have all : sent = (w.context c).announced := follows.sent_eq intact
  rw [all]
  exact ⟨tells.path, tells.remote, tells.saves, Watch.told_ready_iff kept fresh acts, tells.closed⟩

/-- A file is being opened; the next step makes its context. -/
def opensOne : List Move :=
  [.deed (.setRegistry .sample), .call (.open "a" "editor" none)] ++ Move.turns 5

/-- The file is loaded, moved and closed, and the subscriber asks twice. -/
def loadsAndMoves : List Watch.Act :=
  (Move.turns 6).map .move ++ [.poll, .move (.call (.renameFile "a" "b"))] ++
    (Move.turns 20).map .move ++ [.poll, .move (.deed (.disposeContext 0))]

theorem announcements_rebuild_loadsAndMoves :
    let born := Watch.subscribe (((start {}).run opensOne).step (.go 0 .obliging)) 0
    let w := born.run 0 loadsAndMoves
    let sent := w.subscriber.sent (w.context 0)
    ((start {}).run opensOne).session.contexts.length = 0 ∧
      (((start {}).run opensOne).step (.go 0 .obliging)).session.contexts.length = 1 ∧
      w.subscriber.isIntact (w.context 0) = true ∧
      sent = [.fileChanged ⟨0, 0⟩, .ready, .pathChanged "b", .disposed] ∧
      (w.context 0).path = "b" ∧ born.WasReady 0 loadsAndMoves ∧
      (w.context 0).isDisposed = true := by
  intro born w sent
  have unmade : ((start {}).run opensOne).session.contexts.length = 0 := by decide +kernel
  have made : (((start {}).run opensOne).step (.go 0 .obliging)).session.contexts.length = 1 := by
    decide +kernel
  have intact : w.subscriber.isIntact (w.context 0) = true := by decide +kernel
  have all : sent = [.fileChanged ⟨0, 0⟩, .ready, .pathChanged "b", .disposed] := by
    decide +kernel
  obtain ⟨path, -, -, ready, closed⟩ := announcements_rebuild {} opensOne (.go 0 .obliging) 0
    (Nat.le_of_eq unmade) (made ▸ Nat.one_pos) loadsAndMoves intact
  refine ⟨unmade, made, intact, all, path.symm.trans ?_, ready.mp ?_, closed.mp ?_⟩
  · change (lastPath? sent).getD _ = "b"
    rw [all]
    rfl
  · change Announcement.ready ∈ sent
    rw [all]
    decide
  · change Announcement.disposed ∈ sent
    rw [all]
    decide

end Ensemble

end Folio
