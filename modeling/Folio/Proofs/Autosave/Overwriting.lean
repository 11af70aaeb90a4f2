/-
# What an attempt may overwrite

An attempt looks at the file before it saves, and asks the user if others have written it.  When it
saves without having asked, the version that it replaces is the one that its context knows.  When
the user has told it to overwrite, it saves without looking again: it replaces what it finds, and
that is the version that the user was told of only if the file has stayed the same meanwhile.

To say so one has to speak of what has happened, so the invariant is about a run and not about a
state (`Commons.Traced`): for whoever waits for the user, when it has begun to ask; for whoever
saves, what it relies on.
-/
import Folio.Proofs.Autosave.Commons
import Folio.Proofs.Autosave.Steps

namespace Folio

/-! ## 1. Reading the store -/

namespace MemoryStore

/-- Reading changes no file. -/
theorem version?_countRead (s : MemoryStore) (withContent : Bool) (path : String) :
    (s.countRead withContent).version? path = s.version? path := by
  cases withContent <;> rfl

/-- **Metadata that are read** are those of the version that is there; and a store that is online
fails to give them only if there is none. -/
theorem version?_of_read {s : MemoryStore} (online : s.isOnline = true) (path : String) :
    (∃ e, s.read path false = .error e ∧ s.version? path = none) ∨
      ∃ file, s.read path false = .ok file ∧
        s.version? path = some file.metadata.lastModified := by
  obtain ⟨available, metadata⟩ := Bool.and_eq_true_iff.mp online
  have live : s.requireAvailable = .ok () := by
    rw [requireAvailable, if_pos available]
  cases found : s.files.get? path with
  | none =>
    refine Or.inl ⟨.notFound path, ?_, ?_⟩
    · simp only [read, file, live, metadata, found, bind, Except.bind]
      rfl
    · rw [version?, found]
      rfl
  | some stored =>
    refine Or.inr ⟨⟨path, stored.metadata, stored.writable, none⟩, ?_, ?_⟩
    · simp only [read, file, live, metadata, found, bind, Except.bind]
      rfl
    · rw [version?, found]
      rfl

end MemoryStore

namespace Commons

/-! ## 2. What has happened in a run -/

/-- An attempt that waits for the user. -/
def asking (number : Nat) (k : CoordinatorId) (prompt : ConflictPrompt) : Numbered :=
  { number, process := .attempt k (.asking prompt) }

/-- **An attempt has been asking** since a part of the run.  By then, what the prompt named was the
version of the file. -/
structure HasAsked (x : Commons) (asked waited : List Move) (number : Nat) (k : CoordinatorId)
    (prompt : ConflictPrompt) : Prop where
  named : (x.run asked).store.version? prompt.path = some prompt.remote
  asks : ∀ during, during <+: waited →
    asking number k prompt ∈ (x.run (asked ++ during)).threads

/-- **The user has told an attempt to overwrite**, after it has been asking; and nothing has
happened since. -/
def HasAgreed (x : Commons) (moves asked waited : List Move) (number : Nat) (k : CoordinatorId)
    (prompt : ConflictPrompt) : Prop :=
  x.HasAsked asked waited number k prompt ∧
    ∃ i oracle rest, moves = asked ++ waited ++ .go i oracle :: rest ∧
      (x.run (asked ++ waited)).threads[i]? = some (asking number k prompt) ∧
      oracle (.ask prompt) = .overwrite ∧
      x.run moves = x.run (asked ++ waited ++ [.go i oracle])

variable {x : Commons}

/-- It goes on asking. -/
theorem HasAsked.concat {asked waited : List Move} {number : Nat} {k : CoordinatorId}
    {prompt : ConflictPrompt} (h : x.HasAsked asked waited number k prompt) (m : Move)
    (ht : asking number k prompt ∈ (x.run (asked ++ (waited ++ [m]))).threads) :
    x.HasAsked asked (waited ++ [m]) number k prompt := by
  refine ⟨h.named, fun during before => ?_⟩
  rcases List.prefix_concat_iff.mp before with rfl | earlier
  · exact ht
  · exact h.asks during earlier

/-- A move that changes nothing leaves an agreement as it was. -/
theorem HasAgreed.concat {moves asked waited : List Move} {number : Nat} {k : CoordinatorId}
    {prompt : ConflictPrompt} (h : x.HasAgreed moves asked waited number k prompt) {m : Move}
    (same : x.run (moves ++ [m]) = x.run moves) :
    x.HasAgreed (moves ++ [m]) asked waited number k prompt := by
  obtain ⟨hasAsked, i, oracle, rest, rfl, place, overwrite, since⟩ := h
  refine ⟨hasAsked, i, oracle, rest ++ [m], ?_, place, overwrite, same.trans since⟩
  rw [List.append_assoc, List.cons_append]

/-- **The invariant of a run.** -/
structure Traced (x : Commons) (moves : List Move) : Prop where
  sole : (x.run moves).Sole
  online : (x.run moves).store.isOnline = true
  /-- Whoever looks at a file looks where its context is. -/
  checks : ∀ t ∈ (x.run moves).threads, ∀ k path, t.process = .attempt k (.checking path) →
    path = ((x.run moves).session.scene k).context.path
  /-- Whoever asks has told the version that there was. -/
  asks : ∀ number k prompt, asking number k prompt ∈ (x.run moves).threads →
    ∃ asked waited, moves = asked ++ waited ∧ x.HasAsked asked waited number k prompt
  /-- Whoever saves finds what is known, or nothing, or has been told to overwrite. -/
  saves : ∀ t ∈ (x.run moves).threads, ∀ k since path request,
    t.process = .attempt k (.saving since path request) →
    (∀ version, (x.run moves).store.version? path = some version →
      (x.run moves).known k = some version) ∨
    ∃ prompt asked waited, x.HasAgreed moves asked waited t.number k prompt

/-! ## 3. A move -/

/-- The processes that have just entered are no attempts in progress. -/
theorem not_isFresh_attempt {k : CoordinatorId} {stage : Attempt} (h : stage ≠ .due) :
    (Process.attempt k stage).isFresh = false := by
  cases stage with
  | due => exact absurd rfl h
  | _ => rfl

/-- **How an attempt comes to where it is**, if it has begun: it was there, or it has gone on, and
then its context is as it was. -/
theorem attempt_cases (sole : x.Sole) {m : Move} {u : Numbered} (hu : u ∈ (x.step m).threads)
    {k : CoordinatorId} {next : Attempt} (process : u.process = .attempt k next)
    (begun : next ≠ .due) :
    (u ∈ x.threads ∧ (u.process.need.isExchange = true → x.step m = x)) ∨
      ∃ (i : Nat) (oracle : Oracle) (stage : Attempt), m = .go i oracle ∧
        x.threads[i]? = some ⟨u.number, .attempt k stage⟩ ∧
        (x.step m).store = (stage.need.serve x.store oracle).1 ∧
        (Attempt.resume (x.session.scene k) stage (stage.need.serve x.store oracle).2).2 =
          some next ∧
        ((x.step m).session.scene k).context = (x.session.scene k).context := by
  rcases mem_threads_step sole hu with stays | fresh | ⟨i, oracle, t, move, ht, resumed, number,
    following⟩
  · exact Or.inl stays
  · rw [process, not_isFresh_attempt begun] at fresh
    cases fresh
  · obtain ⟨n, p⟩ := t
    rw [process] at following
    obtain ⟨stage, rfl⟩ := Process.attempt_of_continues following
    obtain ⟨goesOn, context⟩ := Process.attempt_continues following
    refine Or.inr ⟨i, oracle, stage, move, ?_, ?_, goesOn, ?_⟩
    · rw [ht, number]
    · rw [resumed]
      rfl
    · rw [resumed]
      exact context

namespace Traced

variable {moves : List Move}

/-- Whoever looks at a file has just begun. -/
theorem checks_concat (h : x.Traced moves) {m : Move} {u : Numbered}
    (hu : u ∈ ((x.run moves).step m).threads) {k : CoordinatorId} {path : String}
    (process : u.process = .attempt k (.checking path)) :
    path = (((x.run moves).step m).session.scene k).context.path := by
  rcases attempt_cases h.sole hu process nofun with ⟨mem, same⟩ |
    ⟨i, oracle, stage, -, -, -, goesOn, context⟩
  · rw [same (by rw [process]; rfl)]
    exact h.checks u mem k path process
  · rw [context]
    exact Attempt.of_next_checking goesOn

/-- Whoever asks has asked before, or has just looked at the file. -/
theorem asks_concat (h : x.Traced moves) {m : Move} {number : Nat} {k : CoordinatorId}
    {prompt : ConflictPrompt} (hu : asking number k prompt ∈ (x.run (moves ++ [m])).threads) :
    ∃ asked waited, moves ++ [m] = asked ++ waited ∧
      x.HasAsked asked waited number k prompt := by
  have there := hu
  rw [run_concat] at hu
  rcases attempt_cases h.sole hu rfl nofun with ⟨mem, -⟩ |
    ⟨i, oracle, stage, -, ht, store, goesOn, -⟩
  · obtain ⟨asked, waited, rfl, hasAsked⟩ := h.asks number k prompt mem
    rw [List.append_assoc] at there
    exact ⟨asked, waited ++ [m], List.append_assoc _ _ _, hasAsked.concat m there⟩
  · obtain ⟨path, file, given, place, remote⟩ := Attempt.of_next_asking goesOn
    obtain ⟨rfl, replied⟩ := Sigma.mk.inj given
    have replied := eq_of_heq replied
    have here := h.checks _ (List.mem_of_getElem? ht) k path rfl
    refine ⟨moves ++ [m], [], (List.append_nil _).symm, ?_, fun during before => ?_⟩
    · rw [run_concat, store, place, remote, ← here]
      refine (MemoryStore.version?_countRead _ false path).trans ?_
      rcases MemoryStore.version?_of_read h.online path with ⟨e, failed, -⟩ | ⟨_, read, version⟩
      · cases failed.symm.trans replied
      · cases read.symm.trans replied
        exact version
    · rw [List.prefix_nil.mp before, List.append_nil]
      exact there

/-- Whoever saves has looked at the file just before, or has been told to overwrite. -/
theorem saves_concat (h : x.Traced moves) {m : Move} {u : Numbered}
    (hu : u ∈ (x.run (moves ++ [m])).threads) {k : CoordinatorId} {since : Nat} {path : String}
    {request : SaveRequest} (process : u.process = .attempt k (.saving since path request)) :
    (∀ version, (x.run (moves ++ [m])).store.version? path = some version →
      (x.run (moves ++ [m])).known k = some version) ∨
    ∃ prompt asked waited, x.HasAgreed (moves ++ [m]) asked waited u.number k prompt := by
  have concat := run_concat x moves m
  rw [concat] at hu
  rcases attempt_cases h.sole hu process nofun with ⟨mem, same⟩ |
    ⟨i, oracle, stage, move, ht, store, goesOn, context⟩
  · have same := concat.trans (same (by rw [process]; rfl))
    rcases h.saves u mem k since path request process with known | ⟨prompt, asked, waited, agreed⟩
    · rw [same]
      exact Or.inl known
    · exact Or.inr ⟨prompt, asked, waited, agreed.concat same⟩
  · obtain ⟨here, ⟨place, reply, given, known⟩ | ⟨prompt, given⟩⟩ :=
      Attempt.of_next_saving goesOn
    · obtain ⟨rfl, replied⟩ := Sigma.mk.inj given
      have looked := h.checks _ (List.mem_of_getElem? ht) k place rfl
      refine Or.inl fun version there => ?_
      rw [concat, store, here, ← looked] at there
      have there := (MemoryStore.version?_countRead _ false place).symm.trans there
      rcases MemoryStore.version?_of_read h.online place with ⟨e, -, absent⟩ | ⟨file, read, found⟩
      · cases absent.symm.trans there
      · cases found.symm.trans there
        rw [concat, Commons.known, context]
        exact known file ((eq_of_heq replied).symm.trans read)
    · obtain ⟨rfl, overwrite⟩ := Sigma.mk.inj given
      obtain ⟨asked, waited, rfl, hasAsked⟩ := h.asks u.number k prompt (List.mem_of_getElem? ht)
      rw [move]
      exact Or.inr ⟨prompt, asked, waited, hasAsked, i, oracle, [], rfl, ht,
        eq_of_heq overwrite, rfl⟩

/-- **Every move keeps the invariant.** -/
theorem concat (h : x.Traced moves) (m : Move) : x.Traced (moves ++ [m]) where
  sole := by
    rw [run_concat]
    exact h.sole.step m
  online := by
    rw [run_concat]
    exact isOnline_step h.online m
  checks u hu k path process := by
    rw [run_concat] at hu ⊢
    exact h.checks_concat hu process
  asks _ _ _ hu := h.asks_concat hu
  saves _ hu _ _ _ _ process := h.saves_concat hu process

/-- **Every run has the invariant**, from where nothing runs and the store is online. -/
theorem of_run {session : Session} {store : MemoryStore} (online : store.isOnline = true)
    (moves : List Move) : (start session store).Traced moves := by
  induction moves using List.reverseRecOn with
  | nil =>
    exact ⟨List.Pairwise.nil, online, fun _ ht => absurd ht List.not_mem_nil,
      fun _ _ _ ht => absurd ht List.not_mem_nil, fun _ ht => absurd ht List.not_mem_nil⟩
  | append_singleton moves m ih => exact ih.concat m

end Traced

/-! ## 4. What is replaced -/

/-- To answer an attempt changes no file. -/
theorem version?_answer {number : Nat} {k : CoordinatorId} {prompt : ConflictPrompt} {i : Nat}
    (place : x.threads[i]? = some (asking number k prompt)) (oracle : Oracle) (path : String) :
    (x.step (.go i oracle)).store.version? path = x.store.version? path := by
  simp only [step, place]
  split <;> rfl

/-- What is replaced is there, and it is an attempt that saves. -/
theorem saves_of_replaces {m : Move} {r : Replacement} (h : x.replaces? m = some r) :
    (∃ since request, ⟨r.attempt, .attempt r.coordinator (.saving since r.path request)⟩ ∈
      x.threads) ∧ x.store.version? r.path = some r.version := by
  unfold replaces? at h
  split at h
  · split at h
    · next number k since path request ht =>
      split at h
      · split at h
        · obtain ⟨version, there, rfl⟩ := Option.map_eq_some_iff.mp h
          exact ⟨⟨since, request, List.mem_of_getElem? ht⟩, there⟩
        · cases h
      · cases h
    · cases h
  · cases h

/-- **What an attempt replaces** is the version that its context last read or wrote; or the user has
told this attempt to overwrite, and then it is the version that the user was told of, unless the
context has moved or the file has changed while the attempt was asking. -/
theorem replaced_known_or_agreed {session : Session} {store : MemoryStore}
    (online : store.isOnline = true) (moves : List Move) (m : Move) (r : Replacement)
    (h : ((start session store).run moves).replaces? m = some r) :
    ((start session store).run moves).known r.coordinator = some r.version ∨
    ∃ prompt asked waited,
      (start session store).HasAgreed moves asked waited r.attempt r.coordinator prompt ∧
      (r.path = prompt.path →
        (∀ during, during <+: waited →
          ((start session store).run (asked ++ during)).store.version? prompt.path =
            some prompt.remote) →
        r.version = prompt.remote) := by
  obtain ⟨⟨since, request, mem⟩, there⟩ := saves_of_replaces h
  rcases (Traced.of_run online moves).saves _ mem r.coordinator since r.path request rfl with
    known | ⟨prompt, asked, waited, agreed⟩
  · exact Or.inl (known r.version there)
  · refine Or.inr ⟨prompt, asked, waited, agreed, fun same unchanged => ?_⟩
    obtain ⟨-, i, oracle, rest, -, place, -, since⟩ := agreed
    rw [since, run_concat, version?_answer place, same] at there
    have last := unchanged waited (List.prefix_refl _)
    exact Option.some.inj (there.symm.trans last)

/-! ## 5. Runs of one document -/

/-- A text that is open and edited, as its first version. -/
def sampleContext : Context where
  path := "a"
  modelFactory := "text"
  contentType := "file"
  model := ⟨.text "mine", true, false⟩
  state := .ready
  remote := some ⟨1, 3⟩

/-- A session with that text, -/
def sampleSession : Session := { Session.create {} with contexts := [sampleContext] }

/-- and stores that have its first version, -/
def firstStore : MemoryStore := (({} : MemoryStore).write "a" (.text "one")).1

/-- a version that others have written, -/
def secondStore : MemoryStore := (firstStore.write "a" (.text "theirs")).1

/-- and one more. -/
def thirdStore : MemoryStore := (secondStore.write "a" (.text "unseen")).1

/-- The user overwrites, and every timer is over. -/
def insisting : Oracle
  | .ask _ => .overwrite
  | .tick _ _ _ _ _ => .due
  | n => Oracle.obliging n

/-- A coordinator starts an attempt, which finds what others have written and asks. -/
def asksUser : List Move :=
  [.deed (.newCoordinator 0 (.ofMillis 1000)), .deed (.startCoordinator 0), .go 0 insisting,
    .go 0 insisting, .others secondStore, .go 1 insisting, .go 1 insisting]

/-- The user tells it to overwrite. -/
def overwrites : List Move := asksUser ++ [.go 1 insisting]

/-- Others write once more while it asks, and the user tells it to overwrite. -/
def overwritesUnseen : List Move := asksUser ++ [.others thirdStore, .go 1 insisting]

theorem replaced_known_or_agreed_overwrites :
    firstStore.isOnline = true ∧
      ((start sampleSession firstStore).run overwrites).replaces? (.go 1 insisting) =
        some ⟨1, 0, "a", 2⟩ ∧
      ((start sampleSession firstStore).run overwrites).known 0 = some 1 ∧
      ∃ prompt asked waited,
        (start sampleSession firstStore).HasAgreed overwrites asked waited 1 0 prompt := by
  have online : firstStore.isOnline = true := by decide +kernel
  have replaces : ((start sampleSession firstStore).run overwrites).replaces? (.go 1 insisting) =
      some ⟨1, 0, "a", 2⟩ := by decide +kernel
  have known : ((start sampleSession firstStore).run overwrites).known 0 = some 1 := by
    decide +kernel
  refine ⟨online, replaces, known, ?_⟩
  rcases replaced_known_or_agreed online overwrites (.go 1 insisting) _ replaces with
    same | ⟨prompt, asked, waited, agreed, -⟩
  · cases known.symm.trans same
  · exact ⟨prompt, asked, waited, agreed⟩

/-- Who is asked is told of a version. -/
def tells (version : Int) : Numbered → Bool
  | ⟨_, .attempt _ (.asking prompt)⟩ => prompt.remote == version
  | _ => true

/-- **A version that nobody has seen is replaced**: it is the third, the context knows the first,
and whatever the user has agreed to was about the second. -/
theorem unseen_version_replaced :
    ((start sampleSession firstStore).run overwritesUnseen).replaces? (.go 1 insisting) =
        some ⟨1, 0, "a", 3⟩ ∧
      ((start sampleSession firstStore).run overwritesUnseen).known 0 = some 1 ∧
      ∀ prompt asked waited,
        (start sampleSession firstStore).HasAgreed overwritesUnseen asked waited 1 0 prompt →
        prompt.remote = 2 := by
  refine ⟨by decide +kernel, by decide +kernel, ?_⟩
  rintro prompt asked waited ⟨-, i, oracle, rest, parts, place, -, -⟩
  have told : ∀ n ≤ overwritesUnseen.length,
      ((start sampleSession firstStore).run (overwritesUnseen.take n)).threads.all (tells 2) =
        true := by
    decide +kernel
  have before : overwritesUnseen.take (asked ++ waited).length = asked ++ waited := by
    rw [parts]
    exact List.take_left
  have within : (asked ++ waited).length ≤ overwritesUnseen.length := by
    rw [parts]
    exact (List.prefix_append _ _).length_le
  have all := told _ within
  rw [before] at all
  have told := List.all_eq_true.mp all _ (List.mem_of_getElem? place)
  exact beq_iff_eq.mp told

end Commons

end Folio
