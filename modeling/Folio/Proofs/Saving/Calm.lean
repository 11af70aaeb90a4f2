/-
# Calm runs

In a calm run nothing is edited while a save is in flight, and no save and reload are in flight at
the same time.  Then every save in flight carries the version that the model holds, and a reload
that has its reply carries the version that the store keeps.  So whatever ends and leaves the model
clean leaves both with one version (`Exchange.Settled`).
-/
import Folio.Proofs.Saving.Versions

namespace Folio

namespace Process

theorem saves_of_saved {p : Process} {reply : p.need.Answer} (h : p.saved reply = true) :
    p.saves = true := by
  unfold saved at h
  split at h
  · rfl
  · rfl
  · cases h

theorem reloads_of_reloaded {p : Process} {reply : p.need.Answer} (h : p.reloaded reply = true) :
    p.reloads = true := by
  unfold reloaded at h
  split at h
  · rfl
  · rfl
  · cases h

theorem isStore_of_saves {p : Process} (h : p.saves = true) : p.need.isStore = true := by
  unfold saves at h
  split at h
  · rfl
  · rfl
  · cases h

theorem isStore_of_reloads {p : Process} (h : p.reloads = true) : p.need.isStore = true := by
  unfold reloads at h
  split at h
  · rfl
  · rfl
  · cases h

end Process

namespace Exchange

/-! ## 1. The invariant -/

/-- No save and reload are in flight at the same time. -/
def Apart (x : Exchange) : Prop := x.isSaving = true → x.isReloading = false

/-- **What is in flight agrees** with the versions that are held and kept. -/
structure Agrees (held kept : Nat) (t : Thread) : Prop where
  /-- A save carries what the model holds. -/
  saves : t.process.saves = true → t.carries = held
  /-- A save that was done has left it in the store. -/
  saved : ∀ reply, t.reply = some reply → t.process.saved reply = true → kept = held
  /-- A reload that was done brings what the store keeps. -/
  reloaded : ∀ reply, t.reply = some reply → t.process.reloaded reply = true → t.carries = kept

/-- **The invariant of calm runs.** -/
structure Settled (x : Exchange) : Prop where
  clean : x.clean = true → x.held = x.kept
  agrees : ∀ t ∈ x.threads, Agrees x.held x.kept t

variable {x : Exchange}

/-- A process that is not replied to agrees if it carries what the model holds. -/
theorem Agrees.of_pending {held kept : Nat} {p : Process} {carries : Nat}
    (h : p.saves = true → carries = held) : Agrees held kept { process := p, carries } := by
  refine ⟨h, fun _ replied => ?_, fun _ replied => ?_⟩
  · cases replied
  · cases replied

/-- While nothing is saved, the model may come to hold any version. -/
theorem Agrees.of_not_saving {held held' kept : Nat} {t : Thread} (h : Agrees held kept t)
    (idle : t.process.saves = false) : Agrees held' kept t := by
  refine ⟨fun saves => ?_, fun reply _ saved => ?_, h.reloaded⟩
  · rw [idle] at saves
    cases saves
  · rw [Process.saves_of_saved saved] at idle
    cases idle

/-- While nothing is reloaded, the store may come to keep the version that the model holds. -/
theorem Agrees.of_not_reloading {held kept : Nat} {t : Thread} (h : Agrees held kept t)
    (idle : t.process.reloads = false) : Agrees held held t := by
  refine ⟨h.saves, fun _ _ _ => rfl, fun reply _ reloaded => ?_⟩
  rw [Process.reloads_of_reloaded reloaded] at idle
  cases idle

theorem saves_of_isSaving (idle : x.isSaving = false) {t : Thread} (ht : t ∈ x.threads) :
    t.process.saves = false := by
  have none := List.any_eq_false.mp idle t ht
  exact Bool.eq_false_iff.mpr none

theorem isSaving_of_mem {t : Thread} (ht : t ∈ x.threads) (saves : t.process.saves = true) :
    x.isSaving = true := List.any_eq_true.mpr ⟨t, ht, saves⟩

theorem reloads_of_isReloading (idle : x.isReloading = false) {t : Thread} (ht : t ∈ x.threads) :
    t.process.reloads = false := by
  have none := List.any_eq_false.mp idle t ht
  exact Bool.eq_false_iff.mpr none

/-- Whoever reloads is not joined by one who saves. -/
theorem Apart.isSaving_eq_false (apart : x.Apart) {t : Thread} (ht : t ∈ x.threads)
    (reloads : t.process.reloads = true) : x.isSaving = false := by
  cases saving : x.isSaving with
  | false => rfl
  | true =>
    have idle := reloads_of_isReloading (apart saving) ht
    rw [reloads] at idle
    cases idle

namespace Settled

/-! ## 2. Moves -/

/-- An edit, while no save is in flight. -/
theorem edit (h : x.Settled) (v : x.Versioned) (idle : x.isSaving = false) (value : ModelValue) :
    (x.edit value).Settled := by
  have context : (x.edit value).context = { x.context with model := x.context.model.edit value } :=
    Session.context_setContext _ v.made
  refine ⟨fun clean => ?_, fun t ht => ?_⟩
  · rw [Exchange.clean, context] at clean
    cases clean
  · exact (h.agrees t ht).of_not_saving (saves_of_isSaving idle ht)

/-- A process enters that does not save yet. -/
theorem enter (h : x.Settled) {p : Process} (idle : p.saves = false) : (x.enter p).Settled := by
  refine ⟨h.clean, fun t ht => ?_⟩
  rcases List.mem_append.mp ht with ht | ht
  · exact h.agrees t ht
  · rw [List.mem_singleton.mp ht]
    refine Agrees.of_pending fun saves => ?_
    rw [idle] at saves
    cases saves

/-- **The store carries out a call**: a save leaves what the model holds, so that all that is in
flight goes on agreeing. -/
theorem carryOut (h : x.Settled) (apart : x.Apart) (i : Nat) : (x.carryOut i).Settled := by
  rcases carryOut_cases x i with same | ⟨t, store, reply, ht, -, -, next⟩
  · rwa [same]
  rw [next]
  have mem := List.mem_of_getElem? ht
  have agrees := h.agrees t mem
  cases saved : t.process.saved reply with
  | true =>
    have saves := Process.saves_of_saved saved
    have idle := apart (isSaving_of_mem mem saves)
    have kept : (x.replied i t store reply).kept = x.held := by
      simp only [replied, saved, if_true]
      exact agrees.saves saves
    refine ⟨fun _ => kept.symm, fun u hu => ?_⟩
    rw [kept]
    rcases List.mem_or_eq_of_mem_set hu with hu | rfl
    · exact (h.agrees u hu).of_not_reloading (reloads_of_isReloading idle hu)
    · have notReloads := reloads_of_isReloading idle mem
      refine ⟨fun _ => ?_, fun _ _ _ => rfl, fun r _ reloaded => ?_⟩
      · simp only [notReloads]
        exact agrees.saves saves
      · rw [Process.reloads_of_reloaded reloaded] at notReloads
        cases notReloads
  | false =>
    have kept : (x.replied i t store reply).kept = x.kept := by
      simp only [replied, saved]
      rfl
    refine ⟨fun clean => ?_, fun u hu => ?_⟩
    · rw [kept]
      exact h.clean clean
    · rw [kept]
      rcases List.mem_or_eq_of_mem_set hu with hu | rfl
      · exact h.agrees u hu
      · refine ⟨fun saves => ?_, fun r replied isSaved => ?_, fun r replied reloaded => ?_⟩
        · have notReloads := reloads_of_isReloading (apart (isSaving_of_mem mem saves)) mem
          simp only [notReloads]
          exact agrees.saves saves
        · rw [← Option.some.inj replied, saved] at isSaved
          cases isSaved
        · have reloads : t.process.reloads = true := Process.reloads_of_reloaded reloaded
          simp only [reloads, if_true]

/-- **A process goes on**: a save that was done has left what the model holds, and after a reload
the model holds what the store keeps. -/
theorem go (h : x.Settled) (v : x.Versioned) (apart : x.Apart) (i : Nat) (oracle : Oracle) :
    (x.go i oracle).Settled := by
  rcases go_cases x i oracle with same | ⟨t, answer, ht, given, next⟩
  · rwa [same]
  rw [next]
  have mem := List.mem_of_getElem? ht
  have agrees := h.agrees t mem
  have brings := (v.threads t mem).brings v given
  have replied : t.process.need.isStore = true → t.reply = some answer := fun isStore =>
    (Need.answer?_of_isStore isStore).symm.trans given
  cases reloaded : t.process.reloaded answer with
  | true =>
    have reloads := Process.reloads_of_reloaded reloaded
    have idle := apart.isSaving_eq_false mem reloads
    have held : (x.resumed (x.threads.eraseIdx i) t answer).held = x.kept := by
      simp only [resumed, reloaded, if_true]
      exact agrees.reloaded answer (replied (Process.isStore_of_reloads reloads)) reloaded
    refine ⟨fun _ => held, fun u hu => ?_⟩
    rcases List.mem_append.mp hu with hu | hu
    · have hu := List.mem_of_mem_eraseIdx hu
      exact (h.agrees u hu).of_not_saving (saves_of_isSaving idle hu)
    · obtain ⟨p, -, rfl⟩ := List.mem_map.mp hu
      exact .of_pending fun _ => rfl
  | false =>
    have held : (x.resumed (x.threads.eraseIdx i) t answer).held = x.held := by
      simp only [resumed, reloaded]
      rfl
    refine ⟨fun clean => ?_, fun u hu => ?_⟩
    · rw [held]
      cases saved : t.process.saved answer with
      | true =>
        have isStore := Process.isStore_of_saves (Process.saves_of_saved saved)
        exact (agrees.saved answer (replied isStore) saved).symm
      | false =>
        have same := brings.ofNeither saved reloaded
        refine h.clean ?_
        rw [Exchange.clean, ← same]
        exact clean
    · rcases List.mem_append.mp hu with hu | hu
      · rw [held]
        exact h.agrees u (List.mem_of_mem_eraseIdx hu)
      · obtain ⟨p, -, rfl⟩ := List.mem_map.mp hu
        exact .of_pending fun _ => rfl

/-! ## 3. Runs -/

/-- **A calm move** keeps the invariant. -/
theorem step (h : x.Settled) (v : x.Versioned) (apart : x.Apart) :
    (m : Move) → x.isCalm m = true → (x.step m).Settled
  | .edit value, calm => by
    have idle : x.isSaving = false := by
      simp only [isCalm, Bool.and_eq_true, Bool.not_eq_true'] at calm
      exact calm.1
    simp only [Exchange.step]
    split
    · exact h.edit v idle value
    · exact h
  | .save, _ => h.enter rfl
  | .revert, _ => h.enter rfl
  | .attempt k, _ => by
    simp only [Exchange.step]
    split
    · exact h.enter rfl
    · exact h
  | .deed d, _ => by
    simp only [Exchange.step]
    split
    · next spares =>
      have same := Session.model_deed v.made spares
      refine ⟨fun clean => h.clean ?_, h.agrees⟩
      rw [Exchange.clean, Exchange.context, ← same]
      exact clean
    · exact h
  | .conditions _ _ _, _ => ⟨h.clean, h.agrees⟩
  | .setWritable _, _ => ⟨h.clean, h.agrees⟩
  | .carryOut i, _ => h.carryOut apart i
  | .go i oracle, _ => h.go v apart i oracle

/-- After a calm move no save and reload are in flight at the same time. -/
theorem apart_step {m : Move} (calm : x.isCalm m = true) : (x.step m).Apart := by
  intro saving
  simp only [isCalm, Bool.and_eq_true, saving, Bool.true_and, Bool.not_eq_true'] at calm
  exact calm.2

/-- **A calm run** keeps the invariant. -/
theorem run (h : x.Settled) (v : x.Versioned) (apart : x.Apart) (moves : List Move)
    (calm : x.isCalmRun moves = true) : (x.run moves).Settled := by
  induction moves generalizing x with
  | nil => exact h
  | cons m moves ih =>
    obtain ⟨now, later⟩ := Bool.and_eq_true_iff.mp calm
    exact ih (h.step v apart m now) (v.step m) (apart_step now) later

/-- At the start nothing is in flight, and there is one version. -/
theorem start (session : Session) (store : MemoryStore) (document : ContextId) :
    (Exchange.start session store document).Settled :=
  ⟨fun _ => rfl, fun _ ht => absurd ht List.not_mem_nil⟩

end Settled

end Exchange

end Folio
